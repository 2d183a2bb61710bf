import Mathlib.Data.List.Forall2
import Mathlib.Data.List.Induction

/-! Hash chains: every entry names the digest of the one before it, so that the last digest commits
to the whole chain. -/

namespace FreeSdn.Lib

variable {ρ σ δ : Type*}

/-- Every entry names the digest before it, the first one `start`. -/
def Linked (prev : ρ → Option δ) (digest : ρ → δ) : Option δ → List ρ → Prop
  | _, [] => True
  | start, r :: rs => prev r = start ∧ Linked prev digest (some (digest r)) rs

section

variable {prev : ρ → Option δ} {digest : ρ → δ} {start : Option δ} {rs : List ρ} {r : ρ}

/-- The digest at the end of a chain. -/
def lastDigest (digest : ρ → δ) (start : Option δ) (rs : List ρ) : Option δ :=
  (rs.getLast?.map digest).or start

@[simp] theorem lastDigest_nil : lastDigest digest start [] = start := rfl

@[simp] theorem lastDigest_snoc : lastDigest digest start (rs ++ [r]) = some (digest r) := by
  simp [lastDigest]

theorem linked_snoc : Linked prev digest start (rs ++ [r]) ↔
    Linked prev digest start rs ∧ prev r = lastDigest digest start rs := by
  induction rs generalizing start with
  | nil => simp [Linked]
  | cons q rs ih =>
    have last : lastDigest digest start (q :: rs) = lastDigest digest (some (digest q)) rs := by
      cases rs <;> simp [lastDigest, List.getLast?_cons]
    rw [List.cons_append, Linked, Linked, ih, last, and_assoc]

/-- An entry names the start or the digest of an entry. -/
theorem linked_prev (h : Linked prev digest start rs) (mem : r ∈ rs) :
    prev r = start ∨ ∃ q ∈ rs, prev r = some (digest q) := by
  induction rs generalizing start with
  | nil => simp at mem
  | cons q rs ih =>
    rcases List.mem_cons.mp mem with rfl | later
    · exact .inl h.1
    · rcases ih h.2 later with first | ⟨p, known, link⟩
      · exact .inr ⟨q, List.mem_cons_self, first⟩
      · exact .inr ⟨p, List.mem_cons_of_mem q known, link⟩

end

/-- Two chains of one length that end in the same digest agree entry by entry, when a common digest
of two entries relates them and related entries name the same digest. -/
theorem linked_agree {prev : ρ → Option δ} {digest : ρ → δ} {prev' : σ → Option δ} {digest' : σ → δ}
    {start start' : Option δ} {related : ρ → σ → Prop} :
    ∀ (rs : List ρ) (ss : List σ), rs.length = ss.length →
      (∀ r ∈ rs, ∀ s ∈ ss, digest r = digest' s → related r s) →
      (∀ r ∈ rs, ∀ s ∈ ss, related r s → prev r = prev' s) →
      Linked prev digest start rs → Linked prev' digest' start' ss →
      (rs ≠ [] → lastDigest digest start rs = lastDigest digest' start' ss) →
      List.Forall₂ related rs ss := by
  intro rs
  -- from the end of the chain to its start
  induction rs using List.reverseRecOn with
  | nil =>
    intro ss length _ _ _ _ _
    rw [List.length_nil, eq_comm, List.length_eq_zero_iff] at length
    rw [length]
    exact .nil
  | append_singleton rs r ih =>
    intro ss length collide same linked linked' last
    rcases List.eq_nil_or_concat ss with rfl | ⟨ss, s, rfl⟩
    · simp at length
    rw [List.concat_eq_append] at *
    have equal := last (by simp)
    rw [lastDigest_snoc, lastDigest_snoc, Option.some.injEq] at equal
    have pair := collide r (by simp) s (by simp) equal
    obtain ⟨before, here⟩ := linked_snoc.mp linked
    obtain ⟨before', here'⟩ := linked_snoc.mp linked'
    have rest : List.Forall₂ related rs ss := by
      refine ih ss (by simpa using length) ?_ ?_ before before' fun _ => ?_
      · intro a ha b hb
        exact collide a (List.mem_append_left _ ha) b (List.mem_append_left _ hb)
      · intro a ha b hb
        exact same a (List.mem_append_left _ ha) b (List.mem_append_left _ hb)
      · rw [← here, ← here']
        exact same r (by simp) s (by simp) pair
    exact List.rel_append rest (.cons pair .nil)

end FreeSdn.Lib
