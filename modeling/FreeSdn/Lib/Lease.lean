import Mathlib.Data.List.Basic
import Mathlib.Data.List.Pairwise
import Mathlib.Data.List.Perm.Basic
import Mathlib.Order.Nat

/-! Leases: claims of a key that a shared store grants to one holder until they expire, as `SET` with
`NX` and `EX` does. -/

namespace FreeSdn.Lib

variable {κ : Type*} [DecidableEq κ]

/-- A claim of a key, granted at `since` for `ttl`. -/
structure Lease (κ : Type*) where
  key : κ
  since : Nat
  ttl : Nat
  deriving DecidableEq

def Lease.expires (l : Lease κ) : Nat := l.since + l.ttl

/-- When the keys of the store expire. -/
abbrev Expiry (κ : Type*) := κ → Option Nat

def isLive (store : Expiry κ) (now : Nat) (key : κ) : Bool := (store key).any fun e => now < e

/-- The store with the key set, unless it is live. -/
def setNx (store : Expiry κ) (now : Nat) (key : κ) (ttl : Nat) : Option (Expiry κ) :=
  if isLive store now key then none
  else some fun k => if k = key then some (now + ttl) else store k

/-- Two leases of one key do not overlap. -/
def Apart (a b : Lease κ) : Prop := a.key = b.key → a.expires ≤ b.since ∨ b.expires ≤ a.since

omit [DecidableEq κ] in
theorem Apart.symm {a b : Lease κ} (h : Apart a b) : Apart b a := fun same => (h same.symm).symm

/-- The store guards the leases: no two of one key overlap, and it still knows when each expires. -/
structure Guarded (store : Expiry κ) (now : Nat) (leases : List (Lease κ)) : Prop where
  apart : leases.Pairwise Apart
  past : ∀ l ∈ leases, l.since ≤ now
  kept : ∀ l ∈ leases, ∃ e, store l.key = some e ∧ l.expires ≤ e

section

variable {store store' : Expiry κ} {now : Nat} {key : κ} {ttl : Nat} {leases leases' : List (Lease κ)}

omit [DecidableEq κ] in
theorem Guarded.nil (store : Expiry κ) (now : Nat) : Guarded store now [] :=
  ⟨.nil, by simp, by simp⟩

omit [DecidableEq κ] in
theorem Guarded.perm (g : Guarded store now leases) (perm : leases.Perm leases') :
    Guarded store now leases' where
  apart := (perm.pairwise_iff fun h => h.symm).mp g.apart
  past := fun l mem => g.past l (perm.mem_iff.mpr mem)
  kept := fun l mem => g.kept l (perm.mem_iff.mpr mem)

omit [DecidableEq κ] in
theorem Guarded.sublist (g : Guarded store now leases) (sub : leases'.Sublist leases) :
    Guarded store now leases' where
  apart := g.apart.sublist sub
  past := fun l mem => g.past l (sub.subset mem)
  kept := fun l mem => g.kept l (sub.subset mem)

omit [DecidableEq κ] in
theorem Guarded.later (g : Guarded store now leases) (d : Nat) : Guarded store (now + d) leases :=
  ⟨g.apart, fun l mem => (g.past l mem).trans (Nat.le_add_right now d), g.kept⟩

/-- A key that is set has expired before, and so has every lease of it. -/
theorem Guarded.expired (g : Guarded store now leases) (h : setNx store now key ttl = some store') :
    ∀ l ∈ leases, l.key = key → l.expires ≤ now := by
  intro l mem same
  obtain ⟨e, known, le⟩ := g.kept l mem
  unfold setNx at h
  split at h
  · simp at h
  · rename_i dead
    simp only [isLive, ← same, known, Option.any_some, decide_eq_true_eq, not_lt] at dead
    exact le.trans dead

/-- A key is set for nobody. -/
theorem Guarded.stray (g : Guarded store now leases) (h : setNx store now key ttl = some store') :
    Guarded store' now leases := by
  refine ⟨g.apart, g.past, fun l mem => ?_⟩
  have expired := g.expired h l mem
  unfold setNx at h
  split at h
  · simp at h
  · obtain rfl := Option.some.inj h
    dsimp only
    split
    · rename_i same
      exact ⟨now + ttl, rfl, (expired same).trans (Nat.le_add_right now ttl)⟩
    · exact g.kept l mem

/-- A key is set for a new holder. -/
theorem Guarded.grant (g : Guarded store now leases) (h : setNx store now key ttl = some store') :
    Guarded store' now (⟨key, now, ttl⟩ :: leases) := by
  have stray := g.stray h
  refine ⟨List.pairwise_cons.mpr ⟨fun l mem same => ?_, g.apart⟩, ?_, ?_⟩
  · exact .inr (g.expired h l mem same.symm)
  · rintro l (_ | ⟨_, mem⟩)
    · exact le_refl now
    · exact g.past l mem
  · rintro l (_ | ⟨_, mem⟩)
    · unfold setNx at h
      split at h
      · simp at h
      · obtain rfl := Option.some.inj h
        exact ⟨now + ttl, if_pos rfl, le_refl _⟩
    · exact stray.kept l mem

end

end FreeSdn.Lib
