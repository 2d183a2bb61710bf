import FreeSdn.Artifact.Store

/-! What the leases of a directory leave to each other.  An exclusive lease has the directory to itself,
under shared ones it does not change, a payload that is retired and gone stays gone, and a payload that
is settled stays as it was verified until it is retired. -/

namespace FreeSdn.Artifact

open FreeSdn.Lib

variable {h : Host} {i : Intent} {x : Bool} {z : Prop} {l : Lease} {d : Directory} {c : Duty} {k : Change}

/-! ### Changes -/

/-- What a change can do. -/
theorem act_cases (t : Turn) :
    (act d t k).2 = d ∨
      (∃ name f, k = .create name ∧ d.entries name = none ∧ (act d t k).2 = d.add name f) ∨
      (∃ fd data f, k = .write fd data ∧ (act d t k).2 = d.setFile fd f) ∨
      ∃ name n f, k = .unlink name ∧ (act d t k).2 = (d.setFile n f).remove name := by
  cases k with
  | create name =>
    have acted : (∃ e, act d t (.create name) = (.error e, d)) ∨ _ := act_create t
    obtain ⟨e, failed⟩ | ⟨f, free, done⟩ := acted
    · exact .inl (by rw [failed])
    · exact .inr (.inl ⟨name, f, rfl, free, by rw [done]⟩)
  | write fd data =>
    have acted : (∃ e, act d t (.write fd data) = (.error e, d)) ∨ _ := act_write t data
    obtain ⟨e, failed⟩ | ⟨count, f, done⟩ := acted
    · exact .inl (by rw [failed])
    · exact .inr (.inr (.inl ⟨fd, data, f, rfl, by rw [done]⟩))
  | unlink name =>
    have acted : (∃ e, act d t (.unlink name) = (.error e, d)) ∨ _ := act_unlink t
    obtain ⟨e, failed⟩ | ⟨n, f, done⟩ := acted
    · exact .inl (by rw [failed])
    · exact .inr (.inr (.inr ⟨name, n, f, rfl, by rw [done]⟩))

theorem contents_entry {name : Name} {n : Nat} (entry : d.entries name = some n) :
    d.contents name = some (d.files n).contents := by
  simp [Directory.contents, Directory.file, entry]

theorem add_entries {name other : Name} {f : File} (apart : other ≠ name) :
    (d.add name f).entries other = d.entries other := by
  simp [Directory.add, Function.update, apart]

/-- A payload that is gone is never created again. -/
theorem Admitted.gone (t : Turn) (admitted : Admitted h x z c d k) (gone : Gone d) :
    Gone (act d t k).2 := by
  obtain same | ⟨name, f, rfl, free, done⟩ | ⟨fd, data, f, rfl, done⟩ | ⟨name, n, f, rfl, done⟩ :=
    act_cases (d := d) (k := k) t
  · rw [same]
    exact gone
  · have payload : name ≠ .payload := fun payload => gone.2 (admitted.2.1 payload)
    have retired : name ≠ .retired := by
      rintro rfl
      exact gone.2 free
    rw [done]
    exact ⟨(add_entries payload.symm).trans gone.1, (add_entries retired.symm).trans_ne gone.2⟩
  · rw [done]
    exact gone
  · obtain ⟨-, rfl, -⟩ := admitted
    rw [done]
    refine ⟨by simp [Directory.remove], ?_⟩
    simpa [Directory.remove, Directory.setFile] using gone.2

/-- The payload, and no sign of its retirement. -/
def Kept (data : List UInt8) (d : Directory) : Prop :=
  d.contents .payload = some data ∧ d.entries .retired = none ∧ d.entries .cleaned = none

theorem verified_iff : Verified h i d ↔ ∃ data, Kept data d ∧ Exact h i data := by
  constructor
  · rintro ⟨⟨data, contents, exact_⟩, unretired⟩
    exact ⟨data, ⟨contents, unretired⟩, exact_⟩
  · rintro ⟨data, ⟨contents, unretired⟩, exact_⟩
    exact ⟨⟨data, contents, exact_⟩, unretired⟩

/-- Preparation and delivery leave a settled payload as it is. -/
theorem Admitted.kept (t : Turn) (admitted : Admitted h x z .prepare d k) (settled : z) (sound : Sound d)
    {data : List UInt8} (kept : Kept data d) : Kept data (act d t k).2 := by
  obtain ⟨contents, retired, cleaned⟩ := kept
  obtain ⟨n, entry, here⟩ : ∃ n, d.entries .payload = some n ∧ (d.files n).contents = data := by
    unfold Directory.contents Directory.file at contents
    cases entry : d.entries .payload with
    | none => simp [entry] at contents
    | some n => exact ⟨n, rfl, by simpa [entry] using contents⟩
  obtain same | ⟨name, f, rfl, free, done⟩ | ⟨fd, data', f, rfl, done⟩ | ⟨name, n, f, rfl, done⟩ :=
    act_cases (d := d) (k := k) t
  · rw [same]
    exact ⟨contents, retired, cleaned⟩
  · have payload : Name.payload ≠ name := by
      rintro rfl
      cases entry.symm.trans free
    have final : ¬(name = .retired ∨ name = .cleaned) := fun final => admitted.2.2 final rfl
    rw [not_or] at final
    have old : n ≠ d.next := (sound.bounded _ _ entry).ne
    rw [done]
    refine ⟨?_, (add_entries (Ne.symm final.1)).trans retired,
      (add_entries (Ne.symm final.2)).trans cleaned⟩
    rw [contents_entry ((add_entries payload).trans entry)]
    simp [Directory.add, Function.update, old, here]
  · have apart : n ≠ fd := by
      rintro rfl
      exact admitted.2 settled entry
    rw [done]
    refine ⟨?_, retired, cleaned⟩
    rw [contents_entry (show (d.setFile fd f).entries .payload = some n from entry)]
    simp [Directory.setFile, Function.update, apart, here]
  · obtain ⟨-, -, decision, duty, -⟩ := admitted
    cases duty

theorem LeaseOk.weaken {z' : Prop} (good : LeaseOk h i x z l d) (weaker : z' → z) : LeaseOk h i x z' l d :=
  { good with settled := fun holds => good.settled (weaker holds) }

theorem Admitted.weaken {z' : Prop} (admitted : Admitted h x z c d k) (weaker : z' → z) :
    Admitted h x z' c d k := by
  cases k with
  | create name => exact admitted
  | write fd data => exact ⟨admitted.1, fun holds => admitted.2 (weaker holds)⟩
  | unlink name => exact admitted

/-! ### Steps -/

variable {w w' : World} {pid : Nat} {p q : Process} {e : Event}

/-- The process that an event is about. -/
def Event.process (w : World) : Event → Nat
  | .acquire _ _ _ => w.processes.length
  | .call pid _ => pid
  | .turn pid _ => pid
  | .finished pid => pid
  | .leave pid => pid

/-- A step leaves the directory alone, or makes a change that its process is allowed. -/
theorem WorldOk.step_cases (good : WorldOk h z w) (next : World.step h w e = some w') :
    w'.dir = w.dir ∨ ∃ pid p call rest t k, e = .turn pid t ∧ w.process pid = some p ∧
      p.activity = .busy call rest ∧ Admitted h p.exclusive z call.duty w.dir k ∧
      w'.dir = (act w.dir t k).2 := by
  cases World.Moves.of_step next with
  | acquire => exact .inl rfl
  | call => exact .inl rfl
  | @turn pid t _ _ call rest _ _ found taken =>
    cases rest with
    | done end_ => cases taken
    | call k more =>
      cases k with
      | inl query =>
        obtain ⟨-, rfl⟩ := Prod.mk.inj (Option.some.inj taken)
        exact .inl rfl
      | inr k =>
        obtain ⟨-, rfl⟩ := Prod.mk.inj (Option.some.inj taken)
        have safe : machine.Safe _ _ _ w.dir := good.process found
        exact .inr ⟨pid, _, call, _, t, k, rfl, found, rfl, safe.1, rfl⟩
  | finished => exact .inl rfl
  | leave => exact .inl rfl

theorem WorldOk.step_gone (good : WorldOk h z w) (next : World.step h w e = some w') (gone : Gone w.dir) :
    Gone w'.dir := by
  obtain same | ⟨pid, p, call, rest, t, k, -, -, -, admitted, done⟩ := good.step_cases next
  · rw [same]
    exact gone
  · rw [done]
    exact admitted.gone t gone

/-- Only a retirement or a cleanup touches a settled payload. -/
theorem WorldOk.step_kept (good : WorldOk h z w) (next : World.step h w e = some w') (settled : z)
    (duties : ∀ pid p call rest, w.process pid = some p → p.activity = .busy call rest →
      call.duty = .prepare) {data : List UInt8} (kept : Kept data w.dir) : Kept data w'.dir := by
  obtain same | ⟨pid, p, call, rest, t, k, -, found, busy, admitted, done⟩ := good.step_cases next
  · rw [same]
    exact kept
  · rw [duties pid p call rest found busy] at admitted
    rw [done]
    exact admitted.kept t settled good.sound kept

/-- Only an exclusive lease changes the directory. -/
theorem Admitted.exclusive (admitted : Admitted h x z c d k) : x = true := by
  cases k with
  | create name => exact admitted.1
  | write fd data => exact admitted.1
  | unlink name => exact admitted.1

theorem process_lt (found : w.process pid = some p) : pid < w.processes.length :=
  (List.getElem?_eq_some_iff.mp (process_some found)).1

theorem process_put (found : w.process pid = some p) (q : Option Process) :
    (w.put pid q).process pid = q := by
  simp [World.put, World.process, process_lt found]

theorem process_put_other {q : Option Process} {other : Nat} (apart : other ≠ pid) :
    (w.put pid q).process other = w.process other := by
  simp [World.put, World.process, Ne.symm apart]

/-- A step is about one process. -/
theorem step_process (next : World.step h w e = some w') (apart : pid ≠ e.process w) :
    w'.process pid = w.process pid := by
  cases World.Moves.of_step next with
  | acquire =>
    have other : pid ≠ w.processes.length := apart
    unfold World.process
    rw [List.getElem?_append]
    split
    · rfl
    · next beyond =>
      rw [List.getElem?_singleton, if_neg (by omega), List.getElem?_eq_none (Nat.le_of_not_lt beyond)]
  | call => exact process_put_other apart
  | turn => exact process_put_other apart
  | finished => exact process_put_other apart
  | leave => exact process_put_other apart

/-- A process changes the directory only while it is alone. -/
theorem WorldOk.step_other (good : WorldOk h z w) (next : World.step h w e = some w')
    (apart : pid ≠ e.process w) (found : w.process pid = some p) : w'.dir = w.dir := by
  obtain same | ⟨pid', q, call, rest, t, k, rfl, other, -, admitted, -⟩ := good.step_cases next
  · exact same
  · exact absurd (good.locked _ _ _ _ (process_some other) (process_some found) admitted.exclusive).symm
      apart

theorem WorldOk.weaken {z' : Prop} (good : WorldOk h z w) (weaker : z' → z) : WorldOk h z' w where
  sound := good.sound
  settled holds := good.settled (weaker holds)
  locked := good.locked
  processes p mem := by
    have kept := good.processes p mem
    unfold ProcessOk at kept ⊢
    split at kept
    · exact kept.weaken weaker
    · exact Machine.Safe.mono kept (fun _ _ admitted => admitted.weaken weaker) fun _ _ ends =>
        ⟨ends.1.weaken weaker, ends.2⟩

/-- A payload that an exclusive lease has verified is settled. -/
theorem WorldOk.settle (good : WorldOk h z w) (found : w.process pid = some p)
    (exclusive : p.exclusive = true) (idle : p.activity = .idle l) (prepared : l.prepared ≠ none)
    (there : w.dir.entries .payload ≠ none) : WorldOk h True w where
  sound := good.sound
  settled _ := by
    rcases good.sound.once with ⟨-, free⟩ | ⟨once, -⟩
    · exact absurd free there
    · omega
  locked := good.locked
  processes q mem := by
    obtain ⟨n, place⟩ := List.getElem?_of_mem mem
    obtain rfl : pid = n := good.locked _ _ _ _ (process_some found) place exclusive
    obtain rfl : p = q := Option.some.inj (Option.some.inj ((process_some found).symm.trans place))
    have kept := good.process found
    unfold ProcessOk at kept ⊢
    rw [idle] at kept ⊢
    obtain ⟨fd, reader, -⟩ := kept.verified prepared
    refine { kept with settled := fun _ => ⟨(kept.reading fd reader).1, ?_⟩ }
    rcases kept.sound.once with ⟨-, free⟩ | ⟨once, -⟩
    · exact absurd free there
    · omega

end FreeSdn.Artifact
