import FreeSdn.Signing.Journal

/-! What the transactions do to the journal: one operation is open at most, and once an identity is active
it stays, with no operation open. -/

namespace FreeSdn.Signing

open FreeSdn.Lib

variable {h : Host} {j j' : Journal} {c : SigningCommand} {actor now : Nat} {i i' old : AgentSigningIntent}
  {a : AgentSigningIdentity} {known : List UInt8 → Prop}

theorem constraint_bind {β : Type} {condition : Bool} {f : Unit → Except Refusal β} {b : β}
    (passed : (constraint condition >>= f) = .ok b) : condition = true ∧ f () = .ok b :=
  require_bind passed

theorem conflict_bind {β : Type} {condition : Bool} {detail : String} {f : Unit → Except Refusal β} {b : β}
    (passed : (conflict condition detail >>= f) = .ok b) : condition = true ∧ f () = .ok b :=
  require_bind passed

theorem signing_ok {x : Except Raised α} {b : α} (passed : signing x = .ok b) : x = .ok b := by
  cases x with
  | ok b' => exact congrArg _ (Except.ok.inj passed)
  | error e => cases passed

theorem find_some (found : j.find n = some i) : i ∈ j.intents ∧ i.operationId = n :=
  ⟨List.mem_of_find?_eq_some found, by simpa using List.find?_some found⟩

theorem mem_put (mem : i' ∈ (j.put i).intents) :
    i' = i ∨ i' ∈ j.intents ∧ i'.operationId ≠ i.operationId := by
  obtain ⟨old, there, rfl⟩ := List.mem_map.mp mem
  split
  · exact .inl rfl
  · next other => exact .inr ⟨there, other⟩

theorem put_mem (there : old ∈ j.intents) (same : old.operationId = i.operationId) :
    i ∈ (j.put i).intents := List.mem_map.mpr ⟨old, there, if_pos same⟩

theorem put_other (there : i' ∈ j.intents) (other : i'.operationId ≠ i.operationId) :
    i' ∈ (j.put i).intents := List.mem_map.mpr ⟨i', there, if_neg other⟩

/-! ### Moves -/

/-- What a transaction can do; it records no key but those that are `known`. -/
inductive Moves (h : Host) (known : List UInt8 → Prop) (j : Journal) : Journal → Prop
  | same : Moves h known j j
  | first (i : AgentSigningIntent) (vacant : j.identity = none) (closed : ∀ x ∈ j.intents, x.isOpen = false)
      (fresh : j.find i.operationId = none) (state : i.state = .pending) (noKey : i.publicKeyPem = none)
      (free : i.kind = .initialization → j.agents = false ∧ j.releases = false) :
      Moves h known j { j with intents := j.intents ++ [i] }
  | cancelled (old : AgentSigningIntent) (by_ at_ : Option Nat) (found : j.find old.operationId = some old)
      (vacant : j.identity = none) (state : old.isOpen = true) :
      Moves h known j (j.put { old with state := .cancelled, closedAt := at_, closedBy := by_ })
  | prepared (old : AgentSigningIntent) (public_ : List UInt8) (at_ : Option Nat)
      (found : j.find old.operationId = some old) (vacant : j.identity = none) (state : old.state = .pending)
      (seen : known public_) (valid : validatedAnchor h public_ (h.sha256 public_) = .ok public_)
      (expected : old.kind = .adopt → old.expectedPublicSha256 = some (h.sha256 public_)) :
      Moves h known j (j.put { old with
        state := .prepared
        publicKeyPem := some public_
        publicKeySha256 := some (h.sha256 public_)
        preparedAt := at_ })
  | activated (old : AgentSigningIntent) (by_ at_ : Option Nat) (a : AgentSigningIdentity)
      (found : j.find old.operationId = some old) (vacant : j.identity = none)
      (state : old.state = .prepared) (operation : a.operationId = old.operationId)
      (format : a.formatVersion = 1) (purpose : a.purpose = "agent-release")
      (agrees : a.agrees { old with state := .activated, closedAt := at_, closedBy := by_ } = true) :
      Moves h known j { j.put { old with state := .activated, closedAt := at_, closedBy := by_ } with
        identity := some a }

theorem load_ok {r : Option AgentSigningIntent × Option AgentSigningIdentity} (loaded : load h j c = .ok r) :
    r = (j.find c.operationId, j.identity) ∧
      ∀ a, j.identity = some a → a.operationId = c.operationId ∧ a.retained (j.find c.operationId) = true := by
  obtain ⟨_, -, loaded⟩ := bind_ok loaded
  obtain ⟨_, checked, loaded⟩ := bind_ok loaded
  refine ⟨(Except.ok.inj loaded).symm, fun a active => ?_⟩
  rw [active] at checked
  obtain ⟨own, checked⟩ := conflict_bind checked
  obtain ⟨kept, -⟩ := conflict_bind checked
  simp only [Bool.and_eq_true, decide_eq_true_eq] at own
  exact ⟨own.1.1, kept⟩

theorem updateIntent_ok (done : j.updateIntent h i = .ok j') :
    j' = j.put i ∧ i.constraints h = true ∧ ∃ old, j.find i.operationId = some old := by
  obtain ⟨old, found, done⟩ := bind_ok done
  obtain ⟨bound, done⟩ := constraint_bind done
  obtain ⟨-, done⟩ := constraint_bind done
  obtain ⟨-, done⟩ := constraint_bind done
  exact ⟨(Except.ok.inj done).symm, bound, old, orRaise_ok found⟩

theorem insertIntent_ok (done : j.insertIntent h i = .ok j') :
    j' = { j with intents := j.intents ++ [i] } ∧ j.find i.operationId = none := by
  obtain ⟨fresh, done⟩ := constraint_bind done
  obtain ⟨-, done⟩ := constraint_bind done
  obtain ⟨-, done⟩ := constraint_bind done
  obtain ⟨-, done⟩ := constraint_bind done
  exact ⟨(Except.ok.inj done).symm, Option.isNone_iff_eq_none.mp fresh⟩

theorem requireActivated_ok {n : Nat} (done : j.requireActivated n = .ok j') : j' = j := by
  obtain ⟨_, -, done⟩ := bind_ok done
  obtain ⟨-, done⟩ := constraint_bind done
  exact (Except.ok.inj done).symm

theorem beginAgain_moves {intent : AgentSigningIntent} {r : Journal × AgentSigningIntent}
    (found : j.find c.operationId = some intent)
    (done : beginAgain h j actor now c intent j.identity = .ok r) : Moves h known j r.1 := by
  obtain ⟨-, own⟩ := find_some found
  unfold beginAgain at done
  split at done
  · cases done
  · obtain ⟨-, done⟩ := conflict_bind done
    obtain ⟨-, done⟩ := conflict_bind done
    obtain rfl := Except.ok.inj done
    exact .same
  · next notCancelled notActivated =>
    have state : intent.isOpen = true := by
      cases state : intent.state with
      | pending => simp [AgentSigningIntent.isOpen, state]
      | prepared => simp [AgentSigningIntent.isOpen, state]
      | activated => exact absurd state notActivated
      | cancelled => exact absurd state notCancelled
    obtain ⟨free, done⟩ := conflict_bind done
    obtain ⟨vacant, -⟩ := Bool.and_eq_true_iff.mp free
    split at done
    · obtain ⟨j₁, updated, done⟩ := bind_ok done
      obtain ⟨j₂, required, rfl⟩ := map_ok done
      obtain rfl := requireActivated_ok required
      obtain ⟨rfl, -⟩ := updateIntent_ok updated
      exact .cancelled intent _ _ (own ▸ found) (Option.isNone_iff_eq_none.mp vacant) state
    · obtain rfl := Except.ok.inj done
      exact .same

theorem beginFirst_moves {r : Journal × AgentSigningIntent}
    (done : beginFirst h j actor now c j.identity = .ok r) :
    Moves h known j r.1 ∧ r.2 ∈ r.1.intents ∧ r.2.state = .pending := by
  obtain ⟨vacant, done⟩ := require_bind done
  obtain ⟨kind, -, done⟩ := bind_ok done
  obtain ⟨-, done⟩ := conflict_bind done
  obtain ⟨closed, done⟩ := conflict_bind done
  obtain ⟨-, done⟩ := conflict_bind done
  obtain ⟨free, done⟩ := conflict_bind done
  obtain ⟨j₁, inserted, done⟩ := bind_ok done
  obtain ⟨j₂, required, done⟩ := bind_ok done
  obtain rfl := Except.ok.inj done
  obtain rfl := requireActivated_ok required
  obtain ⟨rfl, fresh⟩ := insertIntent_ok inserted
  refine ⟨.first _ (Option.isNone_iff_eq_none.mp vacant) ?_ fresh rfl rfl ?_, ?_, rfl⟩
  · intro x mem
    simpa using List.all_eq_true.mp closed x mem
  · rintro rfl
    simpa using free
  · exact List.mem_append_right _ List.mem_cons_self

/-- An operation that is new is in the journal when the answer comes. -/
theorem beginOperation_moves {r : Journal × AgentSigningIntent × Bool}
    (done : beginOperation h j actor now c = .ok r) :
    Moves h known j r.1 ∧ (r.2.2 = true → r.2.1 ∈ r.1.intents) := by
  obtain ⟨⟨intent, identity⟩, loaded, done⟩ := bind_ok done
  obtain ⟨both, -⟩ := load_ok loaded
  obtain ⟨rfl, rfl⟩ := Prod.mk.inj both
  cases found : j.find c.operationId with
  | some intent =>
    rw [found] at done
    obtain ⟨r, again, rfl⟩ := map_ok done
    exact ⟨beginAgain_moves found again, fun new => by cases new⟩
  | none =>
    rw [found] at done
    obtain ⟨r, first, rfl⟩ := map_ok done
    obtain ⟨moves, mem, -⟩ := beginFirst_moves first
    exact ⟨moves, fun _ => mem⟩

theorem validatedAnchor_ok {pem pem' : List UInt8} {sha256 : String}
    (valid : validatedAnchor h pem sha256 = .ok pem') : pem' = pem ∧ h.sha256 pem = sha256 := by
  obtain ⟨-, valid⟩ := require_bind valid
  obtain ⟨-, valid⟩ := require_bind valid
  obtain ⟨same, valid⟩ := require_bind valid
  obtain ⟨-, valid⟩ := require_bind valid
  obtain ⟨_, -, valid⟩ := bind_ok valid
  obtain ⟨_, -, valid⟩ := bind_ok valid
  obtain ⟨_, -, valid⟩ := bind_ok valid
  exact ⟨(Except.ok.inj valid).symm, of_decide_eq_true same⟩

theorem prepare_moves {public_ : List UInt8} {r : Journal × AgentSigningIntent} (seen : known public_)
    (done : prepare h j now c public_ = .ok r) : Moves h known j r.1 := by
  obtain ⟨⟨intent, identity⟩, loaded, done⟩ := bind_ok done
  obtain ⟨both, -⟩ := load_ok loaded
  obtain ⟨rfl, rfl⟩ := Prod.mk.inj both
  obtain ⟨intent, found, done⟩ := bind_ok done
  have found := orRaise_ok found
  obtain ⟨-, own⟩ := find_some found
  obtain ⟨state, done⟩ := require_bind done
  simp only [Bool.and_eq_true, decide_eq_true_eq, Option.isNone_iff_eq_none] at state
  obtain ⟨public', valid, done⟩ := bind_ok done
  have valid := signing_ok valid
  obtain ⟨rfl, -⟩ := validatedAnchor_ok valid
  obtain ⟨expected, done⟩ := conflict_bind done
  obtain ⟨j₁, updated, done⟩ := bind_ok done
  obtain ⟨j₂, required, done⟩ := bind_ok done
  obtain rfl := Except.ok.inj done
  obtain rfl := requireActivated_ok required
  obtain ⟨rfl, -⟩ := updateIntent_ok updated
  refine .prepared intent _ _ (own ▸ found) state.1 state.2 seen valid fun adopt => ?_
  simpa [adopt] using expected

theorem insertIdentity_ok (done : j.insertIdentity h a = .ok j') :
    j' = { j with identity := some a } ∧
      ∃ i, j.find a.operationId = some i ∧ i.state = .activated ∧ a.agrees i = true := by
  obtain ⟨-, done⟩ := constraint_bind done
  obtain ⟨-, done⟩ := constraint_bind done
  obtain ⟨match_, done⟩ := constraint_bind done
  obtain ⟨i, found, both⟩ := (Option.any_eq_true _ _).mp match_
  obtain ⟨state, agrees⟩ := Bool.and_eq_true_iff.mp both
  exact ⟨(Except.ok.inj done).symm, i, found, of_decide_eq_true state, agrees⟩

theorem activatePrepared_moves {intent : AgentSigningIntent} {r : Journal × AgentSigningIntent}
    (found : j.find c.operationId = some intent) (vacant : j.identity = none)
    (state : intent.state = .prepared) (done : activatePrepared h j actor now c intent = .ok r) :
    Moves h known j r.1 ∧ r.2 ∈ r.1.intents ∧ r.2.state = .activated := by
  obtain ⟨mem, own⟩ := find_some found
  obtain ⟨j₁, updated, done⟩ := bind_ok done
  obtain ⟨pem, -, done⟩ := bind_ok done
  obtain ⟨sha256, -, done⟩ := bind_ok done
  obtain ⟨j₂, inserted, done⟩ := bind_ok done
  obtain ⟨j₃, required, done⟩ := bind_ok done
  obtain rfl := Except.ok.inj done
  obtain rfl := requireActivated_ok required
  obtain ⟨rfl, -⟩ := updateIntent_ok updated
  obtain ⟨rfl, i, there, -, agrees⟩ := insertIdentity_ok inserted
  obtain ⟨place, same⟩ := find_some there
  have new : i = { intent with state := .activated, closedAt := some now, closedBy := some actor } := by
    rcases mem_put place with new | ⟨-, other⟩
    · exact new
    · exact absurd (same.trans own.symm) other
  rw [new] at agrees
  refine ⟨.activated intent _ _ _ (own ▸ found) vacant state own.symm rfl rfl agrees, ?_, rfl⟩
  exact put_mem mem rfl

theorem activate_moves {prepared : AgentSigningIntent} {r : Journal × AgentSigningIntent}
    (done : activate h j actor now c prepared = .ok r) :
    Moves h known j r.1 ∧ r.2 ∈ r.1.intents ∧ r.2.state = .activated := by
  obtain ⟨⟨intent, identity⟩, loaded, done⟩ := bind_ok done
  obtain ⟨both, -⟩ := load_ok loaded
  obtain ⟨rfl, rfl⟩ := Prod.mk.inj both
  obtain ⟨intent, found, done⟩ := bind_ok done
  have found := orRaise_ok found
  obtain ⟨state, done⟩ := require_bind done
  obtain ⟨-, done⟩ := conflict_bind done
  split at done
  · next activated =>
    obtain ⟨_, -, rfl⟩ := map_ok done
    exact ⟨.same, (find_some found).1, activated⟩
  · next other =>
    obtain ⟨vacant, done⟩ := conflict_bind done
    refine activatePrepared_moves found (Option.isNone_iff_eq_none.mp vacant) ?_ done
    simpa [other] using state

/-! ### The invariant -/

/-- The active identity is that of its operation, and no operation is open. -/
structure ActiveOk (h : Host) (j : Journal) (a : AgentSigningIdentity) : Prop where
  format : a.formatVersion = 1
  purpose : a.purpose = "agent-release"
  valid : validatedAnchor h a.publicKeyPem a.publicKeySha256 = .ok a.publicKeyPem
  closed : ∀ i ∈ j.intents, i.isOpen = false
  intent : ∃ i ∈ j.intents, i.operationId = a.operationId ∧ i.state = .activated ∧ a.agrees i = true ∧
    (i.kind = .adopt → i.expectedPublicSha256 = some a.publicKeySha256)

structure JournalOk (h : Host) (j : Journal) : Prop where
  unique : ∀ i ∈ j.intents, ∀ i' ∈ j.intents, i.operationId = i'.operationId → i = i'
  oneOpen : ∀ i ∈ j.intents, ∀ i' ∈ j.intents, i.isOpen = true → i'.isOpen = true → i = i'
  keys : ∀ i ∈ j.intents, ∀ pem, i.publicKeyPem = some pem → ∃ sha256, i.publicKeySha256 = some sha256 ∧
    validatedAnchor h pem sha256 = .ok pem ∧ (i.kind = .adopt → i.expectedPublicSha256 = some sha256)
  activated : ∀ i ∈ j.intents, i.state = .activated → ∃ a, j.identity = some a ∧ a.agrees i = true ∧
    a.operationId = i.operationId
  active : ∀ a, j.identity = some a → ActiveOk h j a

namespace JournalOk

theorem find (good : JournalOk h j) (mem : i ∈ j.intents) : j.find i.operationId = some i := by
  cases found : j.find i.operationId with
  | none => simpa using List.find?_eq_none.mp found i mem
  | some i' =>
    obtain ⟨there, same⟩ := find_some found
    rw [good.unique i mem i' there same.symm]

theorem agrees_iff {a : AgentSigningIdentity} {i : AgentSigningIntent} : a.agrees i = true ↔
    a.installationId = i.installationId ∧ a.identityEpoch = i.identityEpoch ∧
      some a.publicKeyPem = i.publicKeyPem ∧ some a.publicKeySha256 = i.publicKeySha256 ∧
      some a.activatedBy = i.closedBy ∧ some a.activatedAt = i.closedAt := by
  simp [AgentSigningIdentity.agrees, and_assoc]

/-- What the key of an intent has to meet. -/
def KeyOk (h : Host) (i : AgentSigningIntent) : Prop :=
  ∀ pem, i.publicKeyPem = some pem → ∃ sha256, i.publicKeySha256 = some sha256 ∧
    validatedAnchor h pem sha256 = .ok pem ∧ (i.kind = .adopt → i.expectedPublicSha256 = some sha256)

theorem put_unique (good : JournalOk h j) (i : AgentSigningIntent) : ∀ x ∈ (j.put i).intents,
    ∀ y ∈ (j.put i).intents, x.operationId = y.operationId → x = y := by
  intro x memx y memy equal
  rcases mem_put memx with rfl | ⟨memx, otherx⟩
  · rcases mem_put memy with rfl | ⟨-, othery⟩
    · rfl
    · exact absurd equal.symm othery
  · rcases mem_put memy with rfl | ⟨memy, -⟩
    · exact absurd equal otherx
    · exact good.unique x memx y memy equal

/-- The intent that is put in the place of an open one is open, or none is. -/
theorem put_oneOpen (good : JournalOk h j) (there : old ∈ j.intents) (same : i.operationId = old.operationId)
    (wasOpen : old.isOpen = true) : ∀ x ∈ (j.put i).intents, x.isOpen = true → x = i := by
  intro x mem isOpen
  rcases mem_put mem with new | ⟨mem, other⟩
  · exact new
  · rw [good.oneOpen x mem old there isOpen wasOpen] at other
    exact absurd same.symm other

theorem put_keys (good : JournalOk h j) (key : KeyOk h i) : ∀ x ∈ (j.put i).intents, KeyOk h x := by
  intro x mem
  rcases mem_put mem with rfl | ⟨mem, -⟩
  · exact key
  · exact good.keys x mem

theorem vacant_activated (good : JournalOk h j) (vacant : j.identity = none) (mem : i ∈ j.intents) :
    i.state ≠ .activated := by
  intro state
  obtain ⟨a, active, -⟩ := good.activated i mem state
  cases vacant.symm.trans active

/-- An open intent is replaced by one that is not activated. -/
theorem put (good : JournalOk h j) (vacant : j.identity = none) (there : old ∈ j.intents)
    (same : i.operationId = old.operationId) (wasOpen : old.isOpen = true) (key : KeyOk h i)
    (state : i.state ≠ .activated) : JournalOk h (j.put i) where
  unique := put_unique good i
  oneOpen x memx y memy openx openy :=
    (put_oneOpen good there same wasOpen x memx openx).trans
      (put_oneOpen good there same wasOpen y memy openy).symm
  keys := put_keys good key
  activated x mem activated := by
    rcases mem_put mem with rfl | ⟨mem, -⟩
    · exact absurd activated state
    · exact absurd activated (vacant_activated good vacant mem)
  active a active := by cases vacant.symm.trans active

theorem isOpen_of (state : i.state = .pending ∨ i.state = .prepared) : i.isOpen = true := by
  simpa [AgentSigningIntent.isOpen] using state

theorem moves (good : JournalOk h j) (moves : Moves h known j j') : JournalOk h j' := by
  cases moves with
  | same => exact good
  | first i vacant closed fresh state noKey =>
    have other (x : AgentSigningIntent) (mem : x ∈ j.intents) : x.operationId ≠ i.operationId := by
      simpa using List.find?_eq_none.mp fresh x mem
    constructor
    · intro x memx y memy equal
      rcases List.mem_append.mp memx with oldx | newx
      · rcases List.mem_append.mp memy with oldy | newy
        · exact good.unique x oldx y oldy equal
        · obtain rfl := List.mem_singleton.mp newy
          exact absurd equal (other x oldx)
      · obtain rfl := List.mem_singleton.mp newx
        rcases List.mem_append.mp memy with oldy | newy
        · exact absurd equal.symm (other y oldy)
        · exact (List.mem_singleton.mp newy).symm
    · have new (x : AgentSigningIntent) (mem : x ∈ j.intents ++ [i]) (isOpen : x.isOpen = true) : x = i := by
        rcases List.mem_append.mp mem with mem | mem
        · cases (closed x mem).symm.trans isOpen
        · exact List.mem_singleton.mp mem
      intro x memx y memy openx openy
      exact (new x memx openx).trans (new y memy openy).symm
    · intro x mem pem key
      rcases List.mem_append.mp mem with mem | mem
      · exact good.keys x mem pem key
      · obtain rfl := List.mem_singleton.mp mem
        cases noKey.symm.trans key
    · intro x mem activated
      rcases List.mem_append.mp mem with mem | mem
      · exact absurd activated (vacant_activated good vacant mem)
      · obtain rfl := List.mem_singleton.mp mem
        cases state.symm.trans activated
    · intro a active
      cases vacant.symm.trans active
  | cancelled old by_ at_ found vacant state =>
    have mem := (find_some found).1
    exact put good vacant mem rfl state (good.keys old mem) (by simp)
  | prepared old public_ at_ found vacant state seen valid expected =>
    refine put good vacant (find_some found).1 rfl (isOpen_of (.inl state)) ?_ (by simp)
    intro pem key
    obtain rfl : public_ = pem := Option.some.inj key
    exact ⟨_, rfl, valid, expected⟩
  | activated old by_ at_ a found vacant state operation format purpose agrees =>
    have mem := (find_some found).1
    have key := good.keys old mem
    have lone := put_oneOpen good (i := { old with state := .activated, closedAt := at_, closedBy := by_ })
      mem rfl (isOpen_of (.inr state))
    have closed (x : AgentSigningIntent) (place : x ∈ (j.put
        { old with state := .activated, closedAt := at_, closedBy := by_ }).intents) : x.isOpen = false := by
      cases isOpen : x.isOpen with
      | false => rfl
      | true =>
        rw [lone x place isOpen] at isOpen
        cases isOpen
    obtain ⟨-, -, pem, sha256, -, -⟩ := agrees_iff.mp agrees
    obtain ⟨sha256', known, valid, expected⟩ := key a.publicKeyPem pem.symm
    obtain rfl : sha256' = a.publicKeySha256 := Option.some.inj (known.symm.trans sha256.symm)
    constructor
    · exact put_unique good _
    · intro x memx y memy openx
      cases (closed x memx).symm.trans openx
    · exact put_keys good key
    · intro x place activated
      rcases mem_put place with rfl | ⟨there, -⟩
      · exact ⟨a, rfl, agrees, operation⟩
      · exact absurd activated (vacant_activated good vacant there)
    · intro a' same
      obtain rfl := Option.some.inj same
      exact ⟨format, purpose, valid, closed, _, put_mem mem rfl, operation.symm, rfl, agrees, expected⟩

end JournalOk

theorem Moves.identity (moves : Moves h known j j') (active : j.identity = some a) : j'.identity = some a := by
  cases moves with
  | same => exact active
  | first i vacant => cases vacant.symm.trans active
  | cancelled old by_ at_ found vacant => cases vacant.symm.trans active
  | prepared old public_ at_ found vacant => cases vacant.symm.trans active
  | activated old by_ at_ a found vacant => cases vacant.symm.trans active

/-- An operation stays in the journal, with what was asked for. -/
theorem put_kept (found : j.find old.operationId = some old) (same : i'.operationId = old.operationId)
    (kind : i'.kind = old.kind) (mem : i ∈ j.intents) (good : JournalOk h j) :
    ∃ x ∈ (j.put i').intents, x.operationId = i.operationId ∧ x.kind = i.kind := by
  by_cases own : i.operationId = i'.operationId
  · have it : old = i := good.unique old (find_some found).1 i mem (same.symm.trans own.symm)
    exact ⟨i', put_mem mem own, own.symm, it ▸ kind⟩
  · exact ⟨i, put_other mem own, rfl, rfl⟩

theorem Moves.kept (moves : Moves h known j j') (good : JournalOk h j) (mem : i ∈ j.intents) :
    ∃ x ∈ j'.intents, x.operationId = i.operationId ∧ x.kind = i.kind := by
  cases moves with
  | same => exact ⟨i, mem, rfl, rfl⟩
  | first => exact ⟨i, List.mem_append_left _ mem, rfl, rfl⟩
  | cancelled old by_ at_ found => exact put_kept found rfl rfl mem good
  | prepared old public_ at_ found => exact put_kept found rfl rfl mem good
  | activated old by_ at_ a found => exact put_kept found rfl rfl mem good

theorem Moves.keys (moves : Moves h known j j')
    (before : ∀ i ∈ j.intents, ∀ pem, i.publicKeyPem = some pem → known pem) :
    ∀ i ∈ j'.intents, ∀ pem, i.publicKeyPem = some pem → known pem := by
  intro i mem pem key
  cases moves with
  | same => exact before i mem pem key
  | first x vacant closed fresh state noKey =>
    rcases List.mem_append.mp mem with old | new
    · exact before i old pem key
    · obtain rfl := List.mem_singleton.mp new
      cases noKey.symm.trans key
  | cancelled old by_ at_ found =>
    rcases mem_put mem with rfl | ⟨mem, -⟩
    · exact before old (find_some found).1 pem key
    · exact before i mem pem key
  | prepared old public_ at_ found vacant state seen =>
    rcases mem_put mem with rfl | ⟨mem, -⟩
    · exact Option.some.inj key ▸ seen
    · exact before i mem pem key
  | activated old by_ at_ a found =>
    rcases mem_put mem with rfl | ⟨mem, -⟩
    · exact before old (find_some found).1 pem key
    · exact before i mem pem key

/-- The active identity can always be used. -/
theorem trusted_ok (good : JournalOk h j) (active : j.identity = some a) : trusted h j = .ok a := by
  obtain ⟨format, purpose, valid, closed, i, mem, operation, state, agrees, -⟩ := good.active a active
  have allClosed : j.intents.all (!·.isOpen) = true :=
    List.all_eq_true.mpr fun i mem => by simp [closed i mem]
  have found : j.find a.operationId = some i := operation ▸ good.find mem
  have passed : (a.formatVersion = 1 && a.purpose = "agent-release" && j.intents.all (!·.isOpen) &&
      (j.find a.operationId).any fun i => i.state = .activated && a.agrees i) = true := by
    simp [format, purpose, allClosed, found, state, agrees]
  unfold trusted demand
  rw [active]
  refine (ok_bind (a := a) rfl).trans ?_
  rw [passed]
  exact ok_bind valid

end FreeSdn.Signing
