import FreeSdn.Lib.JsonText
import FreeSdn.Hypervisor.Submissions
import Mathlib.Data.Nat.Pairing

/-! Request identifiers are idempotency keys: one row and one dispatch for each, a conflict for every
call that asks for something else, and the same row reported to every call that asks for the same. -/

namespace FreeSdn.Hypervisor

open FreeSdn.Lib FreeSdn.Staging

variable {set : Setting} {d₀ d : Desk} {es : List Event}

/-! ### Secrets -/

/-- `decrypt_credential` inverts `encrypt_credential`, and no token is empty. -/
structure Vault.Lawful (vault : Vault) : Prop where
  opens : ∀ noise doc, vault.opened (vault.sealed noise doc) = some doc
  nonempty : ∀ noise doc, vault.sealed noise doc ≠ ""

/-- A password that the request schema admits, whose token fits its column. -/
structure Admissible (vault : Vault) (noise : Nat) (id : Uuid) (secret : String) : Prop where
  short : secret.toList.length ≤ 128
  clean : Char.ofNat 0 ∉ secret.toList
  fits : (vault.sealed noise (envelope "password" id secret)).toList.length ≤ 4096

/-- A sealed password opens again, whatever the chance in its token. -/
theorem password_sealed {vault : Vault} (lawful : vault.Lawful) {noise : Nat} {id : Uuid}
    {secret : String} (ok : Admissible vault noise id secret) {plan : Dict}
    (stored : get plan "password" = some (sealedPassword vault noise id secret)) :
    password vault id plan = some secret := by
  have read : openSecret vault id "password" 4096 (sealedPassword vault noise id secret) =
      some secret := by
    by_cases empty : secret = ""
    · simp [sealedPassword, openSecret, empty]
    · rw [sealedPassword, if_neg empty, openSecret, if_neg (Nat.not_lt.mpr ok.fits),
        if_neg (lawful.nonempty _ _), lawful.opens, envelope]
      simp
  rw [password, stored, Option.getD_some, read]
  simp [Option.filter, ok.short, ok.clean]

/-- Two creation payloads with sealed passwords compare equal exactly when their plans and their
passwords are equal. -/
theorem samePayload_sealed {vault : Vault} (lawful : vault.Lawful) {c : PendingChange}
    {proposed : Dict} {n m : Nat} {a b : String} (creation : c.feature ∈ Creation.features)
    (old : get c.payload "password" = some (sealedPassword vault n c.id a))
    (new : get proposed "password" = some (sealedPassword vault m c.id b))
    (ha : Admissible vault n c.id a) (hb : Admissible vault m c.id b) :
    samePayload vault c proposed = true ↔
      without "password" c.payload = without "password" proposed ∧ a = b := by
  have certificate : c.feature ∉ Certificate.features := by
    intro both
    simp only [Creation.features, Certificate.features, List.mem_cons, List.not_mem_nil,
      or_false] at creation both
    rcases creation with h | h <;> simp [h] at both
  rw [samePayload, if_neg certificate, if_neg (not_not.mpr creation), sameSealed,
    password_sealed lawful ha old, password_sealed lawful hb new]
  simp

/-! ### Idempotency -/

/-- Rows that the keys allow, and nobody at work. -/
structure Idle (set : Setting) (d : Desk) : Prop where
  rows : Table.Unique d.world.rows
  registered : Registered set d.world.rows
  calls : d.world.calls = []
  submissions : d.submissions = []

theorem Idle.sound (idle : Idle set d) : Sound set d [] d := by
  obtain ⟨rows, registered, calls, submissions⟩ := idle
  refine ⟨consistent_idle rows calls, ?_, registered, ?_, ?_, ?_, ?_⟩
  · rw [submissions]
    exact Table.unique_nil
  · simp [submissions]
  · simp [calls]
  · simp [dispatchesBy]
  · simp [submissions]

theorem sound_run (injective : set.Injective) (idle : Idle set d₀)
    (run : Runs (step set) (Derived set) d₀ es d) : Sound set d₀ es d := by
  induction run with
  | nil => exact idle.sound
  | snoc prior ok next ih => exact ih.step injective prior ok next

theorem spent_run (injective : set.Injective) (idle : Idle set d₀)
    (run : Runs (step set) (Derived set) d₀ es d) (x : Uuid) :
    Spent x (dispatches x es) d.world := by
  induction run with
  | nil => exact spent_idle x idle.calls
  | snoc prior ok next spent =>
    rw [dispatches_snoc]
    rcases step_world next with ⟨same, quiet⟩ | ⟨e', inner, move⟩
    · rw [same, quiet x]
      exact spent
    · rw [← inner.invokes x]
      exact spent.step (sound_run injective idle prior).world move

/-- What a call with the stored row `r` under its key answers, in a run from `d₀`. -/
structure Answered (set : Setting) (d₀ : Desk) (es : List Event) (s : Submission)
    (r : PendingChange) : Prop where
  differs : s.sameIntent set.vault r = false → dispatchesBy s.id es = 0 ∧
    ∀ a, s.stage = .done a → a = .conflicted requestTaken ∨ a = .broken ∨
      (a = .integrity ∧ s.request.sees r.organizationId r.siteId = false) ∨
      ∃ error, a = .refused error ∧ InsertRefused set d₀ es s error
  agrees : s.sameIntent set.vault r = true → ∀ a, s.stage = .done a →
    (∃ status, a = .report r.id status) ∨ a = .broken ∨
      dispatchesBy s.id es = 0 ∧
        ((∃ error, a = .refused error ∧ InsertRefused set d₀ es s error) ∨
        ∃ error, a = .reraised error ∧ ClaimRefused set d₀ es s error ∧
          RereadPending set d₀ es s)

/-- The comparison with the stored row has one result. -/
theorem Sound.compared (sound : Sound set d₀ es d) {s : Submission} {r : PendingChange} {a b : Bool}
    (stored : r ∈ d.world.rows) (id : r.id = s.key) (here : s.sameIntent set.vault r = a)
    (told : Compared set d.world s b) : a = b := by
  obtain ⟨r', stored', id', there⟩ := told
  obtain rfl := sound.world.row stored' stored (id'.trans id.symm)
  exact here.symm.trans there

theorem Sound.silent (sound : Sound set d₀ es d) {s : Submission} (mem : s ∈ d.submissions)
    {r : PendingChange} (stored : r ∈ d.world.rows) (id : r.id = s.key)
    (differs : s.sameIntent set.vault r = false) : dispatchesBy s.id es = 0 := by
  have never {P : Prop} (told : Compared set d.world s true) : P :=
    absurd (sound.compared stored id differs told) (by simp)
  have told := sound.told s mem
  unfold Told at told
  split at told
  · exact told
  · exact told.1
  · exact told.1
  · exact told.1
  · exact never told
  · exact never told.1
  · exact never told.1
  · exact told.1
  · exact never told.1
  · exact told.1
  · exact told.1
  · exact told.1
  · exact told.1
  · exact told.elim
  · exact told.elim (fun h => h) never

theorem Sound.answered (sound : Sound set d₀ es d) {s : Submission} (mem : s ∈ d.submissions)
    {r : PendingChange} (stored : r ∈ d.world.rows) (id : r.id = s.key) :
    Answered set d₀ es s r := by
  have told := sound.told s mem
  have hides (hidden : Hidden d.world s) : s.request.sees r.organizationId r.siteId = false := by
    obtain ⟨r', stored', id', hidden⟩ := hidden
    obtain rfl := sound.world.row stored' stored (id'.trans id.symm)
    exact hidden
  constructor
  · intro differs
    refine ⟨sound.silent mem stored id differs, ?_⟩
    have never (told : Compared set d.world s true) : False := by
      simpa using sound.compared stored id differs told
    intro a done
    simp only [Told, done] at told
    cases a with
    | report => exact (never told.1).elim
    | refused e =>
      exact .inr (.inr (.inr ⟨e, rfl, told.2⟩))
    | conflicted e => exact .inl (congrArg _ told.2.2)
    | reraised => exact (never told.2.1).elim
    | failed => exact told.elim
    | integrity => exact .inr (.inr (.inl ⟨rfl, hides told.2⟩))
    | broken => exact .inr (.inl rfl)
  · intro agrees a done
    simp only [Told, done] at told
    cases a with
    | report x status =>
      obtain ⟨-, rfl⟩ := told
      exact .inl ⟨status, by rw [id]⟩
    | refused e =>
      exact .inr (.inr ⟨told.1, .inl ⟨e, rfl, told.2⟩⟩)
    | conflicted => exact absurd (sound.compared stored id agrees told.2.1) (by simp)
    | reraised e =>
      obtain ⟨silent, -, refused, pending⟩ := told
      exact .inr (.inr ⟨silent, .inr ⟨e, rfl, refused, pending⟩⟩)
    | failed => exact told.elim
    | integrity =>
      have seen := sound.sees mem stored id agrees
      rw [hides told.2] at seen
      simp at seen
    | broken => exact .inr (.inl rfl)

/-- A request identifier has one row and one dispatch.  A call that asks for something else than the
row dispatches nothing and is answered with the conflict once it sees the row; a call that asks for
the same reports the row, unless its insert was refused, or its claim was and it then found the row
still pending; in both cases it dispatches nothing.  Passwords are compared as they were typed. -/
theorem request_identifier_idempotent (set : Setting) (injective : set.Injective)
    (lawful : set.vault.Lawful) {d₀ d : Desk} {es : List Event} (idle : Idle set d₀)
    (run : Runs (step set) (Derived set) d₀ es d) :
    (∀ x, (∀ r ∈ d.world.rows, ∀ r' ∈ d.world.rows, r.id = x → r'.id = x → r = r') ∧
      dispatches x es ≤ 1) ∧
    (∀ s ∈ d.submissions, s.key = set.uuid5 s.organization s.request.actorId s.request.requestId ∧
      ∀ r ∈ d.world.rows, r.id = s.key → Answered set d₀ es s r) ∧
    ∀ (c : PendingChange) (proposed : Dict) (n m : Nat) (a b : String),
      c.feature ∈ Creation.features →
      get c.payload "password" = some (sealedPassword set.vault n c.id a) →
      get proposed "password" = some (sealedPassword set.vault m c.id b) →
      Admissible set.vault n c.id a → Admissible set.vault m c.id b →
      (samePayload set.vault c proposed = true ↔
        without "password" c.payload = without "password" proposed ∧ a = b) := by
  have sound := sound_run injective idle run
  refine ⟨?_, ?_, ?_⟩
  · intro x
    refine ⟨fun r mem r' mem' id id' => sound.world.row mem mem' (id.trans id'.symm), ?_⟩
    exact (spent_run injective idle run x).once
  · intro s mem
    exact ⟨(sound.keyed s mem).1, fun r stored id => sound.answered mem stored id⟩
  · intro c proposed n m a b creation old new ha hb
    exact samePayload_sealed lawful creation old new ha hb

/-! ### Small runs -/

/-- A vault whose tokens are the documents behind a character drawn by chance. -/
def plainVault : Vault where
  sealed noise doc := String.ofList ((if noise % 2 = 0 then 'a' else 'b') :: doc.dumps)
  opened token := match token.toList with
    | _ :: text => Json.loads text
    | [] => none

theorem plainVault_lawful : plainVault.Lawful := by
  constructor
  · intro noise doc
    simp [plainVault, Json.loads_dumps]
  · intro noise doc same
    have none := congrArg String.toList same
    simp [plainVault] at none

def plainSetting : Setting :=
  ⟨plainEnv, plainVault, fun organization actor request =>
    Nat.pair organization (Nat.pair actor request)⟩

theorem plainSetting_injective : plainSetting.Injective := by
  intro o a q o' a' q' same
  obtain ⟨rfl, rest⟩ := Nat.pair_eq_pair.mp same
  obtain ⟨rfl, rfl⟩ := Nat.pair_eq_pair.mp rest
  exact ⟨rfl, rfl, rfl⟩

/-- An operator starts a guest, under request identifier 5. -/
def startGuest (vmid : Int) : Request :=
  { isScoped := false, siteAdmin := true, superuser := false, organizationId := some 1
    granted := none, actorId := 4, readOnly := false, force := true, confirmed := false
    requestId := 5, controllerId := 2, target := some (1, 3), vmType := "qemu", node := "pve"
    vmid := vmid, action := "start", feature := none, operation := "create", targetId := none
    options := [] }

/-- The conversion to a template, not confirmed. -/
def convertGuest : Request :=
  { startGuest 100 with
    action := "template", feature := some "proxmox.vm.convert_to_template"
    options := [("guest_change_version", .int 1)] }

def emptyDesk : Desk := ⟨World.empty, []⟩

theorem emptyDesk_idle (set : Setting) : Idle set emptyDesk :=
  ⟨Table.unique_nil, by simp [Registered, emptyDesk, World.empty], rfl, rfl⟩

/-- No other caller stages anything. -/
def Alone (_ : Desk) : Event → Bool
  | .staging (.stage ..) => false
  | _ => true

theorem alone_derived (set : Setting) (d : Desk) (e : Event) (alone : Alone d e) :
    Derived set d e := by
  cases e with
  | staging e =>
    cases e with
    | stage => simp [Alone] at alone
    | _ => trivial
  | _ => trivial

/-- Two calls race to start one guest, and a third wants another one. -/
def racingStarts : List Event :=
  [.submit 0 (startGuest 100), .submit 1 (startGuest 100), .insert 0 0, .insert 1 0,
   .reread 0, .reread 1, .submit 2 (startGuest 101), .claim 0 true 1, .claim 1 true 1,
   .staging (.invoke 0 (Nat.pair 1 (Nat.pair 4 5))), .staging (.answer 0 startAnswer 2),
   .staging (.commit 0 .acknowledged 3), .reread 0, .reload 1]

def raced : Desk := after (step plainSetting) (fun d e => Alone d e) emptyDesk racingStarts

example : raced.submissions.map (·.stage) =
    [.done (.report (Nat.pair 1 (Nat.pair 4 5)) .applied),
      .done (.report (Nat.pair 1 (Nat.pair 4 5)) .applied),
      .done (.conflicted requestTaken)] := by decide

theorem racingStarts_idempotent :
    dispatches (Nat.pair 1 (Nat.pair 4 5)) racingStarts ≤ 1 ∧
      ∀ s ∈ raced.submissions, ∀ r ∈ raced.world.rows, r.id = s.key →
        Answered plainSetting emptyDesk racingStarts s r := by
  have run : Runs (step plainSetting) (fun d e => Alone d e) emptyDesk racingStarts raced :=
    Runs.to_after (by decide)
  obtain ⟨once, answered, -⟩ := request_identifier_idempotent plainSetting plainSetting_injective
    plainVault_lawful (emptyDesk_idle _) (run.mono (alone_derived plainSetting))
  exact ⟨(once _).2, fun s mem => (answered s mem).2⟩

/-- The claim of an unconfirmed conversion is refused, and the row stays pending. -/
def unconfirmedConversion : List Event :=
  [.submit 0 convertGuest, .insert 0 0, .reread 0, .claim 0 true 1, .reload 0]

/-- The call raised the refusal of its claim, with this status. -/
def reraises (stage : Stage) (status : Nat) : Bool :=
  match stage with
  | .done (.reraised error) => error.status == status
  | _ => false

theorem reraises_stage {stage : Stage} {status : Nat} (h : reraises stage status) :
    ∃ error, stage = .done (.reraised error) := by
  unfold reraises at h
  split at h
  · exact ⟨_, rfl⟩
  · simp at h

/-- The call asks for what its row says, and does not report the row. -/
theorem unconfirmed_conversion_not_reported :
    ¬ ∀ (es : List Event) (d : Desk), Runs (step plainSetting) (Derived plainSetting) emptyDesk es d →
      ∀ s ∈ d.submissions, ∀ r ∈ d.world.rows, r.id = s.key →
        s.sameIntent plainSetting.vault r = true → ∀ a, s.stage = .done a →
          ∃ status, a = .report r.id status := by
  intro claim
  let d := after (step plainSetting) (fun d e => Alone d e) emptyDesk unconfirmedConversion
  have run : Runs (step plainSetting) (fun d e => Alone d e) emptyDesk unconfirmedConversion d :=
    Runs.to_after (by decide)
  have all := claim _ _ (run.mono (alone_derived plainSetting))
  have stuck : ∃ s ∈ d.submissions, ∃ r ∈ d.world.rows, r.id = s.key ∧
      s.sameIntent plainSetting.vault r = true ∧ reraises s.stage 409 = true := by decide
  obtain ⟨s, mem, r, stored, id, same, stage⟩ := stuck
  obtain ⟨error, done⟩ := reraises_stage stage
  obtain ⟨status, report⟩ := all s mem r stored id same _ done
  simp at report

end FreeSdn.Hypervisor
