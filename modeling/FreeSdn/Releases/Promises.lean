import FreeSdn.Releases.Owners

/-! What an owner knows while others run, and what it therefore keeps to: it records a preparation only
while its exclusive lease has the verified payload, retires and removes only an artifact that is decided
against, and records a cleanup only when the payload is gone. -/

namespace FreeSdn.Releases

open FreeSdn.Lib FreeSdn.Artifact
open FreeSdn.Audit (Uuid)

/-- The artifacts that are decided against, those whose payload is gone for good, the lease, and the
verified payload under it. -/
structure Known where
  dead : Uuid → Prop
  gone : Uuid → Prop
  lease : Option (Intent × Bool)
  kept : List UInt8 → Prop

/-- What is decided stays decided, and what is gone stays gone. -/
structure Known.Grows (K K' : Known) : Prop where
  dead : ∀ a, K.dead a → K'.dead a
  gone : ∀ a, K.gone a → K'.gone a

/-- What others do leaves the lease alone, and the payload under it. -/
structure Known.Later (K K' : Known) : Prop extends Known.Grows K K' where
  lease : K'.lease = K.lease
  kept : ∀ data, K.kept data → K'.kept data

theorem Known.Grows.trans {K L M : Known} (first : K.Grows L) (second : L.Grows M) : K.Grows M :=
  ⟨fun a h => second.dead a (first.dead a h), fun a h => second.gone a (first.gone a h)⟩

theorem Known.Later.refl (K : Known) : K.Later K := ⟨⟨fun _ h => h, fun _ h => h⟩, rfl, fun _ h => h⟩

theorem Known.Later.trans {K L M : Known} (first : K.Later L) (second : L.Later M) : K.Later M :=
  ⟨first.toGrows.trans second.toGrows, second.lease.trans first.lease,
    fun data h => second.kept data (first.kept data h)⟩

/-- What a method of the lease tells. -/
def Told (K K' : Known) : (call : Call) → Call.Value call → Prop
  | .finish, artifact => (∃ data, K'.kept data) ∧ ∃ x, K.lease = some (artifact.intent, x)
  | .verifyPrepared, artifact => (∃ data, K'.kept data) ∧ ∃ x, K.lease = some (artifact.intent, x)
  | .cleanupRetired _, _ => ∃ i x, K.lease = some (i, x) ∧ K'.gone i.artifactId
  | _, _ => True

/-- What a wait may answer. -/
def Answers (K : Known) : (k : Wait) → k.Value → Known → Prop
  | .phase (.state _), answer, K' =>
    K.Later K' ∧ ∀ c, answer.2.decision = some c → K'.dead c.intent.artifactId
  | .phase _, _, K' => K.Later K'
  | .acquire intent exclusive _, _, K' => K.Grows K' ∧ K'.lease = some (intent, exclusive)
  | .run call, answer, K' => K.Grows K' ∧ K'.lease = K.lease ∧ Told K K' call answer
  | .sign _, _, K' => K.Later K'

/-- What an owner keeps to. -/
def Promised (K : Known) : Wait → Prop
  | .phase (.recordPrepared _ receipt) => K.lease = some (receipt.intent, true) ∧ ∃ data, K.kept data
  | .phase (.recordCleaned _ plan _ _) => plan.outcome = .retireOwned →
      ∀ c, plan.decision = some c → K.gone c.intent.artifactId
  | .run (.retire _) => ∀ i x, K.lease = some (i, x) → K.dead i.artifactId
  | .run (.cleanupRetired _) => ∀ i x, K.lease = some (i, x) → K.dead i.artifactId
  | _ => True

def knowing : Rely Wait Wait.Value Known where
  later := Known.Later
  refl := Known.Later.refl
  trans := Known.Later.trans
  may K k answer K' := Answers K k answer K'

/-- The coroutine keeps its promises, and returns as `Q` says. -/
abbrev Keeps (p : Coroutine α) (Q : α → Known → Prop) (K : Known) : Prop := knowing.Holds Promised p Q K

variable {K L M : Known} {α β : Type}

/-- What a method tells depends on the lease alone. -/
theorem Told.moved {call : Call} {value : Call.Value call} (told : Told L M call value)
    (lease : L.lease = K.lease) : Told K M call value := by
  cases call with
  | finish => exact ⟨told.1, told.2.imp fun _ held => lease ▸ held⟩
  | verifyPrepared => exact ⟨told.1, told.2.imp fun _ held => lease ▸ held⟩
  | cleanupRetired c =>
    obtain ⟨i, x, held, gone⟩ := told
    exact ⟨i, x, lease ▸ held, gone⟩
  | _ => trivial

theorem Known.Later.answers (moved : K.Later L) {k : Wait} {a : k.Value} (told : Answers L k a M) :
    Answers K k a M := by
  cases k with
  | phase p =>
    cases p with
    | state q => exact ⟨moved.trans told.1, told.2⟩
    | _ => exact moved.trans told
  | acquire intent exclusive create =>
    obtain ⟨grows, lease⟩ := told
    exact ⟨moved.toGrows.trans grows, lease⟩
  | run call =>
    obtain ⟨grows, lease, told⟩ := told
    exact ⟨moved.toGrows.trans grows, lease.trans moved.lease, told.moved moved.lease⟩
  | sign q => exact moved.trans told

/-- A wait whose promise stays kept goes on from what its answer tells. -/
theorem keeps_wait {k : Wait} {f : k.Value → Coroutine β} {Q : β → Known → Prop}
    (kept : ∀ L, K.Later L → Promised L k) (rest : ∀ a L, Answers K k a L → Keeps (f a) Q L) :
    Keeps (await k >>= f) Q K :=
  Rely.Holds.waiting fun _ moved => ⟨kept _ moved, fun a M told => rest a M (moved.answers told)⟩

/-- The last wait. -/
theorem keeps_last {k : Wait} {Q : k.Value → Known → Prop} (kept : ∀ L, K.Later L → Promised L k)
    (rest : ∀ a L M, Answers K k a L → L.Later M → Q a M) : Keeps (await k) Q K := by
  intro L moved
  refine ⟨kept L moved, fun r M told N more a same => ?_⟩
  exact rest a M N (moved.answers (told a same)) more

/-! ### Preparation and publication -/

variable (d : Deployment) {lease : Option (Intent × Bool)}

theorem uploadBody_keeps (q : PublicationRequest) (chunks : List (List UInt8)) (held : K.lease = lease) :
    Keeps (uploadBody q chunks) (fun _ L => L.lease = lease) K := by
  induction chunks generalizing K with
  | nil => exact Rely.Holds.pure fun L moved => moved.lease.trans held
  | cons chunk chunks ih =>
    unfold uploadBody
    refine Rely.Holds.lifting fun _ _ => ?_
    split
    · exact ih held
    · refine keeps_wait (fun _ _ => trivial) fun _ L moved => ?_
      refine keeps_wait (fun _ _ => trivial) fun _ M told => ?_
      exact ih (told.2.1.trans (moved.lease.trans held))

/-- The lease has verified the payload of the artifact. -/
def Holding (artifact : PreparedArtifact) (K : Known) : Prop :=
  K.lease = some (artifact.intent, true) ∧ ∃ data, K.kept data

theorem Holding.later {artifact : PreparedArtifact} (holding : Holding artifact K) (moved : K.Later L) :
    Holding artifact L := by
  obtain ⟨held, data, kept⟩ := holding
  exact ⟨moved.lease.trans held, data, moved.kept data kept⟩

/-- `finish` and `verify_prepared` return what the lease holds. -/
theorem holding {artifact : PreparedArtifact} {i : Intent} (held : K.lease = some (i, true))
    (lease : L.lease = K.lease)
    (told : (∃ data, L.kept data) ∧ ∃ x, K.lease = some (artifact.intent, x)) : Holding artifact L := by
  obtain ⟨kept, x, own⟩ := told
  obtain ⟨rfl, rfl⟩ := Prod.mk.inj (Option.some.inj (held.symm.trans own))
  exact ⟨lease.trans held, kept⟩

theorem prepareBytes_keeps (q : PublicationRequest) (source : Option (List (List UInt8))) {i : Intent}
    (held : K.lease = some (i, true)) : Keeps (prepareBytes q source) Holding K := by
  cases source with
  | none =>
    refine keeps_last (fun _ _ => trivial) fun receipt L M told moved => ?_
    exact (holding held told.2.1 told.2.2).later moved
  | some chunks =>
    refine keeps_wait (fun _ _ => trivial) fun _ L told => ?_
    refine Rely.Holds.bind (Rely.Holds.mono (uploadBody_keeps q chunks (told.2.1.trans held)) ?_)
    intro _ M held
    refine keeps_wait (fun _ _ => trivial) fun _ N moved => ?_
    have held := moved.lease.trans held
    refine keeps_last (fun _ _ => trivial) fun receipt L M told moved => ?_
    exact (holding held told.2.1 told.2.2).later moved

theorem prepareUnderOwner_keeps (q : PublicationRequest) (source : Option (List (List UInt8))) :
    Keeps (prepareUnderOwner d q source) (fun _ _ => True) K := by
  refine keeps_wait (fun _ _ => trivial) fun row L _ => ?_
  refine Rely.Holds.lifting fun _ _ => ?_
  refine keeps_wait (fun _ _ => trivial) fun _ L opened => ?_
  refine keeps_wait (fun _ _ => trivial) fun _ M moved => ?_
  refine Rely.Holds.bind (Rely.Holds.mono (prepareBytes_keeps q source (moved.lease.trans opened.2)) ?_)
  intro receipt N holding
  exact keeps_last (fun L moved => holding.later moved) fun _ _ _ _ _ => trivial

theorem executePreparation_keeps (q : PublicationRequest) (source : Option (List (List UInt8))) :
    Keeps (executePreparation d q source) (fun _ _ => True) K := by
  refine Rely.Holds.lifting fun _ _ => ?_
  cases source with
  | none => exact Rely.Holds.refusing (prepareUnderOwner_keeps d q none)
  | some chunks =>
    refine keeps_wait (fun _ _ => trivial) fun _ L _ => ?_
    exact Rely.Holds.refusing (prepareUnderOwner_keeps d q (some chunks))

theorem verifyOwned_keeps (q : PublicationRequest) :
    Keeps (verifyOwned d q) (fun _ _ => True) K := by
  unfold verifyOwned
  split
  · refine keeps_wait (fun _ _ => trivial) fun _ L opened => ?_
    refine keeps_wait (fun _ _ => trivial) fun _ M moved => ?_
    refine keeps_wait (fun _ _ => trivial) fun receipt N told => ?_
    have holding := holding (moved.lease.trans opened.2) told.2.1 told.2.2
    refine keeps_wait (fun L moved => holding.later moved) fun _ L _ => ?_
    exact Rely.Holds.pure fun _ _ => trivial
  · exact Rely.Holds.pure fun _ _ => trivial

theorem publishPending_keeps (q : PublicationRequest) :
    Keeps (publishPending d q) (fun _ _ => True) K := by
  refine Rely.Holds.bind (Rely.Holds.mono (verifyOwned_keeps d q) fun prepared M _ => ?_)
  refine keeps_wait (fun _ _ => trivial) fun signed N _ => ?_
  obtain ⟨signature, identity⟩ := signed
  exact keeps_last (fun _ _ => trivial) fun _ _ _ _ _ => trivial

theorem publishReserved_keeps (q : PublicationRequest) :
    Keeps (publishReserved d q) (fun _ _ => True) K := by
  refine keeps_wait (fun _ _ => trivial) fun found L _ => ?_
  obtain ⟨row, release⟩ := found
  dsimp only
  split
  · exact Rely.Holds.pure fun _ _ => trivial
  · exact Rely.Holds.refusing (publishPending_keeps d q)

theorem executePublication_keeps (q : PublicationRequest) :
    Keeps (executePublication d q) (fun _ _ => True) K := by
  unfold executePublication
  split
  · exact keeps_wait (fun _ _ => trivial) fun _ L _ => publishReserved_keeps d q
  · exact publishReserved_keeps d q

/-! ### Cleanup -/

/-- The lease is on an artifact that is decided against. -/
def Doomed (c : CleanupDecision) (K : Known) : Prop :=
  K.lease = some (c.intent, true) ∧ K.dead c.intent.artifactId

variable {c : CleanupDecision}

theorem Doomed.grows (doomed : Doomed c K) (grows : K.Grows L) (lease : L.lease = K.lease) : Doomed c L :=
  ⟨lease.trans doomed.1, grows.dead _ doomed.2⟩

theorem Doomed.later (doomed : Doomed c K) (moved : K.Later L) : Doomed c L :=
  doomed.grows moved.toGrows moved.lease

theorem Doomed.dead (doomed : Doomed c K) {i : Intent} {x : Bool} (held : K.lease = some (i, x)) :
    K.dead i.artifactId := by
  obtain ⟨rfl, -⟩ := Prod.mk.inj (Option.some.inj (doomed.1.symm.trans held))
  exact doomed.2

theorem samePlan_keeps (q : CleanupRequest) (plan : Plan) (doomed : Doomed c K) :
    Keeps (samePlan q plan) (fun _ => Doomed c) K := by
  refine keeps_wait (fun _ _ => trivial) fun found L told => ?_
  refine Rely.Holds.lift fun _ _ M moved => ?_
  exact (doomed.later told.1).later moved

theorem retireArtifact_keeps (q : CleanupRequest) {plan : Plan} (decided : plan.decision = some c)
    (dead : K.dead c.intent.artifactId) : Keeps (retireArtifact q plan c) (fun _ _ => True) K := by
  refine keeps_wait (fun _ _ => trivial) fun _ L opened => ?_
  have doomed : Doomed c L := ⟨opened.2, opened.1.dead _ dead⟩
  refine Rely.Holds.bind (Rely.Holds.mono (samePlan_keeps q plan doomed) fun _ L doomed => ?_)
  refine keeps_wait (fun M moved _ _ => (doomed.later moved).dead) fun retirement M told => ?_
  have doomed := doomed.grows told.1 told.2.1
  refine Rely.Holds.bind (Rely.Holds.mono (samePlan_keeps q plan doomed) fun _ L doomed => ?_)
  refine keeps_wait (fun M moved _ _ => (doomed.later moved).dead) fun receipt M told => ?_
  obtain ⟨-, -, i, x, held, gone⟩ := told
  obtain ⟨rfl, -⟩ := Prod.mk.inj (Option.some.inj (doomed.1.symm.trans held))
  refine keeps_last (fun N moved _ other same => ?_) fun _ _ _ _ _ => trivial
  obtain rfl := Option.some.inj (decided.symm.trans same)
  exact moved.gone _ gone

theorem cleanupUnderOwner_keeps (q : CleanupRequest) (root : Bool) :
    Keeps (cleanupUnderOwner q root) (fun _ _ => True) K := by
  refine keeps_wait (fun _ _ => trivial) fun found L told => ?_
  obtain ⟨row, plan⟩ := found
  dsimp only
  split
  · refine Rely.Holds.lifting fun c chosen => ?_
    have decided : plan.decision = some c := by
      have chosen : (if root then plan.decision else none) = some c := orRaise_ok chosen
      cases root with
      | true => exact chosen
      | false => cases chosen
    exact Rely.Holds.refusing (retireArtifact_keeps q decided (told.2 c decided))
  · next other =>
    refine Rely.Holds.lifting fun _ _ => ?_
    split
    · exact Rely.Holds.pure fun _ _ => trivial
    · exact keeps_last (fun _ _ retire => absurd retire other) fun _ _ _ _ _ => trivial

/-! ### All tasks -/

theorem readPieces_keeps (reads : List (Int × Int)) : Keeps (readPieces reads) (fun _ _ => True) K := by
  induction reads generalizing K with
  | nil => exact Rely.Holds.pure fun _ _ => trivial
  | cons piece reads ih => exact keeps_wait (fun _ _ => trivial) fun _ L _ => ih

theorem deliver_keeps (intent : Intent) (reads : List (Int × Int)) :
    Keeps (deliver intent reads) (fun _ _ => True) K := by
  refine keeps_wait (fun _ _ => trivial) fun _ L _ => ?_
  exact keeps_wait (fun _ _ => trivial) fun _ L _ => readPieces_keeps reads

/-- Every coroutine keeps its promises, whatever the others do. -/
theorem script_keeps (task : Task) : Keeps (task.script d) (fun _ _ => True) K := by
  cases task with
  | preparation q source =>
    refine Rely.Holds.bind (Rely.Holds.mono (executePreparation_keeps d q source) fun _ _ _ => ?_)
    exact Rely.Holds.pure fun _ _ => trivial
  | publication q =>
    refine Rely.Holds.bind (Rely.Holds.mono (executePublication_keeps d q) fun _ _ _ => ?_)
    exact Rely.Holds.pure fun _ _ => trivial
  | cleanup q root =>
    refine Rely.Holds.bind (Rely.Holds.mono (cleanupUnderOwner_keeps q root) fun _ _ _ => ?_)
    exact Rely.Holds.pure fun _ _ => trivial
  | managedCleanup q =>
    refine Rely.Holds.bind ?_
    refine keeps_wait (fun _ _ => trivial) fun found L _ => ?_
    obtain ⟨row, plan⟩ := found
    refine Rely.Holds.mono (cleanupUnderOwner_keeps q _) fun _ _ _ => ?_
    exact Rely.Holds.pure fun _ _ => trivial
  | delivery intent reads =>
    refine Rely.Holds.bind (Rely.Holds.mono (deliver_keeps intent reads) fun _ _ _ => ?_)
    exact Rely.Holds.pure fun _ _ => trivial

end FreeSdn.Releases
