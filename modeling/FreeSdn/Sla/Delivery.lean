import FreeSdn.Lib.OrderBy
import FreeSdn.Lib.Run
import FreeSdn.Lib.Table
import Mathlib.Data.Prod.Lex

/-! Report notices (`services/sla_report_delivery.py`, `services/sla_report_mail.py`): the outbox rows,
the two transactions of `process_one` with the mail between them, and the system of any number of
workers.  A transaction takes effect when it commits; the rows that it changes are locked until
then, and the rows that other transactions hold are skipped. -/

namespace FreeSdn.Sla

open FreeSdn.Lib

/-- A UUID, as the number it writes. -/
abbrev Uuid := Nat

/-- Microseconds since the epoch. -/
abbrev Time := Int

def minutes (n : Nat) : Time := n * 60000000

/-! ### The mail -/

inductive MailState
  | accepted | retry | failed | unknown
  deriving DecidableEq, Repr

structure MailOutcome where
  state : MailState
  errorCode : Option String
  deriving DecidableEq, Repr

/-- What `_send` may catch. -/
inductive SmtpFault
  | recipientsRefused (code : Int)
  | response (code : Int)
  | certificate
  /-- `ValueError` or `SMTPNotSupportedError`. -/
  | configuration
  | other
  deriving DecidableEq, Repr

/-- How far `_send` came with the server: the provider does not require TLS, something raised before
`send_message`, or `send_message` was called.  It raised, or returned the code of a refusal, if any;
`took` says whether the server accepted the message, acknowledged or not. -/
inductive Exchange
  | insecure
  | unsent (fault : SmtpFault)
  | submitted (reply : Except SmtpFault (Option Int)) (took : Bool)

/-- `_refused`. -/
def refused (code : Int) : MailOutcome :=
  ⟨if 400 ≤ code ∧ code < 500 then .retry else .failed, some "smtp_refused"⟩

/-- The handlers of `_send`. -/
def caught (submitting : Bool) : SmtpFault → MailOutcome
  | .recipientsRefused code => refused code
  | .response code => refused code
  | .certificate => ⟨.failed, some "smtp_certificate_invalid"⟩
  | .configuration => ⟨.failed, some "smtp_configuration_invalid"⟩
  | .other => ⟨if submitting then .unknown else .retry, some "smtp_connection_interrupted"⟩

/-- `_send`. -/
def send : Exchange → MailOutcome
  | .insecure => ⟨.failed, some "verified_tls_required"⟩
  | .unsent fault => caught false fault
  | .submitted (.error fault) _ => caught true fault
  | .submitted (.ok (some code)) _ => refused code
  | .submitted (.ok none) _ => ⟨.accepted, none⟩

/-- One call of `send_notice`: the thread goes on when the deadline passes. -/
structure Transmission where
  exchange : Exchange
  inTime : Bool

/-- `send_notice`. -/
def sendNotice (t : Transmission) : MailOutcome :=
  if t.inTime then send t.exchange else ⟨.unknown, some "smtp_deadline_exceeded"⟩

/-- The server accepted the message. -/
def Exchange.took : Exchange → Bool
  | .submitted _ took => took
  | _ => false

/-- A refusal by the server, which `smtplib` raises or returns, means that it did not accept. -/
def Exchange.Refuses : Exchange → Prop
  | .submitted (.error (.recipientsRefused _)) took => took = false
  | .submitted (.error (.response _)) took => took = false
  | .submitted (.ok (some _)) took => took = false
  | _ => True

/-- A retry means that the server did not accept the message: a lost acknowledgement is unknown. -/
theorem retry_not_taken {t : Transmission} (refuses : t.exchange.Refuses)
    (retry : (sendNotice t).state = .retry) : t.exchange.took = false := by
  obtain ⟨exchange, inTime⟩ := t
  cases inTime with
  | false => simp [sendNotice] at retry
  | true =>
    cases exchange with
    | insecure => rfl
    | unsent => rfl
    | submitted reply took =>
      rcases reply with fault | code
      · cases fault with
        | recipientsRefused | response => exact refuses
        | certificate | configuration | other => simp [sendNotice, send, caught] at retry
      · cases code with
        | none => simp [sendNotice, send] at retry
        | some => exact refuses

/-! ### The outbox -/

inductive DeliveryState
  | pending | retry | sending | accepted | failed | cancelled | unknown | skipped
  deriving DecidableEq, Repr

structure SLAReportDelivery where
  id : Uuid
  recipientEmail : String
  deliveryEpoch : Option Uuid
  state : DeliveryState
  attempts : Nat
  errorCode : Option String
  nextAttemptAt : Time
  leaseExpiresAt : Option Time
  acceptedAt : Option Time
  createdAt : Time
  deriving DecidableEq, Repr

instance : Keyed SLAReportDelivery Uuid := ⟨SLAReportDelivery.id⟩

@[simp] theorem key_delivery (r : SLAReportDelivery) : Keyed.key r = r.id := rfl

/-- The row that `enqueue_notices` adds. -/
def newDelivery (id : Uuid) (recipientEmail : String) (epoch : Option Uuid) (now : Time) :
    SLAReportDelivery :=
  { id := id, recipientEmail := recipientEmail, deliveryEpoch := epoch, state := .pending
    attempts := 0, errorCode := none, nextAttemptAt := now, leaseExpiresAt := none
    acceptedAt := none, createdAt := now }

/-- Waiting for a worker. -/
def SLAReportDelivery.isOpen (r : SLAReportDelivery) : Bool := r.state = .pending || r.state = .retry

/-- Rows that another transaction holds while each query of `process_one` runs. -/
structure Busy where
  untrusted : List Uuid
  interrupted : List Uuid
  due : List Uuid

/-- `SELECT ... ORDER BY key, id LIMIT limit FOR UPDATE SKIP LOCKED`. -/
def select (key : SLAReportDelivery → Time) (condition : SLAReportDelivery → Bool) (busy : List Uuid)
    (limit : Nat) (rows : List SLAReportDelivery) : List SLAReportDelivery :=
  (orderBy (fun r => toLex (key r, r.id))
    (rows.filter fun r => condition r && decide (r.id ∉ busy))).take limit

/-- A live row that the configured epoch does not vouch for. -/
def isUntrusted (epoch : Option Uuid) (r : SLAReportDelivery) : Bool :=
  (r.isOpen || r.state = .sending) && epoch.all fun e => decide (r.deliveryEpoch ≠ some e)

/-- A claim whose lease has run out. -/
def isInterrupted (epoch : Uuid) (now : Time) (r : SLAReportDelivery) : Bool :=
  r.state = .sending && decide (r.deliveryEpoch = some epoch) &&
    r.leaseExpiresAt.any fun lease => decide (lease ≤ now)

def isDue (epoch : Uuid) (now : Time) (r : SLAReportDelivery) : Bool :=
  r.isOpen && decide (r.deliveryEpoch = some epoch) && decide (r.nextAttemptAt ≤ now)

/-- The outcome of the row needs a review: it may have been sent. -/
def markUnknown (code : String) (r : SLAReportDelivery) : SLAReportDelivery :=
  { r with state := .unknown, errorCode := some code, leaseExpiresAt := none }

/-- The rows, with the picked ones marked. -/
def markAll (code : String) (picked rows : List SLAReportDelivery) : List SLAReportDelivery :=
  rows.map fun r => if r.id ∈ picked.map (·.id) then markUnknown code r else r

/-- What the checks between the selection and the claim of a row found: `authorize_notice` raised an
operator error or anything else, the recipient does not want mail (now), the provider is at its
limit, or the notice may be sent. -/
inductive Review
  | refused (code : String)
  | invalid
  | preference (skipped : Bool)
  | limited
  | clear (url : String)
  deriving DecidableEq, Repr

/-- What a claim hands to `send_notice`. -/
structure Notice where
  deliveryId : Uuid
  recipient : String
  url : String
  deriving DecidableEq, Repr

/-- What the first transaction of `process_one` does with the row that is due. -/
def claimDelivery (now : Time) (review : Review) (r : SLAReportDelivery) :
    SLAReportDelivery × Option Notice :=
  if 5 ≤ r.attempts ∨ r.createdAt < now - minutes (7 * 24 * 60) then
    ({ r with state := .failed, errorCode := some "delivery_expired_or_exhausted" }, none)
  else
    match review with
    | .refused code => ({ r with state := .cancelled, errorCode := some code }, none)
    | .invalid => ({ r with state := .failed, errorCode := some "delivery_configuration_invalid" }, none)
    | .preference skipped =>
      ({ r with
        state := if skipped then .skipped else .retry, errorCode := some "recipient_preferences"
        nextAttemptAt := now + minutes 15 }, none)
    | .limited =>
      ({ r with
        state := .retry, errorCode := some "provider_rate_limit_or_unavailable"
        nextAttemptAt := now + minutes 15 }, none)
    | .clear url =>
      ({ r with
        attempts := r.attempts + 1, state := .sending, errorCode := none
        leaseExpiresAt := some (now + minutes 10) },
       some ⟨r.id, r.recipientEmail, url⟩)

/-- The first transaction of `process_one`: the quarantine of untrusted and interrupted rows, and the
claim of one that is due; and whether it made progress. -/
def claimOne (epoch : Option Uuid) (now : Time) (busy : Busy) (review : Review)
    (rows : List SLAReportDelivery) : List SLAReportDelivery × Option Notice × Bool :=
  let untrusted := select (·.createdAt) (isUntrusted epoch) busy.untrusted 100 rows
  let rows := markAll "delivery_recovery_review_required" untrusted rows
  match epoch with
  | none => (rows, none, !untrusted.isEmpty)
  | some epoch =>
    let interrupted :=
      select (fun r => r.leaseExpiresAt.getD 0) (isInterrupted epoch now) busy.interrupted 100 rows
    let rows := markAll "worker_interrupted" interrupted rows
    match (select (·.nextAttemptAt) (isDue epoch now) busy.due 1 rows).head? with
    | none => (rows, none, !untrusted.isEmpty)
    | some delivery =>
      let (claimed, notice) := claimDelivery now review delivery
      (Table.update rows delivery.id fun _ => claimed, notice, true)

/-- The outcome that the second transaction of `process_one` writes, on a row that is still being
sent. -/
def recordOutcome (outcome : MailOutcome) (now : Time) (r : SLAReportDelivery) : SLAReportDelivery :=
  if r.state ≠ .sending then r
  else
    let r := { r with errorCode := outcome.errorCode, leaseExpiresAt := none }
    match outcome.state with
    | .accepted => { r with state := .accepted, acceptedAt := some now }
    | .failed => { r with state := .failed }
    | .unknown => { r with state := .unknown }
    | .retry =>
      if 5 ≤ r.attempts then { r with state := .failed, errorCode := some "retry_exhausted" }
      else
        { r with
          state := .retry, nextAttemptAt := now + minutes (15 * Nat.pow 2 (r.attempts - 1)) }

/-- `cancel_report_delivery`. -/
def cancelDelivery (r : SLAReportDelivery) : SLAReportDelivery :=
  if r.isOpen then { r with state := .cancelled, errorCode := some "cancelled_by_operator" } else r

/-! ### The workers -/

/-- Where a `process_one` call stands behind its claim. -/
inductive Phase
  | claimed
  | sending (t : Transmission)
  | answered (outcome : MailOutcome)

structure Worker where
  id : Nat
  notice : Notice
  phase : Phase

instance : Keyed Worker Nat := ⟨Worker.id⟩

@[simp] theorem key_worker (w : Worker) : Keyed.key w = w.id := rfl

structure World where
  rows : List SLAReportDelivery
  workers : List Worker

/-- A transaction that is rolled back is no step. -/
inductive Event
  | enqueue (id : Uuid) (recipientEmail : String) (epoch : Option Uuid) (now : Time)
  | cancel (id : Uuid)
  /-- The first transaction, with what its worker is configured for and finds. -/
  | claim (worker : Nat) (epoch : Option Uuid) (now : Time) (busy : Busy) (review : Review)
  /-- The worker calls `send_notice`, which will go on as `t` says. -/
  | send (worker : Nat) (deliveryId : Uuid) (t : Transmission)
  /-- The call returns. -/
  | answer (worker : Nat) (deliveryId : Uuid) (outcome : MailOutcome)
  /-- The second transaction; the worker ends with it, committed or not. -/
  | record (worker : Nat) (deliveryId : Uuid) (now : Time) (committed : Bool)
  /-- The worker dies between the two transactions, or the commit of the first one raises. -/
  | crash (worker : Nat) (deliveryId : Uuid)

/-- The worker that holds the row. -/
def World.holder (s : World) (worker : Nat) (deliveryId : Uuid) : Option Worker :=
  (Table.lookup s.workers worker).filter fun w => w.notice.deliveryId = deliveryId

def step (s : World) : Event → Option World
  | .enqueue id recipientEmail epoch now =>
    if (Table.lookup s.rows id).isNone then
      some { s with rows := s.rows ++ [newDelivery id recipientEmail epoch now] }
    else none
  | .cancel id => some { s with rows := Table.update s.rows id cancelDelivery }
  | .claim worker epoch now busy review =>
    if (Table.lookup s.workers worker).isNone then
      let (rows, notice, _) := claimOne epoch now busy review s.rows
      match notice with
      | none => some { s with rows := rows }
      | some notice => some ⟨rows, s.workers ++ [⟨worker, notice, .claimed⟩]⟩
    else none
  | .send worker deliveryId t =>
    match s.holder worker deliveryId with
    | some ⟨_, _, .claimed⟩ =>
      some { s with workers := Table.update s.workers worker fun w => { w with phase := .sending t } }
    | _ => none
  | .answer worker deliveryId outcome =>
    match s.holder worker deliveryId with
    | some ⟨_, _, .sending t⟩ =>
      if sendNotice t = outcome then
        some { s with
          workers := Table.update s.workers worker fun w => { w with phase := .answered outcome } }
      else none
    | _ => none
  | .record worker deliveryId now committed =>
    match s.holder worker deliveryId with
    | some ⟨_, _, .answered outcome⟩ =>
      some {
        rows := if committed then Table.update s.rows deliveryId (recordOutcome outcome now) else s.rows
        workers := Table.remove s.workers worker }
    | _ => none
  | .crash worker deliveryId =>
    match s.holder worker deliveryId with
    | some _ => some { s with workers := Table.remove s.workers worker }
    | none => none

end FreeSdn.Sla
