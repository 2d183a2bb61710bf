import FreeSdn.Releases.UploadPump
import FreeSdn.Releases.Capacity

/-! An upload is accepted, with the same command and blocks, however its body is cut into chunks. -/

namespace FreeSdn.Releases

open FreeSdn.Lib FreeSdn.Artifact
open FreeSdn.Audit (Uuid)

namespace UploadStream

variable {σ : Type} {readers : Readers} {parser : MultipartParser σ} {boundary : List UInt8}
  {s s' : UploadStream σ} {a : Reading} {taken : List UInt8}

/-! ### The intent -/

theorem awaitIntent_pump (unknown : s.form.command = none) :
    s.awaitIntent readers parser = s.pump readers parser >>= awaitIntent readers parser := by
  rw [awaitIntent]
  split
  · rename_i known
    rw [unknown] at known
    cases known
  · split
    · rename_i raised
      rw [raised]
      rfl
    · rename_i ok
      rw [ok]
      rfl

theorem awaitIntent_known {q : PublicationRequest} (known : s.form.command = some q) :
    s.awaitIntent readers parser = .ok (s, q) := by
  rw [awaitIntent]
  split
  · rename_i known'
    obtain rfl := Option.some.inj (known.symm.trans known')
    rfl
  · rename_i unknown
    rw [known] at unknown
    cases unknown

/-- Without an intent nothing has been queued, and the body goes on. -/
theorem unknown_idle (g : s.Going readers parser boundary a []) (unknown : s.form.command = none) :
    s.queuedBytes = 0 ∧ s.transport.eof = false := by
  have unread : a.form.command = none := g.holds.form ▸ unknown
  obtain ⟨_, _, inside, _, _, framed⟩ := g.reached
  constructor
  · have content := g.holds.content
    rw [framed.early unread, List.nil_append] at content
    rw [g.holds.queued, ← content]
    rfl
  · cases spent : s.transport.eof with
    | false => rfl
    | true =>
      obtain ⟨q, known, -⟩ := (g.ended spent).command
      rw [unread] at known
      cases known

/-- The intent that is read. -/
theorem awaitIntent_ok (streaming : parser.Streaming) {q : PublicationRequest}
    (g : s.Going readers parser boundary a []) (ok : s.awaitIntent readers parser = .ok (s', q)) :
    ∃ a', s'.Going readers parser boundary a' [] ∧ a'.form.command = some q ∧
      ∀ out, s.Completes readers parser a out ↔ s'.Completes readers parser a' out := by
  induction turns : s.rounds using Nat.strong_induction_on generalizing s a with
  | _ turns ih =>
    cases known : s.form.command with
    | some q' =>
      rw [awaitIntent_known known] at ok
      obtain ⟨rfl, rfl⟩ := Prod.mk.inj (Except.ok.inj ok)
      exact ⟨a, g, g.holds.form ▸ known, fun out => Iff.rfl⟩
    | none =>
      rw [awaitIntent_pump known] at ok
      obtain ⟨t, pumped, rest⟩ := bind_ok ok
      obtain ⟨b, going, same⟩ := pump_ok streaming g pumped
      obtain ⟨a', last, command, same'⟩ := ih t.rounds (turns ▸ pump_rounds pumped) going rest rfl
      exact ⟨a', last, command, fun out => (same out).trans (same' out)⟩

theorem awaitIntent_error (streaming : parser.Streaming) (short : boundary.length ≤ 70) {err : Refusal}
    (g : s.Going readers parser boundary a []) (raised : s.awaitIntent readers parser = .error err) :
    ¬ err.Busy ∧ ∀ out, ¬ s.Completes readers parser a out := by
  induction turns : s.rounds using Nat.strong_induction_on generalizing s a with
  | _ turns ih =>
    cases known : s.form.command with
    | some q =>
      rw [awaitIntent_known known] at raised
      cases raised
    | none =>
      rw [awaitIntent_pump known] at raised
      rcases bind_error raised with raised | ⟨t, pumped, rest⟩
      · obtain ⟨idle, running⟩ := unknown_idle g known
        exact pump_error streaming short g running idle raised
      · obtain ⟨b, going, same⟩ := pump_ok streaming g pumped
        obtain ⟨calm, never⟩ := ih t.rounds (turns ▸ pump_rounds pumped) going rest rfl
        exact ⟨calm, fun out c => never out ((same out).mp c)⟩

/-! ### The blocks -/

/-- Pieces of the payload fill whole blocks, in order. -/
theorem coalesce_spec (pending : Pending) (chunk : List UInt8) :
    (∀ block ∈ (coalesce pending chunk).1, block.length = feedSize) ∧
      (coalesce pending chunk).1.flatten ++ (coalesce pending chunk).2.val = pending.val ++ chunk := by
  induction pending, chunk using coalesce.induct with
  | case1 pending => simp [coalesce]
  | case2 pending chunk some_ rest full ih =>
    rw [coalesce, dif_neg some_, dif_pos full]
    obtain ⟨whole, flat⟩ := ih
    constructor
    · intro block mem
      rcases List.mem_cons.mp mem with rfl | later
      · exact full
      · exact whole block later
    · simp only [List.flatten_cons, List.append_assoc]
      rw [flat, List.nil_append, Pending.filled, List.append_assoc, List.take_append_drop]
  | case3 pending chunk some_ rest full ih =>
    rw [coalesce, dif_neg some_, dif_neg full]
    obtain ⟨whole, flat⟩ := ih
    refine ⟨whole, flat.trans ?_⟩
    simp only [rest, Pending.filled, List.append_assoc, List.take_append_drop]

theorem yieldBlocks_pop {chunk : List UInt8} {payload : List (List UInt8)} (pending : Pending)
    (queue : s.payload = chunk :: payload) : s.yieldBlocks readers parser pending =
      let rest := { s with payload, queuedBytes := s.queuedBytes - chunk.length }.yieldBlocks readers parser
        (coalesce pending chunk).2
      ((coalesce pending chunk).1 ++ rest.1, rest.2) := by
  rw [yieldBlocks]
  split
  · rename_i chunk' payload' queue'
    obtain ⟨rfl, rfl⟩ := List.cons_eq_cons.mp (queue.symm.trans queue')
    rfl
  · rename_i empty
    rw [queue] at empty
    cases empty

theorem yieldBlocks_end (pending : Pending) (queue : s.payload = []) (spent : s.transport.eof = true) :
    s.yieldBlocks readers parser pending = ([], .ok (s, pending)) := by
  rw [yieldBlocks]
  split
  · rename_i queue'
    rw [queue] at queue'
    cases queue'
  · rw [if_pos spent]

theorem yieldBlocks_pump (pending : Pending) (queue : s.payload = []) (running : s.transport.eof = false) :
    s.yieldBlocks readers parser pending = match s.pump readers parser with
      | .error e => ([], .error e)
      | .ok s' => s'.yieldBlocks readers parser pending := by
  rw [yieldBlocks]
  split
  · rename_i queue'
    rw [queue] at queue'
    cases queue'
  · rw [running]
    simp only [Bool.false_eq_true, if_false]
    split
    · rename_i raised
      rw [raised]
    · rename_i ok
      rw [ok]

/-- What the blocks of a body are, from the point that `a` reads on: whole ones, as long as the body may
still be refused; the rest of the content in the end. -/
structure Yields (readers : Readers) (parser : MultipartParser σ) (s : UploadStream σ) (a : Reading)
    (taken : List UInt8) (pending : Pending)
    (run : List (List UInt8) × Except Refusal (UploadStream σ × Pending)) : Prop where
  whole : ∀ block ∈ run.1, block.length = feedSize
  refused : ∀ err, run.2 = .error err → ¬ err.Busy ∧ ∀ out, ¬ s.Completes readers parser a out
  complete : ∀ last, run.2 = .ok last → ∃ out rest, s.Completes readers parser a out ∧
    out.content = taken ++ rest ∧ run.1.flatten ++ last.2.val = pending.val ++ rest

theorem yieldBlocks_spec (streaming : parser.Streaming) (short : boundary.length ≤ 70)
    (g : s.Going readers parser boundary a taken) (pending : Pending) :
    Yields readers parser s a taken pending (s.yieldBlocks readers parser pending) := by
  induction turns_eq : toLex (s.rounds, s.payload.length) using
    (inferInstance : WellFoundedLT (ℕ ×ₗ ℕ)).wf.induction generalizing s a taken pending with
  | _ turns ih =>
  cases queue : s.payload with
  | cons chunk payload =>
    rw [yieldBlocks_pop pending queue]
    have next : ({ s with payload, queuedBytes := s.queuedBytes - chunk.length } : UploadStream σ).Going
        readers parser boundary a (taken ++ chunk) := by
      have content := g.holds.content
      have queued := g.holds.queued
      rw [queue, List.flatten_cons] at content queued
      refine ⟨⟨g.holds.form, ?_, g.holds.fileBytes, ?_, g.holds.limit, g.holds.bounded⟩, g.live,
        g.reached, fun spent => ?_⟩
      · rw [content, List.append_assoc]
      · simp only [queued, List.length_append]
        omega
      · obtain ⟨p, r, e, c, d⟩ := g.ended spent
        exact ⟨p, r, e, c, d⟩
    obtain ⟨whole, flat⟩ := coalesce_spec pending chunk
    have fewer : toLex (s.rounds, payload.length) < turns := by
      rw [← turns_eq, queue]
      exact Prod.Lex.right _ (Nat.lt_succ_self _)
    obtain ⟨whole', refused, complete⟩ := ih _ fewer next (coalesce pending chunk).2 rfl
    refine ⟨?_, ?_, ?_⟩
    · intro block mem
      rcases List.mem_append.mp mem with now | later
      · exact whole block now
      · exact whole' block later
    · intro err raised
      obtain ⟨calm, never⟩ := refused err raised
      exact ⟨calm, fun out ⟨p, r, e, c, d⟩ => never out ⟨p, r, e, c, d⟩⟩
    · intro last ended
      obtain ⟨out, rest, ⟨p, r, e, c, d⟩, content, flat'⟩ := complete last ended
      refine ⟨out, chunk ++ rest, ⟨p, r, e, c, d⟩, by rw [content, List.append_assoc], ?_⟩
      rw [List.flatten_append, List.append_assoc, flat', ← List.append_assoc, flat, List.append_assoc]
  | nil =>
    cases spent : s.transport.eof with
    | true =>
      rw [yieldBlocks_end pending queue spent]
      have content := g.holds.content
      rw [queue] at content
      refine ⟨by simp, fun err raised => (by cases raised), fun last ended => ?_⟩
      obtain rfl := Except.ok.inj ended
      exact ⟨a, [], g.ended spent, by simpa using content, by simp⟩
    | false =>
      have idle : s.queuedBytes = 0 := by rw [g.holds.queued, queue]; rfl
      rw [yieldBlocks_pump pending queue spent]
      cases pumped : s.pump readers parser with
      | error err =>
        refine ⟨by simp, fun err' raised => ?_, fun last ended => (by cases ended)⟩
        obtain rfl := Except.error.inj raised
        exact pump_error streaming short g spent idle pumped
      | ok s' =>
        obtain ⟨a', going, same⟩ := pump_ok streaming g pumped
        have fewer : toLex (s'.rounds, s'.payload.length) < turns := by
          rw [← turns_eq]
          exact Prod.Lex.left _ _ (pump_rounds pumped)
        obtain ⟨whole, refused, complete⟩ := ih _ fewer going pending rfl
        refine ⟨whole, ?_, ?_⟩
        · intro err raised
          obtain ⟨calm, never⟩ := refused err raised
          exact ⟨calm, fun out c => never out ((same out).mp c)⟩
        · intro last ended
          obtain ⟨out, rest, c, content, flat⟩ := complete last ended
          exact ⟨out, rest, (same out).mpr c, content, flat⟩

theorem awaitIntent_consumed {q : PublicationRequest}
    (ok : s.awaitIntent readers parser = .ok (s', q)) : s'.consumed = s.consumed := by
  induction turns : s.rounds using Nat.strong_induction_on generalizing s with
  | _ turns ih =>
    cases known : s.form.command with
    | some q' =>
      rw [awaitIntent_known known] at ok
      obtain ⟨rfl, -⟩ := Prod.mk.inj (Except.ok.inj ok)
      rfl
    | none =>
      rw [awaitIntent_pump known] at ok
      obtain ⟨t, pumped, rest⟩ := bind_ok ok
      exact (ih t.rounds (turns ▸ pump_rounds pumped) rest rfl).trans (pump_consumed pumped)

end UploadStream

/-! ### The whole upload -/

/-- Whole blocks of the content, and a shorter one for what is left. -/
def BlocksOf (content : List UInt8) (blocks : List (List UInt8)) : Prop :=
  ∃ whole pending, (∀ block ∈ whole, block.length = feedSize) ∧ pending.length < feedSize ∧
    whole.flatten ++ pending = content ∧ blocks = if pending = [] then whole else whole ++ [pending]

theorem whole_unique {whole whole' : List (List UInt8)} {pending pending' : List UInt8}
    (full : ∀ block ∈ whole, block.length = feedSize) (full' : ∀ block ∈ whole', block.length = feedSize)
    (short : pending.length < feedSize) (short' : pending'.length < feedSize)
    (same : whole.flatten ++ pending = whole'.flatten ++ pending') : whole = whole' ∧ pending = pending' := by
  have long {block : List UInt8} {rest pending : List UInt8} (size : block.length = feedSize)
      (short : pending.length < feedSize) : pending ≠ block ++ rest := by
    rintro rfl
    rw [List.length_append] at short
    omega
  induction whole generalizing whole' with
  | nil =>
    cases whole' with
    | nil => exact ⟨rfl, same⟩
    | cons block' whole' =>
      rw [List.flatten_cons, List.append_assoc] at same
      exact absurd same (long (full' block' List.mem_cons_self) short)
  | cons block whole ih =>
    cases whole' with
    | nil =>
      rw [List.flatten_cons, List.append_assoc] at same
      exact absurd same.symm (long (full block List.mem_cons_self) short')
    | cons block' whole' =>
      rw [List.flatten_cons, List.flatten_cons, List.append_assoc, List.append_assoc] at same
      have size : block.length = block'.length := by
        rw [full block List.mem_cons_self, full' block' List.mem_cons_self]
      obtain ⟨rfl, rest⟩ := List.append_inj same size
      obtain ⟨rfl, last⟩ := ih (fun b mem => full b (List.mem_cons_of_mem _ mem))
        (fun b mem => full' b (List.mem_cons_of_mem _ mem)) rest
      exact ⟨rfl, last⟩

theorem BlocksOf.unique {content : List UInt8} {blocks blocks' : List (List UInt8)}
    (first : BlocksOf content blocks) (second : BlocksOf content blocks') : blocks = blocks' := by
  obtain ⟨whole, pending, full, short, rfl, rfl⟩ := first
  obtain ⟨whole', pending', full', short', same, rfl⟩ := second
  obtain ⟨rfl, rfl⟩ := whole_unique full full' short short' same.symm
  rfl

theorem BlocksOf.flatten {content : List UInt8} {blocks : List (List UInt8)} (h : BlocksOf content blocks) :
    blocks.flatten = content := by
  obtain ⟨whole, pending, -, -, rfl, rfl⟩ := h
  split
  · rename_i nothing
    rw [nothing, List.append_nil]
  · simp

/-- All blocks but the last are whole, and none is empty or larger. -/
theorem BlocksOf.sizes {content : List UInt8} {blocks : List (List UInt8)} (h : BlocksOf content blocks) :
    (∀ block ∈ blocks.dropLast, block.length = feedSize) ∧
      ∀ block ∈ blocks, block ≠ [] ∧ block.length ≤ feedSize := by
  obtain ⟨whole, pending, full, short, -, rfl⟩ := h
  have fine : ∀ block ∈ whole, block ≠ [] ∧ block.length ≤ feedSize := by
    intro block mem
    have size := full block mem
    refine ⟨?_, size.le⟩
    rintro rfl
    cases size
  split
  · exact ⟨fun block mem => full block (List.dropLast_subset _ mem), fine⟩
  · rename_i some_
    rw [List.dropLast_concat]
    refine ⟨full, fun block mem => ?_⟩
    rcases List.mem_append.mp mem with early | last
    · exact fine block early
    · obtain rfl := List.mem_singleton.mp last
      exact ⟨some_, short.le⟩

theorem UploadHeaders.check_boundary {readers : Readers} {headers : UploadHeaders} {operationId : Uuid}
    {checked : List UInt8 × Option Nat} (h : headers.check readers operationId = .ok checked) :
    checked.1.length ≤ 70 := by
  obtain ⟨-, h⟩ := require_bind h
  obtain ⟨boundary, named, h⟩ := bind_ok h
  obtain ⟨_, -, h⟩ := bind_ok h
  obtain ⟨-, h⟩ := require_bind h
  obtain ⟨_, -, h⟩ := bind_ok h
  obtain rfl := Except.ok.inj h
  obtain ⟨_, -, named⟩ := bind_ok named
  obtain ⟨-, named⟩ := require_bind named
  obtain ⟨valid, named⟩ := require_bind named
  obtain rfl := Except.ok.inj named
  simp only [isBoundary, Bool.and_eq_true, decide_eq_true_iff] at valid
  exact valid.2.1.1.2

theorem UploadHeaders.single_calm {headers : UploadHeaders} {name : String} {err : Refusal}
    (h : headers.single name = .error err) : ¬ err.Busy := by
  unfold single at h
  split at h
  · cases h
  · exact Except.error.inj h ▸ not_busy (by simp)

theorem UploadHeaders.optional_calm {headers : UploadHeaders} {name : String} {err : Refusal}
    (h : headers.optional name = .error err) : ¬ err.Busy := by
  unfold optional at h
  split at h
  · cases h
  · exact single_calm (map_error h)

theorem UploadHeaders.check_calm {readers : Readers} {headers : UploadHeaders} {operationId : Uuid}
    {err : Refusal} (h : headers.check readers operationId = .error err) : ¬ err.Busy := by
  rcases require_error h with ⟨-, rfl⟩ | ⟨-, h⟩
  · exact not_busy (by simp)
  rcases bind_error h with h | ⟨boundary, -, h⟩
  · rcases bind_error h with h | ⟨contentType, -, h⟩
    · exact single_calm h
    rcases require_error h with ⟨-, rfl⟩ | ⟨-, h⟩
    · exact not_busy (by simp)
    rcases require_error h with ⟨-, rfl⟩ | ⟨-, h⟩
    · exact not_busy (by simp)
    · cases h
  rcases bind_error h with h | ⟨encoding, -, h⟩
  · exact optional_calm h
  rcases require_error h with ⟨-, rfl⟩ | ⟨-, h⟩
  · exact not_busy (by simp)
  rcases bind_error h with h | ⟨declared, -, h⟩
  · rcases bind_error h with h | ⟨text, -, h⟩
    · exact optional_calm h
    rcases require_error h with ⟨-, rfl⟩ | ⟨-, h⟩
    · exact not_busy (by simp)
    rcases require_error h with ⟨-, rfl⟩ | ⟨-, h⟩
    · exact not_busy (by simp)
    · cases h
  · cases h

variable {σ : Type} {readers : Readers} {parser : MultipartParser σ} {headers : UploadHeaders}
  {operationId : Uuid} {checked : List UInt8 × Option Nat} {body body' : List (List UInt8)}

theorem pieces_ofBody (body : List (List UInt8)) :
    (Transport.ofBody body).pieces.flatten = body.flatten := by
  rw [Transport.flatten_pieces]
  rfl

theorem framed_start : ({} : Reading).Framed false :=
  ⟨rfl, by decide, by decide, fun q known => (by cases known), by decide, fun _ => rfl,
    fun q known => (by cases known)⟩

/-- A new stream has read nothing. -/
theorem going_create : (UploadStream.create parser operationId checked body).Going readers parser checked.1
    {} [] := by
  refine ⟨⟨rfl, rfl, rfl, rfl, rfl, Nat.zero_le _⟩, rfl, ⟨[], [], false, rfl, rfl, framed_start⟩, fun spent => ?_⟩
  cases spent

/-- A body in other chunks is read in the same way. -/
theorem read_same (streaming : parser.Streaming) {boundary : List UInt8} {pieces pieces' : List (List UInt8)}
    (same : pieces'.flatten = pieces.flatten) {out : Reading}
    (parsed : (parser.feed (parser.create boundary) pieces).2.isSome)
    (read : (parser.feed (parser.create boundary) pieces).1.foldlM (Reading.step readers operationId) {} =
      .ok out) :
    (parser.feed (parser.create boundary) pieces').2.isSome ∧
      (parser.feed (parser.create boundary) pieces').1.foldlM (Reading.step readers operationId) {} =
        .ok out := by
  obtain ⟨parsed', letters⟩ := streaming.same boundary pieces pieces' same.symm parsed
  obtain ⟨inside, nests⟩ := Option.isSome_iff_exists.mp (streaming.nested boundary pieces)
  obtain ⟨inside', nests'⟩ := Option.isSome_iff_exists.mp (streaming.nested boundary pieces')
  refine ⟨parsed', ?_⟩
  rw [← Reading.run_letters framed_start nests', letters, Reading.run_letters framed_start nests]
  exact read

/-- What a body completes does not depend on its chunks. -/
theorem completes_body (streaming : parser.Streaming) (same : body'.flatten = body.flatten) {out : Reading}
    (c : (UploadStream.create parser operationId checked body).Completes readers parser {} out) :
    (UploadStream.create parser operationId checked body').Completes readers parser {} out := by
  obtain ⟨parsed, read, ended, command, declared⟩ := c
  have flat : (Transport.ofBody body').pieces.flatten = (Transport.ofBody body).pieces.flatten := by
    rw [pieces_ofBody, pieces_ofBody, same]
  obtain ⟨parsed', read'⟩ := read_same streaming flat parsed read
  have total : (UploadStream.create parser operationId checked body').remaining =
      (UploadStream.create parser operationId checked body).remaining := congrArg List.length flat
  refine ⟨parsed', read', ended, ?_, ?_⟩
  · rw [total]
    exact command
  · rw [total]
    exact declared

/-- The end of the form is called back. -/
theorem finished_of_ended {a out : Reading} {events : List Callback}
    (read : events.foldlM (Reading.step readers operationId) a = .ok out) (before : a.form.ended = false)
    (ended : out.form.ended = true) : Callback.finished ∈ events := by
  induction events generalizing a with
  | nil =>
    obtain rfl := Except.ok.inj read
    rw [before] at ended
    cases ended
  | cons e events ih =>
    obtain ⟨next, one, rest⟩ := foldlM_cons_ok.mp read
    by_cases last : e = .finished
    · exact last ▸ List.mem_cons_self
    · refine List.mem_cons_of_mem _ (ih rest ?_)
      cases Reading.step_moves one with
      | framing _ kept => exact ((Form.framing_ok kept).2.2.2 last).trans before
      | intent => exact before
      | file => exact before
      | decoded => exact before
      | ended => exact before

/-- What the blocks of a stream are. -/
theorem UploadStream.chunks_spec (streaming : parser.Streaming) {boundary : List UInt8}
    (short : boundary.length ≤ 70) {s : UploadStream σ} {a : Reading} {q : PublicationRequest}
    (g : s.Going readers parser boundary a []) (fresh : s.consumed = false) (known : s.form.command = some q) :
    (∀ err, (s.chunks readers parser).2 = .error err → ¬ err.Busy ∧
      (∀ block ∈ (s.chunks readers parser).1, block.length = feedSize) ∧
      ∀ out, ¬ s.Completes readers parser a out) ∧
    ∀ last, (s.chunks readers parser).2 = .ok last →
      ∃ out, s.Completes readers parser a out ∧ BlocksOf out.content (s.chunks readers parser).1 := by
  have ready : ¬ (s.closed ∨ s.consumed ∨ s.form.command.isNone) := by simp [g.live, fresh, known]
  have going : ({ s with consumed := true } : UploadStream σ).Going readers parser boundary a [] :=
    ⟨⟨g.holds.form, g.holds.content, g.holds.fileBytes, g.holds.queued, g.holds.limit, g.holds.bounded⟩,
      g.live, g.reached, fun spent => by
        obtain ⟨p, r, e, c, d⟩ := g.ended spent
        exact ⟨p, r, e, c, d⟩⟩
  obtain ⟨whole, refused, complete⟩ := yieldBlocks_spec streaming short going ⟨[], Nat.zero_lt_succ _⟩
  rw [chunks, if_neg ready]
  simp only
  split
  · rename_i err raised
    obtain ⟨calm, never⟩ := refused err raised
    refine ⟨?_, fun last ended => (by cases ended)⟩
    intro err' same
    obtain rfl := Except.error.inj same
    exact ⟨calm, whole, fun out ⟨p, r, e, c, d⟩ => never out ⟨p, r, e, c, d⟩⟩
  · rename_i t pending ended
    obtain ⟨out, rest, ⟨p, r, e, c, d⟩, content, flat⟩ := complete _ ended
    refine ⟨fun err same => (by cases same), fun last same => ⟨out, ⟨p, r, e, c, d⟩, ?_⟩⟩
    refine ⟨_, pending.val, whole, pending.property, ?_, rfl⟩
    rw [flat, content]

theorem upload_refused {request : UploadRequest} {err : Refusal}
    (refused : UploadHeaders.check readers request.headers operationId = .error err) :
    upload readers parser request operationId = ([], .error err) := by
  rw [upload, UploadStream.init, refused]
  rfl

theorem upload_checked {request : UploadRequest}
    (passed : UploadHeaders.check readers request.headers operationId = .ok checked) :
    upload readers parser request operationId =
      match (UploadStream.create parser operationId checked request.body).awaitIntent readers parser with
      | .error e => ([], .error e)
      | .ok (s, q) => ((s.chunks readers parser).1, (s.chunks readers parser).2.map fun _ => q) := by
  have made : UploadStream.init readers parser request operationId =
      .ok (UploadStream.create parser operationId checked request.body) := by
    rw [UploadStream.init, passed]
    rfl
  have ready : ¬ ((UploadStream.create parser operationId checked request.body).closed ∨
      (UploadStream.create parser operationId checked request.body).form.command.isSome) := by
    simp [UploadStream.create]
  have read : (UploadStream.create parser operationId checked request.body).readIntent readers parser =
      (UploadStream.create parser operationId checked request.body).awaitIntent readers parser := if_neg ready
  rw [upload, made]
  exact congrArg (fun r : Except Refusal (UploadStream σ × PublicationRequest) => match r with
    | .error e => ([], Except.error e)
    | .ok (s, q) => ((s.chunks readers parser).1, (s.chunks readers parser).2.map fun _ => q)) read

/-- An upload that is refused never was at its end. -/
theorem upload_error (streaming : parser.Streaming) {request : UploadRequest} {err : Refusal}
    (raised : (upload readers parser request operationId).2 = .error err) :
    ¬ err.Busy ∧ (∀ block ∈ (upload readers parser request operationId).1, block.length = feedSize) ∧
      ∀ checked, UploadHeaders.check readers request.headers operationId = .ok checked → ∀ out,
        ¬ (UploadStream.create parser operationId checked request.body).Completes readers parser {} out := by
  cases passed : UploadHeaders.check readers request.headers operationId with
  | error err' =>
    rw [upload_refused passed] at raised ⊢
    obtain rfl := Except.error.inj raised
    exact ⟨UploadHeaders.check_calm passed, by simp, fun checked same => by cases same⟩
  | ok checked =>
    have going : (UploadStream.create parser operationId checked request.body).Going readers parser checked.1
        {} [] := going_create
    have short := UploadHeaders.check_boundary passed
    suffices ends : ¬ err.Busy ∧
        (∀ block ∈ (upload readers parser request operationId).1, block.length = feedSize) ∧ ∀ out,
          ¬ (UploadStream.create parser operationId checked request.body).Completes readers parser {} out by
      refine ⟨ends.1, ends.2.1, fun checked' same => ?_⟩
      obtain rfl := Except.ok.inj same
      exact ends.2.2
    rw [upload_checked passed] at raised ⊢
    cases awaited : (UploadStream.create parser operationId checked request.body).awaitIntent readers parser with
    | error err' =>
      rw [awaited] at raised
      obtain rfl := Except.error.inj raised
      obtain ⟨calm, never⟩ := UploadStream.awaitIntent_error streaming short going awaited
      exact ⟨calm, by simp, never⟩
    | ok found =>
      obtain ⟨s, q⟩ := found
      rw [awaited] at raised
      obtain ⟨a, going', known, same⟩ := UploadStream.awaitIntent_ok streaming going awaited
      have fresh := UploadStream.awaitIntent_consumed awaited
      obtain ⟨refused, -⟩ := UploadStream.chunks_spec streaming short going' fresh (going'.holds.form ▸ known)
      obtain ⟨calm, whole, never⟩ := refused err (map_error raised)
      exact ⟨calm, whole, fun out c => never out ((same out).mp c)⟩

/-- An upload that is accepted was at its end. -/
theorem upload_ok (streaming : parser.Streaming) {request : UploadRequest} {q : PublicationRequest}
    (accepted : (upload readers parser request operationId).2 = .ok q) :
    ∃ checked out, UploadHeaders.check readers request.headers operationId = .ok checked ∧
      (UploadStream.create parser operationId checked request.body).Completes readers parser {} out ∧
      out.form.command = some q ∧ BlocksOf out.content (upload readers parser request operationId).1 := by
  cases passed : UploadHeaders.check readers request.headers operationId with
  | error err =>
    rw [upload_refused passed] at accepted
    cases accepted
  | ok checked =>
    have going : (UploadStream.create parser operationId checked request.body).Going readers parser checked.1
        {} [] := going_create
    have short := UploadHeaders.check_boundary passed
    rw [upload_checked passed] at accepted ⊢
    cases awaited : (UploadStream.create parser operationId checked request.body).awaitIntent readers parser with
    | error err =>
      rw [awaited] at accepted
      cases accepted
    | ok found =>
      obtain ⟨s, q'⟩ := found
      rw [awaited] at accepted
      obtain ⟨last, ended, rfl⟩ := map_ok accepted
      obtain ⟨a, going', known, same⟩ := UploadStream.awaitIntent_ok streaming going awaited
      have fresh := UploadStream.awaitIntent_consumed awaited
      obtain ⟨-, complete⟩ := UploadStream.chunks_spec streaming short going' fresh (going'.holds.form ▸ known)
      obtain ⟨out, c, blocks⟩ := complete last ended
      refine ⟨checked, out, rfl, (same out).mpr c, ?_, blocks⟩
      exact (UploadStream.completes_run streaming going' c).2 [] _ a q' rfl rfl known

/-- A body that completes is accepted. -/
theorem upload_accepts (streaming : parser.Streaming) (request : UploadRequest) {out : Reading}
    {q : PublicationRequest} {blocks : List (List UInt8)}
    (passed : UploadHeaders.check readers request.headers operationId = .ok checked)
    (c : (UploadStream.create parser operationId checked request.body).Completes readers parser {} out)
    (known : out.form.command = some q) (made : BlocksOf out.content blocks) :
    upload readers parser request operationId = (blocks, .ok q) := by
  cases other : upload readers parser request operationId with
  | mk blocks' ending =>
    cases ending with
    | error err =>
      have never := (upload_error streaming (congrArg Prod.snd other)).2.2 checked passed out
      exact absurd c never
    | ok q' =>
      obtain ⟨checked', out', passed', c', known', made'⟩ := upload_ok streaming (congrArg Prod.snd other)
      obtain rfl := Except.ok.inj (passed.symm.trans passed')
      obtain rfl := Except.ok.inj (c.read.symm.trans c'.read)
      obtain rfl := Option.some.inj (known.symm.trans known')
      rw [other] at made'
      exact Prod.ext (made'.unique made) rfl

/-- An upload is accepted, with its command and blocks, for any chunks of its body or for none. -/
theorem upload_same (streaming : parser.Streaming) {request : UploadRequest} {body : List (List UInt8)}
    (same : body.flatten = request.body.flatten) {q : PublicationRequest} {blocks : List (List UInt8)}
    (accepted : upload readers parser request operationId = (blocks, .ok q)) :
    upload readers parser { request with body } operationId = (blocks, .ok q) := by
  obtain ⟨checked, out, passed, c, known, made⟩ := upload_ok streaming (congrArg Prod.snd accepted)
  rw [accepted] at made
  have c' := completes_body streaming same c
  exact upload_accepts streaming { request with body } passed c' known made

/-- An upload does not depend on the chunks of its body.  An accepted one yields the content of the file
part, of the committed size, in whole blocks but for the last; a refused one has yielded whole blocks
alone, and was not refused for a full queue. -/
theorem upload_fragmentation (readers : Readers) (parser : MultipartParser σ)
    (streaming : parser.Streaming) (request : UploadRequest) (operationId : Uuid) :
    (∀ body : List (List UInt8), body.flatten = request.body.flatten → ∀ q blocks,
      upload readers parser request operationId = (blocks, .ok q) ↔
        upload readers parser { request with body } operationId = (blocks, .ok q)) ∧
    (∀ q blocks, upload readers parser request operationId = (blocks, .ok q) →
      (∀ block ∈ blocks.dropLast, block.length = feedSize) ∧
      (∀ block ∈ blocks, block ≠ [] ∧ block.length ≤ feedSize) ∧
      blocks.flatten.length = q.metadata.fileSize ∧
      ∃ boundary declared,
        UploadHeaders.check readers request.headers operationId = .ok (boundary, declared) ∧
        blocks.flatten =
          fileContent 0 (parser.feed (parser.create boundary) [request.body.flatten]).1 ∧
        Callback.finished ∈ (parser.feed (parser.create boundary) [request.body.flatten]).1 ∧
        ∀ n ∈ declared, n = request.body.flatten.length) ∧
    ∀ err, (upload readers parser request operationId).2 = .error err →
      (∀ block ∈ (upload readers parser request operationId).1, block.length = feedSize) ∧
        ∀ message, err ≠ .http 503 message := by
  refine ⟨?_, ?_, ?_⟩
  · intro body same q blocks
    refine ⟨upload_same streaming same, fun accepted => ?_⟩
    exact @upload_same _ _ _ _ streaming { request with body } _ same.symm _ _ accepted
  · intro q blocks accepted
    obtain ⟨⟨boundary, declared⟩, out, passed, c, known, made⟩ :=
      upload_ok streaming (congrArg Prod.snd accepted)
    rw [accepted] at made
    obtain ⟨most, sizes⟩ := made.sizes
    obtain ⟨q', known', size, -⟩ := c.command
    obtain rfl := Option.some.inj (known.symm.trans known')
    have flat : [request.body.flatten].flatten = (Transport.ofBody request.body).pieces.flatten := by
      rw [pieces_ofBody]
      simp
    obtain ⟨-, whole⟩ := read_same streaming flat c.parsed c.read
    refine ⟨most, sizes, by rw [made.flatten, size], boundary, declared, passed, ?_, ?_, ?_⟩
    · rw [made.flatten]
      exact Reading.run_content whole
    · exact finished_of_ended whole rfl c.ended
    · intro n mem
      have total := c.declared n mem
      rw [← total]
      exact (Nat.zero_add _).trans (congrArg List.length (pieces_ofBody request.body))
  · intro err raised
    obtain ⟨calm, whole, -⟩ := upload_error streaming raised
    exact ⟨whole, fun message same => calm ⟨message, same⟩⟩

/-! ### A parser that follows a script -/

/-- The callbacks that each byte of an expected body makes. -/
abbrev Script := List (UInt8 × List Callback)

def play : Script → List UInt8 → List Callback × Option Script
  | script, [] => ([], some script)
  | [], _ :: _ => ([], none)
  | (expected, events) :: script, b :: data =>
    if b = expected then (events ++ (play script data).1, (play script data).2) else ([], none)

/-- The parser that knows one body. -/
def scripted (boundary : List UInt8) (script : Script) : MultipartParser Script where
  create named := if named = boundary then script else []
  write script data := ((play script data).1, (play script data).2.map fun rest => (data.length, rest))

theorem play_append (script : Script) (data more : List UInt8) :
    play script (data ++ more) = match play script data with
      | (events, none) => (events, none)
      | (events, some rest) => (events ++ (play rest more).1, (play rest more).2) := by
  induction data generalizing script with
  | nil => simp [play]
  | cons b data ih =>
    cases script with
    | nil => rfl
    | cons entry script =>
      rw [List.cons_append, play, play]
      split
      · rw [ih]
        rcases play script data with ⟨events, _ | rest⟩ <;> simp
      · rfl

theorem feed_scripted (boundary : List UInt8) (script state : Script) (pieces : List (List UInt8)) :
    (scripted boundary script).feed state pieces = play state pieces.flatten := by
  induction pieces generalizing state with
  | nil => simp [MultipartParser.feed, play]
  | cons data pieces ih =>
    rw [List.flatten_cons, play_append]
    rcases played : play state data with ⟨events, _ | rest⟩
    · refine MultipartParser.feed_raises pieces ?_
      simp [scripted, played]
    · have written : (scripted boundary script).write state data = (events, some (data.length, rest)) := by
        simp [scripted, played]
      rw [MultipartParser.feed_returns pieces written, ih]

theorem play_whole (script : Script) :
    play script (script.map Prod.fst) = (script.flatMap (·.2), some []) := by
  induction script with
  | nil => rfl
  | cons entry script ih =>
    obtain ⟨b, events⟩ := entry
    rw [List.map_cons, play, if_pos rfl, ih, List.flatMap_cons]

/-- A body follows its script up to some byte. -/
theorem play_spec (script : Script) (data : List UInt8) :
    ∃ done rest, script = done ++ rest ∧ done.length ≤ data.length ∧
      (play script data).1 = done.flatMap (·.2) ∧ ∀ left, (play script data).2 = some left → left = rest := by
  induction data generalizing script with
  | nil => exact ⟨[], script, by simp [play]⟩
  | cons b data ih =>
    cases script with
    | nil => exact ⟨[], [], rfl, Nat.zero_le _, rfl, fun left same => by cases same⟩
    | cons entry script =>
      obtain ⟨expected, events⟩ := entry
      rw [play]
      split
      · obtain ⟨done, rest, rfl, short, made, left⟩ := ih script
        refine ⟨(expected, events) :: done, rest, rfl, Nat.succ_le_succ short, ?_, left⟩
        rw [made, List.flatMap_cons]
      · exact ⟨[], _, rfl, Nat.zero_le _, rfl, fun left same => by cases same⟩

theorem sum_size_le {done : Script} (single : ∀ entry ∈ done, (entry.2.map Callback.size).sum ≤ 1) :
    ((done.flatMap (·.2)).map Callback.size).sum ≤ done.length := by
  induction done with
  | nil => rfl
  | cons entry done ih =>
    have first := single entry List.mem_cons_self
    have rest := ih fun other mem => single other (List.mem_cons_of_mem _ mem)
    rw [List.flatMap_cons, List.map_append, List.sum_append, List.length_cons]
    omega

/-- A script whose bytes deliver at most themselves, and whose parts do not overlap, can be streamed. -/
theorem scripted_streaming {boundary : List UInt8} {script : Script}
    (single : ∀ entry ∈ script, (entry.2.map Callback.size).sum ≤ 1)
    (nested : ((script.flatMap (·.2)).foldlM Callback.nest false).isSome) :
    (scripted boundary script).Streaming := by
  have part (named : List UInt8) : ∃ before, script = before ++ (scripted boundary script).create named := by
    by_cases own : named = boundary
    · exact ⟨[], by simp [scripted, own]⟩
    · exact ⟨script, by simp [scripted, own]⟩
  refine ⟨?_, ?_, ?_, ?_⟩
  · intro named before state data events consumed state' _ written
    have made : ((play state data).2.map fun rest => (data.length, rest)) = some (consumed, state') :=
      congrArg Prod.snd written
    obtain ⟨rest, -, same⟩ := Option.map_eq_some_iff.mp made
    exact (congrArg Prod.fst same).symm
  · intro named before state data fed
    obtain ⟨earlier, whole⟩ := part named
    rw [feed_scripted] at fed
    obtain ⟨done, rest, split, -, -, left⟩ := play_spec ((scripted boundary script).create named) before.flatten
    obtain rfl := left state fed
    obtain ⟨done', rest', split', short, made, -⟩ := play_spec state data
    have each : ∀ entry ∈ done', (entry.2.map Callback.size).sum ≤ 1 := fun entry mem => single entry (by
      rw [whole, split, split']
      simp [mem])
    have bound := sum_size_le each
    show ((play state data).1.map Callback.size).sum ≤ _
    rw [made]
    omega
  · intro named pieces
    rw [feed_scripted]
    obtain ⟨done, rest, split, -, made, -⟩ := play_spec ((scripted boundary script).create named) pieces.flatten
    rw [made]
    by_cases own : named = boundary
    · have whole : script = done ++ rest := by
        rw [← split]
        simp [scripted, own]
      rw [whole, List.flatMap_append, List.foldlM_append] at nested
      obtain ⟨last, all⟩ := Option.isSome_iff_exists.mp nested
      obtain ⟨inside, first, -⟩ := Option.bind_eq_some_iff.mp all
      rw [first]
      rfl
    · have nothing : done = [] := by
        have empty : (scripted boundary script).create named = [] := by simp [scripted, own]
        rw [empty] at split
        exact (List.append_eq_nil_iff.mp split.symm).1
      rw [nothing]
      rfl
  · intro named pieces pieces' same parsed
    rw [feed_scripted] at parsed ⊢
    rw [feed_scripted, ← same]
    exact ⟨parsed, rfl⟩

namespace Script

/-- Every byte delivers at most itself. -/
def Single (script : Script) : Prop := ∀ entry ∈ script, (entry.2.map Callback.size).sum ≤ 1

/-- The callbacks of the body. -/
def events (script : Script) : List Callback := script.flatMap (·.2)

theorem Single.append {first second : Script} (h : Single first) (h' : Single second) :
    Single (first ++ second) := by
  intro entry mem
  rcases List.mem_append.mp mem with early | late
  · exact h entry early
  · exact h' entry late

theorem events_append (first second : Script) : events (first ++ second) = first.events ++ second.events :=
  List.flatMap_append

/-- Bytes that the parser reads, with the callbacks behind the last of them. -/
def reads (bytes : List UInt8) (events : List Callback) : Script :=
  (bytes.dropLast.map fun b => (b, [])) ++ (bytes.getLast?.map fun b => (b, events)).toList

/-- Bytes that it delivers. -/
def delivers (bytes : List UInt8) : Script := bytes.map fun b => (b, [.partData [b]])

theorem reads_single {bytes : List UInt8} {events : List Callback}
    (silent : (events.map Callback.size).sum = 0) : (reads bytes events).Single := by
  intro entry mem
  rcases List.mem_append.mp mem with early | last
  · obtain ⟨b, -, rfl⟩ := List.mem_map.mp early
    exact Nat.zero_le 1
  · obtain ⟨b, -, rfl⟩ := Option.map_eq_some_iff.mp (Option.mem_toList.mp last)
    exact silent.trans_le (Nat.zero_le 1)

theorem delivers_single (bytes : List UInt8) : (delivers bytes).Single := by
  intro entry mem
  obtain ⟨b, -, rfl⟩ := List.mem_map.mp mem
  exact Nat.le_refl 1

theorem reads_events {bytes : List UInt8} (some_ : bytes ≠ []) (behind : List Callback) :
    (reads bytes behind).events = behind := by
  have quiet : (bytes.dropLast.map fun b => (b, ([] : List Callback))).flatMap (·.2) = [] := by
    rw [List.flatMap_map]
    exact List.flatMap_eq_nil_iff.mpr fun _ _ => rfl
  rw [events, reads, List.flatMap_append, quiet, List.getLast?_eq_some_getLast some_]
  simp

theorem delivers_events (bytes : List UInt8) :
    (delivers bytes).events = bytes.map fun b => .partData [b] := by
  rw [events, delivers, List.flatMap_map, List.map_eq_flatMap]

/-- A part with one header. -/
def part (disposition content : List UInt8) : Script :=
  reads (ascii "\r\n") [.partBegin] ++
    reads (ascii "Content-Disposition: ") [.headerField (ascii "Content-Disposition")] ++
    reads (disposition ++ ascii "\r\n") [.headerValue disposition, .headerEnd] ++
    reads (ascii "\r\n") [.headersFinished] ++ delivers content ++ reads (ascii "\r\n--x") [.partEnd]

theorem part_single (disposition content : List UInt8) : (part disposition content).Single :=
  (((((reads_single (by rfl)).append (reads_single (by rfl))).append (reads_single (by rfl))).append
    (reads_single (by rfl))).append (delivers_single content)).append (reads_single (by rfl))

theorem part_events (disposition content : List UInt8) : (part disposition content).events =
    [.partBegin, .headerField (ascii "Content-Disposition"), .headerValue disposition, .headerEnd,
      .headersFinished] ++ (content.map fun b => .partData [b]) ++ [.partEnd] := by
  have ending : ascii "\r\n" ≠ [] := by decide
  have some_ : disposition ++ ascii "\r\n" ≠ [] := fun nothing => ending (List.append_eq_nil_iff.mp nothing).2
  rw [part, events_append, events_append, events_append, events_append, events_append,
    reads_events ending, reads_events (by decide), reads_events some_, reads_events ending,
    delivers_events, reads_events (by decide)]
  rfl

/-- A part begins and ends. -/
theorem part_nests (disposition content : List UInt8) :
    (part disposition content).events.foldlM Callback.nest false = some false := by
  have inside : (content.map fun b => Callback.partData [b]).foldlM Callback.nest true = some true := by
    induction content with
    | nil => rfl
    | cons b content ih =>
      rw [List.map_cons, List.foldlM_cons]
      exact ih
  have opened : [Callback.partBegin, .headerField (ascii "Content-Disposition"), .headerValue disposition,
      .headerEnd, .headersFinished].foldlM Callback.nest false = some true := rfl
  rw [part_events, List.foldlM_append, List.foldlM_append, opened]
  simp only [Option.bind_eq_bind, Option.bind_some, inside]
  rfl

/-- The callbacks of a part whose content is delivered at once. -/
def gathered (disposition content : List UInt8) : List Callback :=
  [.partBegin, .headerField (ascii "Content-Disposition"), .headerValue disposition, .headerEnd,
    .headersFinished, .partData content, .partEnd]

theorem part_letters (disposition content : List UInt8) :
    (part disposition content).events.flatMap Callback.letters =
      (gathered disposition content).flatMap Callback.letters := by
  have each : (content.map fun b => Callback.partData [b]).flatMap Callback.letters =
      content.map fun b => .partData [b] := by
    rw [List.flatMap_map, List.map_eq_flatMap]
    rfl
  rw [part_events, List.flatMap_append, List.flatMap_append, each]
  simp [gathered, Callback.letters]

/-- A form of two parts, between the boundaries of `x`. -/
def form (first second : Script) : Script :=
  reads (ascii "--x") [] ++ first ++ second ++ reads (ascii "--") [.finished] ++ reads (ascii "\r\n") []

theorem form_single {first second : Script} (h : first.Single) (h' : second.Single) :
    (form first second).Single :=
  ((((reads_single (by rfl)).append h).append h').append (reads_single (by rfl))).append
    (reads_single (by rfl))

theorem form_events (first second : Script) :
    (form first second).events = first.events ++ second.events ++ [.finished] := by
  rw [form, events_append, events_append, events_append, events_append, reads_events (by decide),
    reads_events (by decide), reads_events (by decide), List.nil_append, List.append_nil]

theorem form_nests {first second : Script} (h : first.events.foldlM Callback.nest false = some false)
    (h' : second.events.foldlM Callback.nest false = some false) :
    ((form first second).events.foldlM Callback.nest false).isSome := by
  rw [form_events, List.foldlM_append, List.foldlM_append, h]
  simp only [Option.bind_eq_bind, Option.bind_some, h']
  rfl

end Script

def intentA : List UInt8 :=
  ascii "\x7b\"kind\":\"publish\",\"metadata\":" ++ ownedA.metadata.encoded ++ ascii ",\"operation_id\":\"" ++
    ascii ownedA.operationId.text ++ ascii "\",\"organization_id\":null,\"release_id\":\"" ++
    ascii ownedA.releaseId.text ++ ascii "\",\"storage_kind\":\"owned\"\x7d"

def intentDisposition : List UInt8 := ascii "form-data; name=\"intent\""

def fileDisposition : List UInt8 := ascii "form-data; name=\"file\"; filename=\"agent\""

def contentTypeA : List UInt8 := ascii "multipart/form-data; boundary=x"

def fileA : List UInt8 := ascii "seventeen bytes.\n"

/-- A form with an intent and a file of seventeen bytes. -/
def scriptA : Script := .form (.part intentDisposition intentA) (.part fileDisposition fileA)

/-- Readers of the texts of this form. -/
def readersA : Readers where
  parseOptionsHeader text :=
    if text = contentTypeA then (ascii "multipart/form-data", [(ascii "boundary", ascii "x")])
    else if text = intentDisposition then (ascii "form-data", [(ascii "name", ascii "intent")])
    else if text = fileDisposition then
      (ascii "form-data", [(ascii "name", ascii "file"), (ascii "filename", ascii "agent")])
    else (text, [])
  isCanonicalJson raw := raw = intentA
  validateJson raw :=
    if raw = intentA then some (.publish ownedA.operationId ownedA.releaseId none .owned (some ownedA.metadata))
    else none

/-- The form, in chunks of one byte. -/
def requestA : UploadRequest := ⟨[("content-type", contentTypeA)], scriptA.map fun entry => [entry.1]⟩

theorem scriptA_streaming : (scripted (ascii "x") scriptA).Streaming :=
  scripted_streaming (Script.form_single (Script.part_single _ _) (Script.part_single _ _))
    (Script.form_nests (Script.part_nests _ _) (Script.part_nests _ _))

/-- The callbacks of the form, each content at once. -/
def gatheredA : List Callback :=
  Script.gathered intentDisposition intentA ++ Script.gathered fileDisposition fileA ++ [.finished]

/-- What they read. -/
theorem gatheredA_read : (gatheredA.foldlM (Reading.step readersA ownedA.operationId) {}).map
    (fun out => decide (out.form.ended = true ∧ out.form.command = some ownedA ∧ out.content = fileA)) =
      .ok true := by decide +kernel

theorem scriptA_read : ∃ out,
    scriptA.events.foldlM (Reading.step readersA ownedA.operationId) {} = .ok out ∧
      out.form.ended = true ∧ out.form.command = some ownedA ∧ out.content = fileA := by
  obtain ⟨out, read, facts⟩ := map_ok gatheredA_read
  have letters : scriptA.events.flatMap Callback.letters = gatheredA.flatMap Callback.letters := by
    rw [scriptA, Script.form_events, List.flatMap_append, List.flatMap_append, Script.part_letters,
      Script.part_letters, gatheredA, List.flatMap_append, List.flatMap_append]
  obtain ⟨inside, nests⟩ := Option.isSome_iff_exists.mp
    (Script.form_nests (Script.part_nests intentDisposition intentA) (Script.part_nests fileDisposition fileA))
  have whole : gatheredA.foldlM Callback.nest false = some false := rfl
  refine ⟨out, (Reading.run_letters framed_start nests).mp ?_, of_decide_eq_true facts⟩
  exact (congrArg (List.foldlM _ _) letters).trans ((Reading.run_letters framed_start whole).mpr read)

theorem uploadA_whole : upload readersA (scripted (ascii "x") scriptA)
    { requestA with body := [requestA.body.flatten] } ownedA.operationId = ([fileA], .ok ownedA) := by
  obtain ⟨out, read, ended, command, content⟩ := scriptA_read
  have passed : UploadHeaders.check readersA requestA.headers ownedA.operationId = .ok (ascii "x", none) := by
    decide +kernel
  have bytes : requestA.body.flatten = scriptA.map Prod.fst := by
    rw [requestA, ← List.flatMap_def, List.map_eq_flatMap]
  have pieces : (Transport.ofBody [requestA.body.flatten]).pieces.flatten = scriptA.map Prod.fst := by
    rw [pieces_ofBody, List.flatten_singleton, bytes]
  have fed : (scripted (ascii "x") scriptA).feed scriptA (Transport.ofBody [requestA.body.flatten]).pieces =
      (scriptA.events, some []) := by
    rw [feed_scripted, pieces, play_whole]
    rfl
  have size : (Transport.ofBody [requestA.body.flatten]).pieces.flatten.length ≤ intentLimit ownedA := by
    rw [pieces, List.length_map]
    decide +kernel
  refine upload_accepts scriptA_streaming _ passed ⟨?_, ?_, ended, ⟨ownedA, command, ?_, ?_⟩, ?_⟩ command ?_
  · exact congrArg (·.2.isSome) fed
  · show ((scripted (ascii "x") scriptA).feed scriptA
      (Transport.ofBody [requestA.body.flatten]).pieces).1.foldlM
        (Reading.step readersA ownedA.operationId) {} = .ok out
    rw [fed]
    exact read
  · rw [content]
    decide +kernel
  · exact (Nat.zero_add _).trans_le size
  · intro n declared
    cases declared
  · rw [content]
    exact ⟨[], fileA, fun _ mem => absurd mem List.not_mem_nil, by decide +kernel, rfl, by decide +kernel⟩

/-- In one chunk the form is an upload of seventeen bytes, and so it is byte by byte. -/
theorem uploadA_fragmentation : (scripted (ascii "x") scriptA).Streaming ∧
    upload readersA (scripted (ascii "x") scriptA) { requestA with body := [requestA.body.flatten] }
      ownedA.operationId = ([fileA], .ok ownedA) ∧
    upload readersA (scripted (ascii "x") scriptA) requestA ownedA.operationId =
      ([fileA], .ok ownedA) :=
  ⟨scriptA_streaming, uploadA_whole, ((upload_fragmentation readersA (scripted (ascii "x") scriptA)
    scriptA_streaming requestA ownedA.operationId).1 [requestA.body.flatten] (by simp) ownedA
    [fileA]).mpr uploadA_whole⟩

end FreeSdn.Releases
