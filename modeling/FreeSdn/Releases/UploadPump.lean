import FreeSdn.Releases.UploadRun

/-! One pump of an upload: the stream goes on to hold what has arrived, and the rest of the body completes it
when it could before. -/

namespace FreeSdn.Releases

open FreeSdn.Lib FreeSdn.Artifact
open FreeSdn.Audit (Uuid)

namespace UploadStream

variable {σ : Type} (readers : Readers) (parser : MultipartParser σ)

/-- The bytes that are still to be received. -/
def remaining (s : UploadStream σ) : Nat := s.transport.pieces.flatten.length

/-- The rest of the body completes the reading `a` to `out`. -/
structure Completes (s : UploadStream σ) (a out : Reading) : Prop where
  parsed : (parser.feed s.parser s.transport.pieces).2.isSome
  read : (parser.feed s.parser s.transport.pieces).1.foldlM (Reading.step readers s.operationId) a = .ok out
  ended : out.form.ended = true
  command : ∃ q, out.form.command = some q ∧ out.content.length = q.metadata.fileSize ∧
    s.received + s.remaining ≤ intentLimit q
  declared : ∀ n ∈ s.declared, s.received + s.remaining = n

/-- A stream that has been pumped as far as the reading `a`. -/
structure Going (boundary : List UInt8) (s : UploadStream σ) (a : Reading) (taken : List UInt8) : Prop where
  holds : s.Holds a taken
  live : s.closed = false
  reached : ∃ before events inside, parser.feed (parser.create boundary) before = (events, some s.parser) ∧
    events.foldlM Callback.nest false = some inside ∧ a.Framed inside
  ended : s.transport.eof = true → s.Completes readers parser a a

variable {readers parser} {boundary : List UInt8} {s s' : UploadStream σ} {a a' : Reading}
  {taken data : List UInt8} {t : Transport}

/-- The next write, in a body that the parser can stream. -/
theorem write_spec (streaming : parser.Streaming) (data : List UInt8) {before : List (List UInt8)}
    {events : List Callback} {inside : Bool} {state : σ}
    (fed : parser.feed (parser.create boundary) before = (events, some state))
    (nests : events.foldlM Callback.nest false = some inside) :
    (∃ inside', (parser.write state data).1.foldlM Callback.nest inside = some inside' ∧
      (events ++ (parser.write state data).1).foldlM Callback.nest false = some inside') ∧
    ((parser.write state data).1.map Callback.size).sum ≤ data.length + (boundary.length + 4) ∧
    ∀ consumed state', (parser.write state data).2 = some (consumed, state') → consumed = data.length ∧
      parser.feed (parser.create boundary) (before ++ [data]) =
        (events ++ (parser.write state data).1, some state') := by
  have whole : (parser.feed (parser.create boundary) (before ++ [data])) =
      (events ++ (parser.write state data).1, (parser.write state data).2.map (·.2)) := by
    rw [parser.feed_append, fed]
    simp only [MultipartParser.feed]
    rcases parser.write state data with ⟨written, _ | ⟨consumed, state'⟩⟩ <;> simp
  refine ⟨?_, streaming.bounded boundary before state data (by rw [fed]), ?_⟩
  · have nested := streaming.nested boundary (before ++ [data])
    rw [whole] at nested
    obtain ⟨inside', all⟩ := Option.isSome_iff_exists.mp nested
    refine ⟨inside', ?_, all⟩
    rw [List.foldlM_append, nests] at all
    exact all
  · intro consumed state' written
    refine ⟨streaming.consumes boundary before state data (parser.write state data).1 consumed state'
      (by rw [fed]) ?_, ?_⟩
    · rw [← written]
    · rw [whole, written]
      rfl

/-- A piece that is written leaves the rest of the body to complete what it reads. -/
theorem completes_write {events : List Callback} {consumed : Nat} {state : σ}
    (written : parser.write s.parser data = (events, some (consumed, state)))
    (read : events.foldlM (Reading.step readers s.operationId) a = .ok a')
    (split : s.transport.pieces = data :: s'.transport.pieces) (same : s'.parser = state)
    (received : s'.received = s.received + data.length) (declared : s'.declared = s.declared)
    (operationId : s'.operationId = s.operationId) (out : Reading) :
    s.Completes readers parser a out ↔ s'.Completes readers parser a' out := by
  have fed : parser.feed s.parser s.transport.pieces =
      (events ++ (parser.feed s'.parser s'.transport.pieces).1,
        (parser.feed s'.parser s'.transport.pieces).2) := by
    rw [split, MultipartParser.feed_returns _ written, same]
  have total : s.received + s.remaining = s'.received + s'.remaining := by
    rw [received, remaining, remaining, split, List.flatten_cons, List.length_append, Nat.add_assoc]
  have reads : (events ++ (parser.feed s'.parser s'.transport.pieces).1).foldlM
        (Reading.step readers s.operationId) a = .ok out ↔
      (parser.feed s'.parser s'.transport.pieces).1.foldlM
        (Reading.step readers s'.operationId) a' = .ok out := by
    rw [foldlM_append_ok, operationId]
    constructor
    · rintro ⟨next, first, rest⟩
      obtain rfl := Except.ok.inj (read.symm.trans first)
      exact rest
    · exact fun rest => ⟨a', read, rest⟩
  constructor
  · rintro ⟨parsed, all, ended, command, length⟩
    rw [fed] at parsed all
    rw [total] at command length
    exact ⟨parsed, reads.mp all, ended, command, declared ▸ length⟩
  · rintro ⟨parsed, rest, ended, command, length⟩
    refine ⟨by rw [fed]; exact parsed, by rw [fed]; exact reads.mpr rest, ended, ?_, ?_⟩
    · rw [total]
      exact command
    · rw [total, ← declared]
      exact length

/-- A body that can be completed is well framed to its end, and keeps the command that it has. -/
theorem completes_run (streaming : parser.Streaming) (g : s.Going readers parser boundary a taken)
    {out : Reading} (c : s.Completes readers parser a out) :
    (∃ inside, out.Framed inside) ∧ ∀ events rest next q,
      (parser.feed s.parser s.transport.pieces).1 = events ++ rest →
        events.foldlM (Reading.step readers s.operationId) a = .ok next →
          next.form.command = some q → out.form.command = some q := by
  obtain ⟨before, first, inside, fed, nests, framed⟩ := g.reached
  have nested := streaming.nested boundary (before ++ s.transport.pieces)
  rw [parser.feed_append, fed] at nested
  obtain ⟨inside', all⟩ := Option.isSome_iff_exists.mp nested
  simp only [List.foldlM_append, nests] at all
  refine ⟨⟨inside', (framed.run all c.read).1⟩, fun events rest next q split read known => ?_⟩
  have whole := c.read
  rw [split] at whole
  rw [split] at all
  obtain ⟨next', read', last⟩ := foldlM_append_ok.mp whole
  obtain rfl := Except.ok.inj (read.symm.trans read')
  have both : (events ++ rest).foldlM Callback.nest inside = some inside' := all
  rw [List.foldlM_append] at both
  obtain ⟨between, nests₁, nests₂⟩ := Option.bind_eq_some_iff.mp both
  exact ((framed.run nests₁ read).1.run nests₂ last).2 q known

/-- What is completed stays within the limit at every point. -/
theorem completes_within (streaming : parser.Streaming) (g : s.Going readers parser boundary a taken)
    {out : Reading} (c : s.Completes readers parser a out) : s.received + s.remaining ≤ s.limit := by
  obtain ⟨⟨inside, framed⟩, keeps⟩ := completes_run streaming g c
  obtain ⟨q, known, -, within⟩ := c.command
  rw [g.holds.limit]
  cases early : a.form.command with
  | some q' =>
    obtain rfl := Option.some.inj (known.symm.trans (keeps [] _ a q' rfl rfl early))
    exact within
  | none =>
    have valid := q.valid
    have owned := framed.owned q known
    have small : q.metadata.fileSize ≤ 524288000 := by
      simp only [publicationValid, owned, if_true, Bool.and_eq_true, Metadata.ownedBy] at valid
      simpa using valid.2.1.1.1
    refine within.trans ?_
    simp only [intentLimit, Option.elim_none, wireLimit, maxFile]
    omega

/-- A piece that is fed. -/
theorem feed_ok (streaming : parser.Streaming) (g : s.Going readers parser boundary a taken)
    (split : s.transport.pieces = data :: t.pieces) (running : t.eof = false)
    (ok : feed readers parser { s with transport := t } data = .ok s') :
    ∃ a', s'.Going readers parser boundary a' taken ∧
      ∀ out, s.Completes readers parser a out ↔ s'.Completes readers parser a' out := by
  obtain ⟨before, events, inside, fed, nests, framed⟩ := g.reached
  obtain ⟨⟨inside', nested, all⟩, -, next⟩ := write_spec streaming data fed nests
  obtain ⟨within, ok⟩ := require_bind ok
  simp only [Bool.not_eq_true', Bool.or_eq_false_iff, decide_eq_false_iff_not, gt_iff_lt,
    Nat.not_lt] at within
  have held : ({ s with transport := t, received := s.received + data.length } : UploadStream σ).Holds a taken :=
    ⟨g.holds.form, g.holds.content, g.holds.fileBytes, g.holds.queued, g.holds.limit, within.1⟩
  obtain ⟨m, handled, ok⟩ := bind_ok ok
  obtain ⟨a', read, holds⟩ := events_ok held handled
  have kept := foldlM_keeps handled
  rcases written : parser.write s.parser data with ⟨es, _ | ⟨consumed, state⟩⟩
  · simp only [written] at ok
    cases ok
  · simp only [written] at ok read nested all next
    obtain ⟨-, ok⟩ := require_bind ok
    obtain rfl := Except.ok.inj ok
    obtain ⟨-, reached⟩ := next consumed state rfl
    refine ⟨a', ⟨⟨holds.form, holds.content, holds.fileBytes, holds.queued, holds.limit, holds.bounded⟩,
      kept.closed.trans g.live, ⟨_, _, inside', reached, all, (framed.run nested read).1⟩, ?_⟩, ?_⟩
    · intro spent
      rw [kept.transport, running] at spent
      cases spent
    · refine completes_write written read ?_ rfl kept.received kept.declared kept.operationId
      rw [split, kept.transport]

/-- A piece that is refused, or of which a callback raises: the body cannot be completed. -/
theorem feed_error (streaming : parser.Streaming) (short : boundary.length ≤ 70)
    (g : s.Going readers parser boundary a taken) (idle : s.queuedBytes = 0)
    (split : s.transport.pieces = data :: t.pieces) (fits : data.length ≤ feedSize) {err : Refusal}
    (raised : feed readers parser { s with transport := t } data = .error err) :
    ¬ err.Busy ∧ ∀ out, ¬ s.Completes readers parser a out := by
  obtain ⟨before, events, inside, fed, nests, framed⟩ := g.reached
  obtain ⟨⟨inside', nested, -⟩, room, next⟩ := write_spec streaming data fed nests
  have arrived : s.received + data.length ≤ s.received + s.remaining := by
    rw [remaining, split, List.flatten_cons, List.length_append]
    omega
  rcases require_error raised with ⟨outside, rfl⟩ | ⟨within, raised⟩
  · refine ⟨not_busy (by simp), fun out c => ?_⟩
    have bound := completes_within streaming g c
    simp only [Bool.not_eq_false', Bool.or_eq_true, decide_eq_true_iff, Option.any_eq_true] at outside
    rcases outside with above | ⟨n, known, above⟩
    · omega
    · have exact_ := c.declared n known
      omega
  simp only [Bool.not_eq_true', Bool.or_eq_false_iff, decide_eq_false_iff_not, gt_iff_lt,
    Nat.not_lt] at within
  have held : ({ s with transport := t, received := s.received + data.length } : UploadStream σ).Holds a taken :=
    ⟨g.holds.form, g.holds.content, g.holds.fileBytes, g.holds.queued, g.holds.limit, within.1⟩
  rcases written : parser.write s.parser data with ⟨es, _ | ⟨consumed, state⟩⟩
  · have broken : ∀ out, ¬ s.Completes readers parser a out := by
      intro out c
      have parsed := c.parsed
      rw [split, MultipartParser.feed_raises _ written] at parsed
      cases parsed
    rw [written] at nested room
    simp only [written] at raised
    rcases bind_error raised with raised | ⟨m, -, raised⟩
    · have space : s.queuedBytes + (es.map Callback.size).sum ≤ 2 * feedSize := by
        simp only [idle, feedSize] at fits room ⊢
        omega
      exact ⟨(events_error held framed nested space raised).1, broken⟩
    · obtain rfl := Except.error.inj raised
      exact ⟨not_busy (by simp), broken⟩
  · rw [written] at nested room next
    simp only [written] at raised
    rcases bind_error raised with raised | ⟨m, -, raised⟩
    · have space : s.queuedBytes + (es.map Callback.size).sum ≤ 2 * feedSize := by
        simp only [idle, feedSize] at fits room ⊢
        omega
      obtain ⟨calm, exceeds⟩ := events_error held framed nested space raised
      refine ⟨calm, fun out c => ?_⟩
      have fed_rest := MultipartParser.feed_returns t.pieces written
      rw [← split] at fed_rest
      have read := c.read
      simp only [fed_rest] at read
      obtain ⟨next', first, -⟩ := foldlM_append_ok.mp read
      obtain ⟨q, known, above⟩ := exceeds next' first
      have last := (completes_run streaming g c).2 es _ next' q (by rw [fed_rest]) first known
      obtain ⟨q', known', -, below⟩ := c.command
      obtain rfl := Option.some.inj (last.symm.trans known')
      rcases above with above | above
      · simp only at above
        omega
      · obtain ⟨n, declared, above⟩ := (Option.any_eq_true _ _).mp above
        have exact_ := c.declared n declared
        simp only [decide_eq_true_iff] at above
        omega
    · obtain ⟨all, -⟩ := next consumed state rfl
      rcases require_error raised with ⟨partly, -⟩ | ⟨-, returned⟩
      · simp [all] at partly
      · cases returned

theorem data_le (t : Transport) : t.data.length ≤ feedSize := List.length_take_le _ _

/-- What the end of the body requires is that the reading is complete. -/
theorem completes_end (g : s.Going readers parser boundary a taken) (done : s.transport.pieces = []) :
    s.checkEnd = .ok () ↔ s.Completes readers parser a a := by
  have form := g.holds.form
  have fileBytes := g.holds.fileBytes
  have limit := g.holds.limit
  have bounded := g.holds.bounded
  have nothing : s.remaining = 0 := by rw [remaining, done]; rfl
  have fed : parser.feed s.parser s.transport.pieces = ([], some s.parser) := by
    rw [done, MultipartParser.feed]
  constructor
  · intro passed
    have all := require_ok passed
    simp only [Bool.and_eq_true, Option.any_eq_true, Option.all_eq_true, decide_eq_true_iff] at all
    obtain ⟨⟨ended, q, known, size⟩, length⟩ := all
    rw [form] at ended known
    refine ⟨by rw [fed]; rfl, by rw [fed]; rfl, ended, ⟨q, known, by omega, ?_⟩, ?_⟩
    · rw [known] at limit
      rw [nothing, Nat.add_zero]
      exact bounded.trans_eq limit
    · intro n declared
      rw [nothing, Nat.add_zero]
      exact length n declared
  · rintro ⟨-, -, ended, ⟨q, known, size, -⟩, length⟩
    have known' : s.form.command = some q := form ▸ known
    have all : (s.form.ended && s.form.command.any (fun q => s.fileBytes = q.metadata.fileSize) &&
        s.declared.all fun declared => s.received = declared) = true := by
      rw [nothing, Nat.add_zero] at length
      simp only [form, ended, Bool.true_and, Bool.and_eq_true, Option.all_eq_true, decide_eq_true_iff]
      refine ⟨?_, length⟩
      simp [known, fileBytes, size]
    rw [checkEnd, all]
    rfl

/-- A pump that returns. -/
theorem pump_ok (streaming : parser.Streaming) (g : s.Going readers parser boundary a taken)
    (ok : s.pump readers parser = .ok s') :
    ∃ a', s'.Going readers parser boundary a' taken ∧
      ∀ out, s.Completes readers parser a out ↔ s'.Completes readers parser a' out := by
  unfold pump at ok
  split at ok
  · cases ok
  rename_i open_
  have running : s.transport.eof = false := by simpa using fun ended => open_ (Or.inr ended)
  split at ok
  · rename_i used
    split at ok
    · rename_i last
      obtain ⟨_, passed, rfl⟩ := map_ok ok
      have same (out : Reading) : s.Completes readers parser a out ↔
          ({ s with transport := s.transport.finish } : UploadStream σ).Completes readers parser a out :=
        ⟨fun ⟨p, r, e, c, d⟩ => ⟨p, r, e, c, d⟩, fun ⟨p, r, e, c, d⟩ => ⟨p, r, e, c, d⟩⟩
      have complete := (same a).mp ((completes_end g (Transport.pieces_used used last)).mp passed)
      exact ⟨a, ⟨⟨g.holds.form, g.holds.content, g.holds.fileBytes, g.holds.queued, g.holds.limit,
        g.holds.bounded⟩, g.live, g.reached, fun _ => complete⟩, same⟩
    · rename_i chunk incoming next
      exact feed_ok streaming g (Transport.pieces_receive used next) rfl ok
  · rename_i more
    exact feed_ok streaming g (Transport.pieces_advance more) running ok

/-- A pump that raises: the body cannot be completed, and nothing was full. -/
theorem pump_error (streaming : parser.Streaming) (short : boundary.length ≤ 70)
    (g : s.Going readers parser boundary a taken) (running : s.transport.eof = false)
    (idle : s.queuedBytes = 0) {err : Refusal} (raised : s.pump readers parser = .error err) :
    ¬ err.Busy ∧ ∀ out, ¬ s.Completes readers parser a out := by
  have open_ : ¬ (s.closed ∨ s.transport.eof) := by simp [g.live, running]
  rw [pump, if_neg open_] at raised
  split at raised
  · rename_i used
    split at raised
    · rename_i last
      have done := Transport.pieces_used used last
      have checked : s.checkEnd = .error err := map_error raised
      refine ⟨?_, fun out c => ?_⟩
      · unfold checkEnd require at checked
        split at checked
        · cases checked
        · exact Except.error.inj checked ▸ not_busy (by simp)
      · have read := c.read
        rw [done, MultipartParser.feed] at read
        obtain rfl := Except.ok.inj read
        rw [(completes_end g done).mpr c] at checked
        cases checked
    · rename_i chunk incoming next
      exact feed_error streaming short g idle (Transport.pieces_receive used next) (data_le _) raised
  · rename_i more
    exact feed_error streaming short g idle (Transport.pieces_advance more) (data_le _) raised

end UploadStream

end FreeSdn.Releases
