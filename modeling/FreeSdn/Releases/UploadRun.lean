import FreeSdn.Releases.UploadReading

/-! A stream that is pumped holds the reading of what has arrived; it completes when the reading of the whole
body does, however the body is cut. -/

namespace FreeSdn.Releases

open FreeSdn.Lib FreeSdn.Artifact
open FreeSdn.Audit (Uuid)

/-- A refusal of status 503. -/
def Refusal.Busy (e : Refusal) : Prop := ∃ message, e = .http 503 message

theorem not_busy {status : Nat} {message : String} (differs : status ≠ 503) :
    ¬ (Refusal.http status message).Busy := by
  rintro ⟨text, same⟩
  injection same with code
  exact differs code

theorem Form.framing_error {readers : Readers} {f : Form} {e : Callback} {err : Refusal}
    (h : f.framing readers e = .error err) : ¬ err.Busy := by
  cases e with
  | partBegin =>
    simp only [framing, partBegin] at h
    split at h
    · cases h
      exact not_busy (by simp)
    · cases h
  | headerEnd =>
    simp only [framing, headerEnd] at h
    split at h
    · cases h
      exact not_busy (by simp)
    · cases h
  | headersFinished =>
    simp only [framing, headersFinished] at h
    rcases require_error h with ⟨-, rfl⟩ | ⟨-, h⟩
    · exact not_busy (by simp)
    split at h
    · rcases require_error h with ⟨-, rfl⟩ | ⟨-, h⟩
      · exact not_busy (by simp)
      rcases require_error h with ⟨-, rfl⟩ | ⟨-, h⟩
      · exact not_busy (by simp)
      · cases h
    · rcases require_error h with ⟨-, rfl⟩ | ⟨-, h⟩
      · exact not_busy (by simp)
      · cases h
  | finished =>
    simp only [framing, finish] at h
    split at h
    · cases h
      exact not_busy (by simp)
    · cases h
  | _ => cases h

namespace UploadStream

variable {σ : Type} {readers : Readers} {parser : MultipartParser σ} {s s' : UploadStream σ} {a a' : Reading}
  {taken : List UInt8}

/-- The stream holds the reading, of whose content `taken` has left its queue. -/
structure Holds (s : UploadStream σ) (a : Reading) (taken : List UInt8) : Prop where
  form : s.form = a.form
  content : a.content = taken ++ s.payload.flatten
  fileBytes : s.fileBytes = a.content.length
  queued : s.queuedBytes = s.payload.flatten.length
  limit : s.limit = a.form.command.elim wireLimit intentLimit
  bounded : s.received ≤ s.limit

/-- What has arrived, or is declared to, is more than the intent allows. -/
def Exceeds (s : UploadStream σ) (q : PublicationRequest) : Prop :=
  s.received > intentLimit q ∨ s.declared.any (· > intentLimit q)

theorem handle_framing {e : Callback} (framing : e.isFraming) :
    s.handle readers e = s.framing readers e := by
  cases e
  case partData => cases framing
  case partEnd => cases framing
  all_goals rfl

/-- A callback that returns reads on. -/
theorem handle_ok {e : Callback} (h : s.Holds a taken) (ok : s.handle readers e = .ok s') :
    ∃ a', a.step readers s.operationId e = .ok a' ∧ s'.Holds a' taken ∧
      s'.queuedBytes ≤ s.queuedBytes + e.size := by
  obtain ⟨form, content, fileBytes, queued, limit, bounded⟩ := h
  by_cases framing : e.isFraming
  · rw [handle_framing framing] at ok
    obtain ⟨f, kept, rfl⟩ := map_ok ok
    rw [form] at kept
    refine ⟨{ a with form := f }, ?_, ⟨rfl, content, fileBytes, queued, ?_, bounded⟩, Nat.le_add_right _ _⟩
    · rw [Reading.step_framing framing, Reading.framing, kept]
      rfl
    · simp only [limit, (Form.framing_ok kept).1.2.1]
  cases e
  case partData data =>
    simp only [handle, partData, form] at ok
    split at ok
    · rename_i first
      obtain ⟨f, kept, rfl⟩ := map_ok ok
      refine ⟨{ a with form := f }, ?_, ⟨rfl, content, fileBytes, queued, ?_, bounded⟩, Nat.le_add_right _ _⟩
      · simp only [Reading.step, Reading.partData, if_pos first, kept]
        rfl
      · obtain ⟨rfl, -⟩ := Form.intentData_ok kept
        exact limit
    rename_i notFirst
    split at ok
    · cases ok
    rename_i q known
    split at ok
    · cases ok
    rename_i fits
    have next : a.step readers s.operationId (.partData data) =
        .ok { a with content := a.content ++ data } := by
      simp only [Reading.step, Reading.partData, if_neg notFirst, known, ← fileBytes, if_neg fits]
    split at ok
    · cases ok
    split at ok
    · rename_i nothing
      subst nothing
      obtain rfl := Except.ok.inj ok
      refine ⟨_, next, ⟨rfl, ?_, ?_, queued, limit, bounded⟩, Nat.le_add_right _ _⟩
      · simpa using content
      · simpa using fileBytes
    · obtain rfl := Except.ok.inj ok
      refine ⟨_, next, ⟨rfl, ?_, ?_, ?_, limit, bounded⟩, Nat.le_refl _⟩
      · simp [content]
      · simp [fileBytes]
      · simp [queued]
  case partEnd =>
    simp only [handle, partEnd, form] at ok
    split at ok
    · rename_i first
      split at ok
      · cases ok
      rename_i q decoded
      split at ok
      · cases ok
      rename_i below
      obtain rfl := Except.ok.inj ok
      refine ⟨{ a with form := { a.form with
        partEnds := a.form.partEnds + 1, command := some q, intent := [] } }, ?_,
        ⟨rfl, content, fileBytes, queued, rfl, Nat.le_of_not_lt fun above => below (Or.inl above)⟩,
        Nat.le_add_right _ _⟩
      simp only [Reading.step, Reading.partEnd, if_pos first, decoded]
      rfl
    · rename_i other
      obtain rfl := Except.ok.inj ok
      refine ⟨{ a with form := { a.form with partEnds := a.form.partEnds + 1 } }, ?_,
        ⟨rfl, content, fileBytes, queued, limit, bounded⟩, Nat.le_add_right _ _⟩
      simp only [Reading.step, Reading.partEnd, if_neg other]
  all_goals exact absurd rfl framing

/-- A callback that raises is no more readable, or what has arrived exceeds the intent. -/
theorem handle_error {e : Callback} {err : Refusal} (h : s.Holds a taken)
    (room : s.queuedBytes + e.size ≤ 2 * feedSize) (raised : s.handle readers e = .error err) :
    ¬ err.Busy ∧ ∀ a', a.step readers s.operationId e = .ok a' →
      ∃ q, a'.form.command = some q ∧ s.Exceeds q := by
  obtain ⟨form, content, fileBytes, queued, limit, bounded⟩ := h
  have failed {x : Except Refusal Reading} (fails : ∀ a', x ≠ .ok a') :
      ∀ a', x = .ok a' → ∃ q, a'.form.command = some q ∧ s.Exceeds q :=
    fun a' same => absurd same (fails a')
  by_cases framing : e.isFraming
  · rw [handle_framing framing, UploadStream.framing, form] at raised
    rw [Reading.step_framing framing, Reading.framing]
    cases kept : a.form.framing readers e with
    | error err' =>
      rw [kept] at raised
      obtain rfl := Except.error.inj raised
      exact ⟨Form.framing_error kept, failed fun a' same => by cases same⟩
    | ok f =>
      rw [kept] at raised
      cases raised
  cases e
  case partData data =>
    simp only [handle, partData, form] at raised
    simp only [Reading.step, Reading.partData]
    split at raised
    · rename_i first
      simp only [if_pos first]
      unfold Form.intentData at raised ⊢
      split at raised
      · rename_i long
        obtain rfl := Except.error.inj raised
        simp only [if_pos long]
        exact ⟨not_busy (by simp), failed fun a' same => by cases same⟩
      · cases raised
    rename_i notFirst
    simp only [if_neg notFirst]
    cases known : (if a.form.part = 2 then a.form.command else none) with
    | none =>
      rw [known] at raised
      obtain rfl := Except.error.inj raised
      exact ⟨not_busy (by simp), failed fun a' same => by cases same⟩
    | some q =>
    rw [known] at raised
    dsimp only at raised ⊢
    split at raised
    · rename_i long
      obtain rfl := Except.error.inj raised
      simp only [← fileBytes, if_pos long]
      exact ⟨not_busy (by simp), failed fun a' same => by cases same⟩
    split at raised
    · rename_i full
      simp only [Callback.size] at room
      omega
    split at raised
    · cases raised
    · cases raised
  case partEnd =>
    simp only [handle, partEnd, form] at raised
    simp only [Reading.step, Reading.partEnd]
    split at raised
    · rename_i first
      simp only [if_pos first]
      split at raised
      · rename_i err' undecoded
        obtain rfl := Except.error.inj raised
        rw [undecoded]
        refine ⟨?_, failed fun a' same => by cases same⟩
        unfold Form.decodeIntent at undecoded
        split at undecoded
        · obtain rfl := Except.error.inj undecoded
          exact not_busy (by simp)
        · split at undecoded
          · cases undecoded
          · obtain rfl := Except.error.inj undecoded
            exact not_busy (by simp)
        · obtain rfl := Except.error.inj undecoded
          exact not_busy (by simp)
      rename_i q decoded
      split at raised
      · rename_i exceeds
        obtain rfl := Except.error.inj raised
        rw [decoded]
        refine ⟨not_busy (by simp), ?_⟩
        rintro a' same
        obtain rfl := Except.ok.inj same
        exact ⟨q, rfl, exceeds⟩
      · cases raised
    · cases raised
  all_goals exact absurd rfl framing

/-- The callbacks of a write that returns. -/
theorem events_ok {events : List Callback} (h : s.Holds a taken)
    (ok : events.foldlM (handle readers) s = .ok s') :
    ∃ a', events.foldlM (Reading.step readers s.operationId) a = .ok a' ∧ s'.Holds a' taken := by
  induction events generalizing s a with
  | nil =>
    obtain rfl := Except.ok.inj ok
    exact ⟨a, rfl, h⟩
  | cons e events ih =>
    obtain ⟨t, one, rest⟩ := foldlM_cons_ok.mp ok
    obtain ⟨b, read, held, -⟩ := handle_ok h one
    obtain ⟨c, more, last⟩ := ih held rest
    rw [(handle_keeps one).operationId] at more
    exact ⟨c, foldlM_cons_ok.mpr ⟨b, read, more⟩, last⟩

/-- The callbacks of a write, one of which raises. -/
theorem events_error {inside inside' : Bool} {events : List Callback} {err : Refusal} (h : s.Holds a taken)
    (framed : a.Framed inside) (nests : events.foldlM Callback.nest inside = some inside')
    (room : s.queuedBytes + (events.map Callback.size).sum ≤ 2 * feedSize)
    (raised : events.foldlM (handle readers) s = .error err) :
    ¬ err.Busy ∧ ∀ a', events.foldlM (Reading.step readers s.operationId) a = .ok a' →
      ∃ q, a'.form.command = some q ∧ s.Exceeds q := by
  induction events generalizing s a inside with
  | nil => cases raised
  | cons e events ih =>
    rw [List.foldlM_cons] at nests raised
    obtain ⟨between, first, rest⟩ := Option.bind_eq_some_iff.mp nests
    rw [List.map_cons, List.sum_cons] at room
    cases one : s.handle readers e with
    | error err' =>
      rw [one] at raised
      obtain rfl := Except.error.inj raised
      obtain ⟨calm, exceeds⟩ := handle_error h (by omega) one
      refine ⟨calm, fun a' read => ?_⟩
      obtain ⟨b, step, more⟩ := foldlM_cons_ok.mp read
      obtain ⟨q, known, above⟩ := exceeds b step
      exact ⟨q, ((framed.next first step).run rest more).2 q known, above⟩
    | ok t =>
      rw [one] at raised
      obtain ⟨b, step, held, grown⟩ := handle_ok h one
      have kept := handle_keeps one
      obtain ⟨calm, exceeds⟩ := ih held (framed.next first step) rest (by omega) raised
      refine ⟨calm, fun a' read => ?_⟩
      obtain ⟨b', step', more⟩ := foldlM_cons_ok.mp read
      obtain rfl := Except.ok.inj (step.symm.trans step')
      rw [← kept.operationId] at more
      obtain ⟨q, known, above⟩ := exceeds a' more
      refine ⟨q, known, ?_⟩
      rw [Exceeds, kept.received, kept.declared] at above
      exact above

end UploadStream

/-! ### The pieces of a body -/

/-- The pieces in which a chunk is fed. -/
def cut (chunk : List UInt8) : List (List UInt8) :=
  if _some : chunk = [] then [] else chunk.take feedSize :: cut (chunk.drop feedSize)
termination_by chunk.length
decreasing_by
  have positive := List.length_pos_iff.mpr _some
  simp only [List.length_drop, feedSize]
  omega

theorem cut_nil : cut [] = [] := by
  rw [cut]
  rfl

theorem cut_some {chunk : List UInt8} (some_ : chunk ≠ []) :
    cut chunk = chunk.take feedSize :: cut (chunk.drop feedSize) := by
  rw [cut, dif_neg some_]

theorem flatten_cut (chunk : List UInt8) : (cut chunk).flatten = chunk := by
  induction chunk using cut.induct with
  | case1 => simp [cut_nil]
  | case2 chunk some_ ih => rw [cut_some some_, List.flatten_cons, ih, List.take_append_drop]

namespace Transport

/-- The pieces that are still to be fed. -/
def pieces (t : Transport) : List (List UInt8) :=
  cut (t.buffer.drop t.offset) ++ t.incoming.flatMap fun chunk => if chunk = [] then [[]] else cut chunk

theorem flatten_pieces (t : Transport) :
    t.pieces.flatten = t.buffer.drop t.offset ++ t.incoming.flatten := by
  have each (chunk : List UInt8) : (if chunk = [] then [[]] else cut chunk).flatten = chunk := by
    split
    · simp_all
    · exact flatten_cut chunk
  have rest (incoming : List (List UInt8)) :
      (incoming.flatMap fun chunk => if chunk = [] then [[]] else cut chunk).flatten = incoming.flatten := by
    induction incoming with
    | nil => rfl
    | cons chunk incoming ih => rw [List.flatMap_cons, List.flatten_append, each, ih, List.flatten_cons]
  rw [pieces, List.flatten_append, flatten_cut, rest]

theorem pieces_used {t : Transport} (used : t.offset = t.buffer.length) (last : t.incoming = []) :
    t.pieces = [] := by
  simp [pieces, used, last, cut_nil]

/-- A buffer that is not used up gives the next piece. -/
theorem pieces_advance {t : Transport} (more : t.offset ≠ t.buffer.length) :
    t.pieces = t.data :: t.advance.pieces := by
  have inside := t.inside
  have some_ : t.buffer.drop t.offset ≠ [] := by
    rw [Ne, List.drop_eq_nil_iff]
    omega
  have moved : t.buffer.drop (t.offset + t.data.length) = (t.buffer.drop t.offset).drop feedSize := by
    rw [List.drop_drop, data, List.length_take, List.length_drop]
    by_cases long : feedSize ≤ t.buffer.length - t.offset
    · rw [Nat.min_eq_left long]
    · rw [List.drop_eq_nil_of_le (by omega), List.drop_eq_nil_of_le (by omega)]
  rw [pieces, cut_some some_, pieces, advance, List.cons_append]
  simp only [moved]
  rfl

/-- A chunk that is received gives the next piece, also an empty one. -/
theorem pieces_receive {t : Transport} {chunk : List UInt8} {incoming : List (List UInt8)}
    (used : t.offset = t.buffer.length) (next : t.incoming = chunk :: incoming) :
    t.pieces = (receive chunk incoming).data :: (receive chunk incoming).advance.pieces := by
  have spent : t.pieces = (if chunk = [] then [[]] else cut chunk) ++
      incoming.flatMap fun chunk => if chunk = [] then [[]] else cut chunk := by
    simp [pieces, used, next, cut_nil]
  rw [spent]
  split
  · rename_i nothing
    subst nothing
    simp [pieces, data, receive, advance, cut_nil]
  · rename_i some_
    rw [← pieces_advance (t := receive chunk incoming) (by simpa [receive, eq_comm] using some_)]
    simp [pieces, receive]

end Transport

end FreeSdn.Releases
