import FreeSdn.Lib.Decoder
import FreeSdn.Lib.Except

/-! The bounded inflation of a backup (`_bounded_gunzip` of `services/backup.py`) beside the inflation
of a whole gzip stream: one object reads one member, and nothing looks at where the member ended. -/

namespace FreeSdn.Backup

open FreeSdn.Lib

/-! ### Gzip -/

/-- The inflater of one gzip member; a complete member is not empty and does not start with a zero. -/
structure Gzip (σ : Type) extends Decoder σ UInt8 UInt8 where
  unended : ended start = false
  magic : ∀ m out t, toDecoder.decode start (0 :: m) = some (out, t, []) → ended t = false

variable {σ : Type} (z : Gzip σ)

/-- `m` is a complete member that inflates to `out`. -/
def Gzip.Member (m out : List UInt8) : Prop :=
  ∃ t, z.decode z.start m = some (out, t, []) ∧ z.ended t = true

/-- What may follow a member: zeros and further members, which inflate to `out`. -/
inductive Gzip.Tail : List UInt8 → List UInt8 → Prop
  | nil : Gzip.Tail [] []
  | zero {rest out : List UInt8} : Gzip.Tail rest out → Gzip.Tail (0 :: rest) out
  | member {m first rest out : List UInt8} :
      z.Member m first → Gzip.Tail rest out → Gzip.Tail (m ++ rest) (first ++ out)

/-- `p` is a gzip stream of one or more members that inflates to `out`. -/
def Gzip.Stream (p out : List UInt8) : Prop :=
  ∃ m first rest more, p = m ++ rest ∧ z.Member m first ∧ z.Tail rest more ∧ out = first ++ more

/-! ### `_bounded_gunzip` -/

inductive GunzipError
  | zlib
  | backupInput (message : String)
  deriving DecidableEq, Repr

def chunk : Nat := 1048576

/-- The slices `payload[i : i + chunk]`. -/
def slices (payload : List UInt8) : List (List UInt8) :=
  (List.range ((payload.length + chunk - 1) / chunk)).map fun i => (payload.drop (i * chunk)).take chunk

def exceeds (limit : Nat) : GunzipError :=
  .backupInput ("Decompressed backup exceeds " ++ toString (limit / (1024 * 1024)) ++
    " MB limit — refusing to inflate (possible decompression bomb)")

/-- The loop over the slices: the sizes of `out`, and what is returned or raised. -/
def inflate (limit : Nat) : List (List UInt8) → Decompress σ UInt8 UInt8 → List UInt8 →
    List Nat × Except GunzipError (List UInt8)
  | [], dec, out =>
    let out := out ++ z.flush dec
    ([out.length],
      if limit < out.length then .error (.backupInput "Decompressed backup exceeds size limit")
      else .ok out)
  | slice :: slices, dec, out =>
    match z.decompress dec slice (limit - out.length + 1) with
    | none => ([], .error .zlib)
    | some (more, dec) =>
      let out := out ++ more
      if limit < out.length then ([out.length], .error (exceeds limit))
      else
        let rest := inflate limit slices dec out
        (out.length :: rest.1, rest.2)

/-- `_bounded_gunzip`. -/
def boundedGunzip (payload : List UInt8) (limit : Nat) : List Nat × Except GunzipError (List UInt8) :=
  inflate z limit (slices payload) { state := z.start } []

/-- `MAX_BACKUP_IMPORT_BYTES`. -/
def maxBackupImportBytes : Nat := 200 * 1024 * 1024

/-! ### Streams -/

variable {z} {p m out first rest more : List UInt8} {limit : Nat}

theorem Gzip.Member.decode (member : z.Member m first) (rest : List UInt8) :
    ∃ t, z.toDecoder.decode z.start (m ++ rest) = some (first, t, rest) ∧ z.ended t = true := by
  obtain ⟨t, run, ended⟩ := member
  exact ⟨t, Decoder.decode_behind run ended, ended⟩

theorem Gzip.Member.cons (member : z.Member m first) : ∃ b m', m = b :: m' ∧ b ≠ 0 := by
  obtain ⟨t, run, ended⟩ := member
  cases m with
  | nil =>
    obtain ⟨-, rfl, -⟩ : [] = first ∧ z.start = t ∧ [] = ([] : List UInt8) := by
      simpa [Decoder.decode] using run
    rw [z.unended] at ended
    cases ended
  | cons b m' =>
    refine ⟨b, m', rfl, ?_⟩
    rintro rfl
    rw [z.magic m' first t run] at ended
    cases ended

/-- A tail inflates to one thing. -/
theorem Gzip.Tail.unique (tail : z.Tail rest out) (other : z.Tail rest more) : out = more := by
  induction tail generalizing more with
  | nil =>
    generalize nothing : ([] : List UInt8) = rest at other
    cases other with
    | nil => rfl
    | zero => cases nothing
    | member member tail =>
      obtain ⟨b, m', rfl, -⟩ := member.cons
      cases nothing
  | @zero rest out tail ih =>
    generalize same : (0 :: rest : List UInt8) = rest' at other
    cases other with
    | nil => cases same
    | zero other =>
      obtain rfl := (List.cons.inj same).2
      exact ih other
    | member member other =>
      obtain ⟨b, m', rfl, starts⟩ := member.cons
      exact absurd (List.cons.inj same).1.symm starts
  | @member m first rest out member tail ih =>
    generalize same : m ++ rest = rest' at other
    cases other with
    | nil =>
      obtain ⟨b, m', rfl, -⟩ := member.cons
      cases same
    | zero other =>
      obtain ⟨b, m', rfl, starts⟩ := member.cons
      exact absurd (List.cons.inj same).1 starts
    | @member n second rest' out' member' other =>
      obtain ⟨t, run, -⟩ := member.decode rest
      obtain ⟨t', run', -⟩ := member'.decode rest'
      rw [same, run'] at run
      obtain ⟨rfl, -, rfl⟩ : second = first ∧ t' = t ∧ rest' = rest := by simpa using run
      rw [ih other]

/-- A stream is what its first member is, with a tail behind it. -/
theorem Gzip.stream_iff : z.Stream p out ↔ ∃ first t rest more,
    z.toDecoder.decode z.start p = some (first, t, rest) ∧ z.ended t = true ∧ z.Tail rest more ∧
      out = first ++ more := by
  constructor
  · rintro ⟨m, first, rest, more, rfl, member, tail, rfl⟩
    obtain ⟨t, run, ended⟩ := member.decode rest
    exact ⟨first, t, rest, more, run, ended, tail, rfl⟩
  · rintro ⟨first, t, rest, more, run, ended, tail, rfl⟩
    obtain ⟨front, rfl, decoded⟩ := Decoder.decode_front run
    exact ⟨front, first, rest, more, rfl, ⟨t, decoded, ended⟩, tail, rfl⟩

/-! ### The loop -/

/-- Between two slices: everything so far is decoded and returned, within the limit. -/
structure Between (z : Gzip σ) (limit : Nat) (consumed : List UInt8) (dec : Decompress σ UInt8 UInt8)
    (out : List UInt8) : Prop where
  decoded : ∃ rest, z.toDecoder.decode z.start consumed = some (out, dec.state, rest)
  returned : dec.pending = []
  used : dec.unconsumedTail = []
  within : out.length ≤ limit

variable {consumed slice : List UInt8} {dec dec' : Decompress σ UInt8 UInt8} {ss : List (List UInt8)}

/-- A slice that leaves the output within the limit. -/
theorem Between.next (b : Between z limit consumed dec out)
    (made : z.decompress dec slice (limit - out.length + 1) = some (more, dec'))
    (within : (out ++ more).length ≤ limit) : Between z limit (consumed ++ slice) dec' (out ++ more) := by
  obtain ⟨rest, decoded⟩ := b.decoded
  have room := b.within
  rw [List.length_append] at within
  obtain ⟨⟨t, held, left⟩, fed, same⟩ := Option.map_eq_some_iff.mp made
  obtain ⟨taken, kept⟩ : held.take (limit - out.length + 1) = more ∧ _ = dec' := by simpa using same
  subst kept
  have short : held.length < limit - out.length + 1 := by
    have := congrArg List.length taken
    rw [List.length_take] at this
    omega
  rw [b.returned] at fed
  obtain ⟨gained, rfl, run⟩ := Decoder.feed_short fed short
  rw [List.take_of_length_le (Nat.le_of_lt short)] at taken
  subst taken
  refine ⟨⟨rest ++ left, ?_⟩, ?_, ?_, by rwa [List.length_append]⟩
  · rw [Decoder.decode_append, decoded, Option.bind_some]
    dsimp only
    rw [run]
    rfl
  · exact List.drop_of_length_le (Nat.le_of_lt short)
  · dsimp only
    split
    · rfl
    · rename_i going
      exact (Decoder.decode_rest run).resolve_left (by simpa using going)

/-- A slice whose output exceeds the limit, or that is corrupt: nothing that follows can be within. -/
theorem Between.stop (b : Between z limit consumed dec out)
    (stops : ∀ more dec', z.decompress dec slice (limit - out.length + 1) = some (more, dec') →
      limit < (out ++ more).length) {whole left : List UInt8} {t : σ}
    (run : z.toDecoder.decode z.start (consumed ++ (slice ++ ss.flatten)) = some (whole, t, left)) :
    limit < whole.length := by
  obtain ⟨rest, decoded⟩ := b.decoded
  rw [Decoder.decode_append, decoded, Option.bind_some] at run
  dsimp only at run
  rw [Decoder.decode_append] at run
  obtain ⟨⟨later, u, rest'⟩, second, same⟩ := Option.map_eq_some_iff.mp run
  obtain ⟨rfl, -, -⟩ : out ++ later = whole ∧ u = t ∧ rest ++ rest' = left := by simpa using same
  obtain ⟨⟨here, v, rest₁⟩, now, second⟩ := Option.bind_eq_some_iff.mp second
  obtain ⟨⟨behind, v', rest₂⟩, -, same⟩ := Option.map_eq_some_iff.mp second
  obtain ⟨rfl, -, -⟩ : here ++ behind = later ∧ v' = u ∧ rest₁ ++ rest₂ = rest' := by simpa using same
  have room := b.within
  cases fed : z.feed (limit - out.length + 1) dec.state dec.pending slice with
  | none =>
    rw [Decoder.feed_none fed] at now
    cases now
  | some found =>
    obtain ⟨s', held, left'⟩ := found
    obtain ⟨dec', made⟩ : ∃ dec', z.decompress dec slice (limit - out.length + 1) =
        some (held.take (limit - out.length + 1), dec') := by
      rw [Decoder.decompress, fed]
      exact ⟨_, rfl⟩
    have long := stops _ _ made
    rw [List.length_append, List.length_take] at long
    rw [b.returned] at fed
    have enough := Decoder.feed_long fed (by omega) now
    simp only [List.length_append, List.nil_append] at enough ⊢
    omega

/-- What the loop returns is the output of the first member, as far as it is there. -/
theorem inflate_ok {x : List UInt8} (b : Between z limit consumed dec out) :
    (inflate z limit ss dec out).2 = .ok x ↔ x.length ≤ limit ∧
      ∃ t rest, z.toDecoder.decode z.start (consumed ++ ss.flatten) = some (x, t, rest) := by
  induction ss generalizing consumed dec out with
  | nil =>
    obtain ⟨rest, decoded⟩ := b.decoded
    have nothing : z.flush dec = [] := by
      rw [Decoder.flush, b.returned, b.used]
      rfl
    have room := b.within
    rw [inflate, nothing, List.append_nil, List.flatten_nil, List.append_nil, decoded]
    dsimp only
    rw [if_neg (by omega)]
    constructor
    · intro same
      obtain rfl := Except.ok.inj same
      exact ⟨room, _, _, rfl⟩
    · rintro ⟨-, t, rest', same⟩
      rw [(Prod.mk.inj (Option.some.inj same)).1]
  | cons slice ss ih =>
    rw [inflate, List.flatten_cons]
    cases made : z.decompress dec slice (limit - out.length + 1) with
    | none =>
      constructor
      · intro same
        cases same
      · rintro ⟨within, t, rest, run⟩
        have long := b.stop (by simp [made]) run
        omega
    | some found =>
      obtain ⟨more, dec'⟩ := found
      dsimp only
      split
      · rename_i long
        constructor
        · intro same
          cases same
        · rintro ⟨within, t, rest, run⟩
          have longer := b.stop (fun more' dec'' again => by
            obtain ⟨rfl, -⟩ : more = more' ∧ dec' = dec'' := by simpa using made.symm.trans again
            exact long) run
          omega
      · rename_i within
        rw [← List.append_assoc]
        exact ih (b.next made (by omega))

/-- The output never holds more than one byte beyond the limit. -/
theorem inflate_held (b : Between z limit consumed dec out) :
    ∀ n ∈ (inflate z limit ss dec out).1, n ≤ limit + 1 := by
  induction ss generalizing consumed dec out with
  | nil =>
    have nothing : z.flush dec = [] := by
      rw [Decoder.flush, b.returned, b.used]
      rfl
    have room := b.within
    intro n mem
    rw [inflate, nothing, List.append_nil] at mem
    obtain rfl := List.mem_singleton.mp mem
    omega
  | cons slice ss ih =>
    intro n mem
    rw [inflate] at mem
    cases made : z.decompress dec slice (limit - out.length + 1) with
    | none =>
      rw [made] at mem
      cases mem
    | some found =>
      obtain ⟨more, dec'⟩ := found
      rw [made] at mem
      have room := b.within
      have bound : (out ++ more).length ≤ limit + 1 := by
        obtain ⟨⟨s', held, left⟩, -, same⟩ := Option.map_eq_some_iff.mp made
        obtain ⟨taken, -⟩ : held.take (limit - out.length + 1) = more ∧ _ = dec' := by simpa using same
        have size := congrArg List.length taken
        rw [List.length_take] at size
        rw [List.length_append]
        omega
      dsimp only at mem
      split at mem
      · obtain rfl := List.mem_singleton.mp mem
        exact bound
      · rename_i within
        rcases List.mem_cons.mp mem with rfl | later
        · exact bound
        · exact ih (b.next made (by omega)) n later

theorem flatten_slices (payload : List UInt8) : (slices payload).flatten = payload := by
  have part (k : Nat) : ((List.range k).map fun i => (payload.drop (i * chunk)).take chunk).flatten =
      payload.take (k * chunk) := by
    induction k with
    | zero => simp
    | succ k ih =>
      rw [List.range_succ, List.map_append, List.flatten_append, ih, Nat.succ_mul, List.take_add]
      simp
  rw [slices, part]
  apply List.take_of_length_le
  unfold chunk
  omega

theorem between_start : Between z limit [] { state := z.start } [] where
  decoded := ⟨[], rfl⟩
  returned := rfl
  used := rfl
  within := Nat.zero_le limit

theorem boundedGunzip_ok : (boundedGunzip z p limit).2 = .ok out ↔ out.length ≤ limit ∧
    ∃ t rest, z.toDecoder.decode z.start p = some (out, t, rest) := by
  rw [boundedGunzip, inflate_ok between_start, List.nil_append, flatten_slices]

/-! ### Plain and bounded inflation -/

/-- Exactly the streams within the limit are inflated, and no more than one byte beyond it is held. -/
def Meets (z : Gzip σ) (p : List UInt8) (limit : Nat) : Prop :=
  (∀ out, (boundedGunzip z p limit).2 = .ok out ↔ z.Stream p out ∧ out.length ≤ limit) ∧
    ∀ n ∈ (boundedGunzip z p limit).1, n ≤ limit + 1

/-- If the inflater does not fail and the first member inflates to something within the limit, then that
member is complete and only zeros and members that inflate to nothing follow. -/
def Alone (z : Gzip σ) (p : List UInt8) (limit : Nat) : Prop :=
  ∀ first t rest, z.toDecoder.decode z.start p = some (first, t, rest) → first.length ≤ limit →
    z.ended t = true ∧ z.Tail rest []

theorem Meets.alone (meets : Meets z p limit) : Alone z p limit := by
  intro first t rest run within
  obtain ⟨stream, -⟩ := (meets.1 first).mp (boundedGunzip_ok.mpr ⟨within, t, rest, run⟩)
  obtain ⟨first', t', rest', more, run', ended, tail, whole⟩ := Gzip.stream_iff.mp stream
  rw [run] at run'
  obtain ⟨rfl, rfl, rfl⟩ : first = first' ∧ t = t' ∧ rest = rest' := by simpa using run'
  obtain rfl : more = [] := List.self_eq_append_right.mp whole
  exact ⟨ended, tail⟩

/-- Bounded inflation is plain inflation where the first member is all there is. -/
theorem boundedGunzip_meets (z : Gzip σ) (p : List UInt8) (limit : Nat) :
    Meets z p limit ↔ Alone z p limit := by
  constructor
  · exact Meets.alone
  · intro alone
    refine ⟨fun out => ?_, inflate_held between_start⟩
    rw [boundedGunzip_ok, Gzip.stream_iff]
    constructor
    · rintro ⟨within, t, rest, run⟩
      obtain ⟨ended, tail⟩ := alone out t rest run within
      exact ⟨⟨out, t, rest, [], run, ended, tail, (List.append_nil out).symm⟩, within⟩
    · rintro ⟨⟨first, t, rest, more, run, ended, tail, rfl⟩, within⟩
      have short : first.length ≤ limit := by
        rw [List.length_append] at within
        omega
      obtain rfl := tail.unique (alone first t rest run short).2
      rw [List.append_nil] at within ⊢
      exact ⟨within, t, rest, run⟩

/-! ### Broken archives -/

/-- What `gzip` writes for `b"hi"`. -/
def hi : List UInt8 :=
  [31, 139, 8, 0, 0, 0, 0, 0, 2, 3, 203, 200, 4, 0, 172, 42, 147, 216, 2, 0, 0, 0]

/-- The inflater on that member: the state is what was read.  The first two bytes are checked together. -/
def hiGzip : Gzip (List UInt8) where
  start := []
  read := fun front b =>
    if front = [] ∨ (front ++ [b]).isPrefixOf hi then
      some (if front.length = 11 then [104] else if front.length = 12 then [105] else [], front ++ [b])
    else none
  ended := fun front => front = hi
  unended := rfl
  magic := by
    intro m out t run
    cases m with
    | nil =>
      obtain ⟨-, rfl⟩ : [] = out ∧ [0] = t := by simpa [Decoder.decode, hi] using run
      decide
    | cons b m => simp [Decoder.decode, hi] at run

/-- A lone zero and an archive that was cut before its checksum are restored, and of two members only the
first is. -/
theorem cut_and_joined : ¬ Meets hiGzip (hi.take 14) maxBackupImportBytes ∧
    ¬ Meets hiGzip (hi ++ hi) maxBackupImportBytes ∧ ¬ Meets hiGzip [0] maxBackupImportBytes := by
  refine ⟨fun meets => ?_, fun meets => ?_, fun meets => ?_⟩
  · have ended := (meets.alone [104, 105] (hi.take 14) [] (by decide) (by decide)).1
    exact absurd ended (by decide)
  · have tail := (meets.alone [104, 105] hi hi (by decide) (by decide)).2
    have member : hiGzip.Member hi [104, 105] := ⟨hi, by decide, by decide⟩
    have second : hiGzip.Tail (hi ++ []) ([104, 105] ++ []) := .member member .nil
    rw [List.append_nil] at second
    exact absurd (second.unique tail) (by decide)
  · have ended := (meets.alone [] [0] [] (by decide) (by decide)).1
    exact absurd ended (by decide)

end FreeSdn.Backup
