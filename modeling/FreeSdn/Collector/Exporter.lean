import FreeSdn.Collector.Templates
import Mathlib.Algebra.Ring.Nat

/-! An exporter of version 9 packets.  The packets of its stream define templates, and define them
again, and carry records of the templates in force.  Decoding the stream gives back the flows that the
records encode. -/

namespace FreeSdn.Collector

/-! ### Packets -/

/-- A number in two bytes. -/
def word (n : Nat) : Bytes := [UInt8.ofNat (n / 256), UInt8.ofNat n]

/-- A definition that an exporter sends.  Its records are not empty. -/
structure TemplateRecord where
  id : Nat
  fields : Template
  assigned : 256 ≤ id ∧ id < 65536
  countFits : fields.length < 65536
  fieldFits : ∀ field ∈ fields, field.1 < 65536 ∧ field.2 < 65536
  positive : 0 < recordSize fields

inductive FlowSet
  | templates (records : List TemplateRecord) (padding : Bytes)
  | data (id : Nat) (records : List (List Bytes)) (padding : Bytes)
  | other (id : Nat) (content : Bytes)

def encodeFields (fields : Template) : Bytes := fields.flatMap fun field => word field.1 ++ word field.2

def TemplateRecord.encode (r : TemplateRecord) : Bytes :=
  word r.id ++ (word r.fields.length ++ encodeFields r.fields)

namespace FlowSet

def id : FlowSet → Nat
  | templates _ _ => 0
  | data id _ _ => id
  | other id _ => id

def body : FlowSet → Bytes
  | templates records padding => records.flatMap TemplateRecord.encode ++ padding
  | data _ records padding => records.flatMap List.flatten ++ padding
  | other _ content => content

def encode (s : FlowSet) : Bytes := word s.id ++ (word (s.body.length + 4) ++ s.body)

end FlowSet

/-- A packet: the counters, times and Source ID of its header, and its flow sets. -/
structure Export where
  header : Bytes
  flowsets : List FlowSet
  headerSize : header.length = 18

def Export.encode (p : Export) : Bytes := word 9 ++ (p.header ++ p.flowsets.flatMap FlowSet.encode)

/-! ### Well-formed streams -/

/-- The templates in force, by identifier. -/
abbrev InForce := Nat → Option Template

def FlowSet.define (known : InForce) : FlowSet → InForce
  | templates records _ =>
    records.foldl (fun known r => Function.update known r.id (some r.fields)) known
  | _ => known

/-- The identifiers that a flow set defines. -/
def FlowSet.ids : FlowSet → List Nat
  | templates records _ => records.map TemplateRecord.id
  | _ => []

/-- A flow set that an exporter may send while the templates `known` are in force.  A definition is a
multiple of four bytes, so there are less than four bytes of padding behind definitions. -/
def FlowSet.WellFormed (known : InForce) (s : FlowSet) : Prop :=
  s.body.length + 4 < 65536 ∧
  match s with
  | templates _ padding => padding.length < 4
  | data id records padding => 256 ≤ id ∧ id < 65536 ∧ ∃ template, known id = some template ∧
      padding.length < recordSize template ∧
        ∀ record ∈ records, record.map List.length = template.map Prod.snd
  | other id _ => 0 < id ∧ id < 256

def WellFormedFrom : InForce → List FlowSet → Prop
  | _, [] => True
  | known, s :: rest => s.WellFormed known ∧ WellFormedFrom (s.define known) rest

/-- No template is in force before the stream. -/
def noTemplates : InForce := fun _ => none

def WellFormedStream (stream : List Export) : Prop :=
  WellFormedFrom noTemplates (stream.flatMap Export.flowsets)

/-- The template identifiers that are used in the stream. -/
def templateIds (stream : List Export) : List Nat :=
  ((stream.flatMap Export.flowsets).flatMap FlowSet.ids).dedup

/-! ### The flows of a stream -/

/-- The value of a field of the kind, the last one where the template repeats it. -/
def encodedValue (kind : Nat × Nat → Bool) (template : Template) (record : List Bytes) :
    Option Bytes :=
  ((template.zip record).filter fun entry => kind entry.1).getLast?.map Prod.snd

/-- The flow that a record encodes. -/
def encodedFlow (template : Template) (record : List Bytes) : Flow where
  sourceIp := ((encodedValue (· == (8, 4)) template record).map inetNtoa).getD ""
  destIp := ((encodedValue (· == (12, 4)) template record).map inetNtoa).getD "0.0.0.0"
  sourcePort := (encodedValue (· == (7, 2)) template record).map bigEndian
  destPort := (encodedValue (· == (11, 2)) template record).map bigEndian
  protocol := ((encodedValue (· == (4, 1)) template record).map bigEndian).getD 0
  bytesIn := ((encodedValue (·.1 == 1) template record).map bigEndian).getD 0
  bytesOut := 0
  packets := ((encodedValue (·.1 == 2) template record).map bigEndian).getD 0

/-- One flow per record of a template with a source address of four bytes. -/
def FlowSet.encodedFlows (known : InForce) : FlowSet → List Flow
  | data id records _ =>
    match known id with
    | some template => if (8, 4) ∈ template then records.map (encodedFlow template) else []
    | none => []
  | _ => []

def encodedFlowsFrom : InForce → List FlowSet → List Flow
  | _, [] => []
  | known, s :: rest => s.encodedFlows known ++ encodedFlowsFrom (s.define known) rest

/-- The templates in force after flow sets. -/
def defineAll (known : InForce) (flowsets : List FlowSet) : InForce :=
  flowsets.foldl FlowSet.define known

/-- The flows of a stream, packet by packet. -/
def encodedStream : InForce → List Export → List (List Flow)
  | _, [] => []
  | known, p :: rest =>
    encodedFlowsFrom known p.flowsets :: encodedStream (defineAll known p.flowsets) rest

/-- The flows that the parser returns for packets with one cache. -/
def parseStream : TemplateCache → List Bytes → List (List Flow)
  | _, [] => []
  | cache, data :: rest => (parseV9 data cache).2 :: parseStream (parseV9 data cache).1 rest

/-! ### Reading numbers -/

theorem word_length (n : Nat) : (word n).length = 2 := rfl

theorem bigEndian_word {n : Nat} (fits : n < 65536) : bigEndian (word n) = n := by
  simp only [bigEndian, word, List.foldl_cons, List.foldl_nil, UInt8.toNat_ofNat']
  omega

theorem number_word {n : Nat} (fits : n < 65536) (rest : Bytes) : number (word n ++ rest) 0 2 = n := by
  show bigEndian (((word n ++ rest).drop 0).take (word n).length) = n
  rw [List.drop_zero, List.take_left, bigEndian_word fits]

theorem number_second {n : Nat} (fits : n < 65536) (m : Nat) (rest : Bytes) :
    number (word m ++ (word n ++ rest)) 2 2 = n := by
  have after : (word m ++ (word n ++ rest)).drop 2 = word n ++ rest := rfl
  show bigEndian (((word m ++ (word n ++ rest)).drop 2).take (word n).length) = n
  rw [after, List.take_left, bigEndian_word fits]

theorem drop_words (m n : Nat) (rest : Bytes) : (word m ++ (word n ++ rest)).drop 4 = rest := rfl

theorem words_length (m n : Nat) (rest : Bytes) :
    (word m ++ (word n ++ rest)).length = rest.length + 4 := by
  simp [word_length]
  omega

/-! ### Template flow sets -/

theorem templateFields_encode {fields : Template} (rest : Bytes)
    (fits : ∀ field ∈ fields, field.1 < 65536 ∧ field.2 < 65536) :
    templateFields fields.length (encodeFields fields ++ rest) = (fields, rest) := by
  induction fields with
  | nil => rfl
  | cons field fields ih =>
    obtain ⟨typed, sized⟩ := fits field List.mem_cons_self
    have next := ih fun other mem => fits other (List.mem_cons_of_mem field mem)
    have bytes : encodeFields (field :: fields) ++ rest =
        word field.1 ++ (word field.2 ++ (encodeFields fields ++ rest)) := by
      simp [encodeFields]
    rw [bytes, List.length_cons, templateFields, if_neg]
    · rw [drop_words, next, number_word typed, number_second sized]
    · rw [words_length]
      omega

theorem templateFlowset_encode {records : List TemplateRecord} {padding : Bytes} {fuel : Nat}
    (short : padding.length < 4) (enough : records.length ≤ fuel) (cache : TemplateCache) :
    templateFlowset fuel (records.flatMap TemplateRecord.encode ++ padding) cache =
      records.foldl (fun cache r => storeTemplate cache r.id r.fields) cache := by
  induction records generalizing fuel cache with
  | nil =>
    cases fuel with
    | zero => rfl
    | succ fuel => exact if_pos short
  | cons r records ih =>
    cases fuel with
    | zero => simp at enough
    | succ fuel =>
      have bytes : (r :: records).flatMap TemplateRecord.encode ++ padding =
          word r.id ++ (word r.fields.length ++
            (encodeFields r.fields ++ (records.flatMap TemplateRecord.encode ++ padding))) := by
        simp [TemplateRecord.encode]
      rw [bytes, templateFlowset, if_neg]
      · rw [drop_words, number_second r.countFits, number_word r.assigned.2,
          templateFields_encode _ r.fieldFits]
        rw [List.length_cons] at enough
        rw [List.foldl_cons]
        exact ih (by omega) _
      · rw [words_length]
        omega

/-! ### Records -/

section
variable {template : Template} {record : List Bytes} {r : Record}

/-- The record's dictionary after the fields have been read. -/
def Record.fill (r : Record) (entries : List ((Nat × Nat) × Bytes)) : Record :=
  entries.foldl (fun r entry => r.set entry.1.1 entry.1.2 entry.2) r

theorem readRecord_encode (rest : Bytes) (sizes : record.map List.length = template.map Prod.snd) :
    readRecord template (record.flatten ++ rest) r = r.fill (template.zip record) := by
  induction template generalizing record r with
  | nil => rfl
  | cons field template ih =>
    cases record with
    | nil => cases sizes
    | cons value record =>
      rw [List.map_cons, List.map_cons] at sizes
      obtain ⟨size, sizes⟩ := List.cons.inj sizes
      show readRecord template _ (r.set field.1 field.2 _) = _
      rw [List.flatten_cons, List.append_assoc, ← size, List.drop_left, List.take_left, ih sizes, size]
      rfl

theorem fill_snoc (entries : List ((Nat × Nat) × Bytes)) (entry : (Nat × Nat) × Bytes) :
    r.fill (entries ++ [entry]) = (r.fill entries).set entry.1.1 entry.1.2 entry.2 := by
  rw [Record.fill, List.foldl_append]
  rfl

/-- An entry of the dictionary that only fields of one kind set has the value of the last of them. -/
theorem fill_get {β : Type} (get : Record → Option β) (kind : Nat × Nat → Bool) (read : Bytes → β)
    (first : get .empty = none)
    (one : ∀ r t n v, get (Record.set r t n v) = if kind (t, n) then some (read v) else get r) :
    get (Record.empty.fill (template.zip record)) = (encodedValue kind template record).map read := by
  unfold encodedValue
  induction template.zip record using List.reverseRecOn with
  | nil => exact first
  | append_singleton entries entry ih =>
    rw [fill_snoc, one, List.filter_append]
    by_cases here : kind entry.1 = true
    · simp [here]
    · simp [here, ih]

/-- A field sets the entry of its type, if it has the length of that type. -/
theorem set_entries (r : Record) (t n : Nat) (v : Bytes) :
    (r.set t n v).sourceIp = (if (t, n) == (8, 4) then some (inetNtoa v) else r.sourceIp) ∧
    (r.set t n v).destIp = (if (t, n) == (12, 4) then some (inetNtoa v) else r.destIp) ∧
    (r.set t n v).sourcePort = (if (t, n) == (7, 2) then some (bigEndian v) else r.sourcePort) ∧
    (r.set t n v).destPort = (if (t, n) == (11, 2) then some (bigEndian v) else r.destPort) ∧
    (r.set t n v).protocol = (if (t, n) == (4, 1) then some (bigEndian v) else r.protocol) ∧
    (r.set t n v).bytesIn = (if (t, n).1 == 1 then some (bigEndian v) else r.bytesIn) ∧
    (r.set t n v).packets = (if (t, n).1 == 2 then some (bigEndian v) else r.packets) := by
  unfold Record.set
  refine ⟨?_, ?_, ?_, ?_, ?_, ?_, ?_⟩ <;> grind

theorem fill_flow : (Record.empty.fill (template.zip record)).flow =
    (encodedValue (· == (8, 4)) template record).map fun _ => encodedFlow template record := by
  unfold Record.flow
  rw [fill_get Record.sourceIp (· == (8, 4)) inetNtoa rfl fun r t n v => (set_entries r t n v).1,
    fill_get Record.destIp (· == (12, 4)) inetNtoa rfl fun r t n v => (set_entries r t n v).2.1,
    fill_get Record.sourcePort (· == (7, 2)) bigEndian rfl fun r t n v => (set_entries r t n v).2.2.1,
    fill_get Record.destPort (· == (11, 2)) bigEndian rfl
      fun r t n v => (set_entries r t n v).2.2.2.1,
    fill_get Record.protocol (· == (4, 1)) bigEndian rfl
      fun r t n v => (set_entries r t n v).2.2.2.2.1,
    fill_get Record.bytesIn (·.1 == 1) bigEndian rfl
      fun r t n v => (set_entries r t n v).2.2.2.2.2.1,
    fill_get Record.packets (·.1 == 2) bigEndian rfl
      fun r t n v => (set_entries r t n v).2.2.2.2.2.2]
  unfold encodedFlow
  cases encodedValue (· == (8, 4)) template record <;> rfl

/-- A record has a value for every kind of field that its template has. -/
theorem encodedValue_isSome {kind : Nat × Nat → Bool}
    (sizes : record.map List.length = template.map Prod.snd) :
    (encodedValue kind template record).isSome = template.any kind := by
  have length : template.length ≤ record.length := by
    have same := congrArg List.length sizes
    rw [List.length_map, List.length_map] at same
    omega
  have names : (template.zip record).map Prod.fst = template := List.map_fst_zip length
  rw [encodedValue, Option.isSome_map, Bool.eq_iff_iff, List.getLast?_isSome]
  conv_rhs => rw [← names]
  simp

theorem recordSize_eq (template : Template) : recordSize template = (template.map Prod.snd).sum := by
  have sums : ∀ size, template.foldl (fun size field => size + field.2) size =
      size + (template.map Prod.snd).sum := by
    induction template with
    | nil => simp
    | cons field template ih =>
      intro size
      rw [List.foldl_cons, ih, List.map_cons, List.sum_cons, Nat.add_assoc]
  rw [recordSize, sums, Nat.zero_add]

theorem flatten_size (sizes : record.map List.length = template.map Prod.snd) :
    record.flatten.length = recordSize template := by
  rw [List.length_flatten, sizes, recordSize_eq]

theorem readRecord_flow (rest : Bytes) (sizes : record.map List.length = template.map Prod.snd) :
    (readRecord template (record.flatten ++ rest) .empty).flow =
      if (8, 4) ∈ template then some (encodedFlow template record) else none := by
  have known : (encodedValue (· == (8, 4)) template record).isSome = template.any (· == (8, 4)) :=
    encodedValue_isSome sizes
  rw [readRecord_encode rest sizes, fill_flow]
  by_cases here : (8, 4) ∈ template
  · rw [if_pos here]
    have any : template.any (· == (8, 4)) = true := List.any_eq_true.mpr ⟨_, here, rfl⟩
    rw [any] at known
    obtain ⟨v, found⟩ := Option.isSome_iff_exists.mp known
    rw [found]
    rfl
  · rw [if_neg here]
    have none : template.any (· == (8, 4)) = false := by
      rw [List.any_eq_false]
      rintro field mem same
      exact here (eq_of_beq same ▸ mem)
    rw [none, Option.isSome_eq_false_iff, Option.isNone_iff_eq_none] at known
    rw [known]
    rfl

/-! ### Data flow sets -/

theorem dataFlowset_encode {records : List (List Bytes)} {padding : Bytes} {fuel : Nat}
    (short : padding.length < recordSize template)
    (sizes : ∀ record ∈ records, record.map List.length = template.map Prod.snd)
    (enough : records.length < fuel) :
    dataFlowset template fuel (records.flatMap List.flatten ++ padding) =
      if (8, 4) ∈ template then records.map (encodedFlow template) else [] := by
  induction records generalizing fuel with
  | nil =>
    cases fuel with
    | zero => simp at enough
    | succ fuel =>
      rw [dataFlowset, if_pos (by simpa using short)]
      simp
  | cons record records ih =>
    cases fuel with
    | zero => simp at enough
    | succ fuel =>
      have here := sizes record List.mem_cons_self
      have size := flatten_size here
      have next := ih (fun other mem => sizes other (List.mem_cons_of_mem record mem))
        (Nat.lt_of_succ_lt_succ enough)
      rw [List.flatMap_cons, List.append_assoc, dataFlowset, if_neg, readRecord_flow _ here, ← size,
        List.drop_left, next]
      · split <;> rfl
      · rw [List.length_append]
        omega

/-- Records are not empty, so there are no more of them than bytes. -/
theorem records_le {records : List (List Bytes)} (positive : 0 < recordSize template)
    (sizes : ∀ record ∈ records, record.map List.length = template.map Prod.snd) :
    records.length ≤ (records.flatMap List.flatten).length := by
  induction records with
  | nil => exact Nat.zero_le _
  | cons record records ih =>
    have size := flatten_size (sizes record List.mem_cons_self)
    have rest := ih fun other mem => sizes other (List.mem_cons_of_mem record mem)
    rw [List.flatMap_cons, List.length_append, List.length_cons]
    omega

end

/-! ### The cache -/

/-- The cache holds the templates in force, and no other identifiers than those of the stream. -/
structure Holds (ids : List Nat) (known : InForce) (cache : TemplateCache) : Prop where
  distinct : (cache.map Prod.fst).Nodup
  within : ∀ entry ∈ cache, entry.1 ∈ ids
  lookup : ∀ id, cache.lookup id = known id
  positive : ∀ id template, known id = some template → 0 < recordSize template

section
variable {ids : List Nat} {known : InForce} {cache : TemplateCache} {id : Nat} {fields : Template}

theorem lookup_touch (k : Nat) : (touchTemplate cache id fields).lookup k =
    if k = id then some fields else cache.lookup k := by
  unfold touchTemplate
  induction cache with
  | nil =>
    rw [List.filter_nil, List.nil_append, List.lookup_cons]
    by_cases same : k = id
    · simp [same]
    · simp [same, beq_eq_false_iff_ne.mpr same]
  | cons entry cache ih =>
    obtain ⟨key, value⟩ := entry
    by_cases here : key = id
    · subst here
      rw [List.filter_cons_of_neg (by simp), ih, List.lookup_cons]
      split
      · rfl
      · rename_i other
        rw [beq_eq_false_iff_ne.mpr other]
    · rw [List.filter_cons_of_pos (by simpa using here), List.cons_append, List.lookup_cons, ih,
        List.lookup_cons]
      by_cases same : k = key
      · subst same
        simp [here]
      · simp [beq_eq_false_iff_ne.mpr same]

theorem keys_touch : (touchTemplate cache id fields).map Prod.fst =
    (cache.map Prod.fst).filter (· ≠ id) ++ [id] := by
  rw [touchTemplate, List.map_append, List.filter_map]
  rfl

/-- An entry is written, and the cache holds the templates in force after that. -/
theorem Holds.touch (holds : Holds ids known cache) (mem : id ∈ ids) (size : 0 < recordSize fields) :
    Holds ids (Function.update known id (some fields)) (touchTemplate cache id fields) where
  distinct := by
    rw [keys_touch]
    refine List.Nodup.append (holds.distinct.filter _) (List.nodup_singleton id) ?_
    intro key left right
    rw [List.mem_singleton] at right
    simp [right] at left
  within entry there := by
    rw [touchTemplate, List.mem_append, List.mem_singleton] at there
    rcases there with old | rfl
    · exact holds.within entry (List.mem_filter.mp old).1
    · exact mem
  lookup k := by
    rw [lookup_touch, Function.update_apply, holds.lookup]
  positive k template found := by
    rw [Function.update_apply] at found
    split at found
    · obtain rfl := Option.some.inj found
      exact size
    · exact holds.positive k template found

/-- No more entries than identifiers. -/
theorem Holds.length_le (holds : Holds ids known cache) : cache.length ≤ ids.dedup.length := by
  have sub : (cache.map Prod.fst) ⊆ ids.dedup := by
    intro key mem
    obtain ⟨entry, there, rfl⟩ := List.mem_map.mp mem
    exact List.mem_dedup.mpr (holds.within entry there)
  have fewer := (List.subperm_of_subset holds.distinct sub).length_le
  rwa [List.length_map] at fewer

theorem Holds.store (holds : Holds ids known cache) (few : ids.dedup.length ≤ maxTemplatesPerSource)
    (mem : id ∈ ids) (size : 0 < recordSize fields) :
    Holds ids (Function.update known id (some fields)) (storeTemplate cache id fields) := by
  have after := holds.touch mem size
  have room := after.length_le
  have all : storeTemplate cache id fields = touchTemplate cache id fields := by
    show (touchTemplate cache id fields).drop
      ((touchTemplate cache id fields).length - maxTemplatesPerSource) = _
    rw [Nat.sub_eq_zero_of_le (Nat.le_trans room few), List.drop_zero]
  rwa [all]

/-- A template in force is used. -/
theorem Holds.use (holds : Holds ids known cache) (found : known id = some fields) :
    Holds ids known (touchTemplate cache id fields) := by
  have there : (id, fields) ∈ cache := lookup_mem ((holds.lookup id).trans found)
  have after := holds.touch (holds.within _ there) (holds.positive id fields found)
  rwa [← found, Function.update_eq_self] at after

/-! ### Flow sets, packets and streams -/

theorem Holds.storeAll {records : List TemplateRecord} (holds : Holds ids known cache)
    (few : ids.dedup.length ≤ maxTemplatesPerSource) (mem : ∀ r ∈ records, r.id ∈ ids) :
    Holds ids (records.foldl (fun known r => Function.update known r.id (some r.fields)) known)
      (records.foldl (fun cache r => storeTemplate cache r.id r.fields) cache) := by
  induction records generalizing known cache with
  | nil => exact holds
  | cons r records ih =>
    have one := holds.store few (mem r List.mem_cons_self) r.positive
    rw [List.foldl_cons, List.foldl_cons]
    exact ih one fun other there => mem other (List.mem_cons_of_mem r there)

theorem definitions_le (records : List TemplateRecord) :
    4 * records.length ≤ (records.flatMap TemplateRecord.encode).length := by
  induction records with
  | nil => exact Nat.le_refl 0
  | cons r records ih =>
    rw [List.flatMap_cons, List.length_append, TemplateRecord.encode, words_length, List.length_cons]
    omega

/-- One flow set gives the flows it encodes and leaves the templates in force after it. -/
theorem flowset_encode {s : FlowSet} (holds : Holds ids known cache)
    (few : ids.dedup.length ≤ maxTemplatesPerSource) (mem : ∀ i ∈ s.ids, i ∈ ids)
    (formed : s.WellFormed known) :
    (flowset s.id s.body cache).2 = s.encodedFlows known ∧
      Holds ids (s.define known) (flowset s.id s.body cache).1 := by
  obtain ⟨-, formed⟩ := formed
  cases s with
  | templates records padding =>
    have records_mem : ∀ r ∈ records, r.id ∈ ids := by
      intro r there
      exact mem r.id (List.mem_map.mpr ⟨r, there, rfl⟩)
    refine ⟨rfl, ?_⟩
    have enough : records.length ≤ (records.flatMap TemplateRecord.encode ++ padding).length := by
      have count := definitions_le records
      rw [List.length_append]
      omega
    show Holds ids _ (templateFlowset _ _ cache)
    rw [FlowSet.body, templateFlowset_encode formed enough]
    exact holds.storeAll few records_mem
  | data id records padding =>
    obtain ⟨assigned, -, template, found, short, sizes⟩ := formed
    have positive := holds.positive id template found
    have enough : records.length < (records.flatMap List.flatten ++ padding).length + 1 := by
      have count := records_le positive sizes
      rw [List.length_append]
      omega
    have there := (holds.lookup id).trans found
    have one : flowset id (FlowSet.data id records padding).body cache =
        (touchTemplate cache id template,
          if (8, 4) ∈ template then records.map (encodedFlow template) else []) := by
      unfold flowset
      rw [if_neg (by omega), if_neg (by omega), there]
      cases template with
      | nil => cases positive
      | cons field template =>
        dsimp only
        rw [if_neg (Nat.ne_of_gt positive), FlowSet.body, dataFlowset_encode short sizes enough]
    show (flowset id _ cache).2 = _ ∧ Holds ids known (flowset id _ cache).1
    rw [one, FlowSet.encodedFlows, found]
    exact ⟨rfl, holds.use found⟩
  | other id content =>
    have one : flowset id content cache = (cache, []) := by
      unfold flowset
      rw [if_neg (by omega), if_pos (by omega)]
    show (flowset id content cache).2 = _ ∧ Holds ids known (flowset id content cache).1
    rw [one]
    exact ⟨rfl, holds⟩

theorem encode_length (s : FlowSet) : s.encode.length = s.body.length + 4 := words_length _ _ _

theorem flowsets_le (sets : List FlowSet) : sets.length ≤ (sets.flatMap FlowSet.encode).length := by
  induction sets with
  | nil => exact Nat.le_refl 0
  | cons s sets ih =>
    rw [List.flatMap_cons, List.length_append, encode_length, List.length_cons]
    omega

theorem flowset_id_lt {s : FlowSet} (formed : s.WellFormed known) : s.id < 65536 := by
  obtain ⟨-, formed⟩ := formed
  cases s with
  | templates => exact Nat.zero_lt_succ _
  | data => exact formed.2.1
  | other id => exact Nat.lt_trans formed.2 (by decide)

theorem flowsets_encode {sets : List FlowSet} {fuel : Nat} (holds : Holds ids known cache)
    (few : ids.dedup.length ≤ maxTemplatesPerSource) (mem : ∀ s ∈ sets, ∀ i ∈ s.ids, i ∈ ids)
    (formed : WellFormedFrom known sets) (enough : sets.length ≤ fuel) :
    (flowsets fuel (sets.flatMap FlowSet.encode) cache).2 = encodedFlowsFrom known sets ∧
      Holds ids (defineAll known sets) (flowsets fuel (sets.flatMap FlowSet.encode) cache).1 := by
  induction sets generalizing known cache fuel with
  | nil =>
    cases fuel with
    | zero => exact ⟨rfl, holds⟩
    | succ fuel =>
      rw [List.flatMap_nil, flowsets, if_pos (by simp)]
      exact ⟨rfl, holds⟩
  | cons s sets ih =>
    obtain ⟨first, rest⟩ := formed
    cases fuel with
    | zero => simp at enough
    | succ fuel =>
      have size : s.body.length + 4 < 65536 := first.1
      have bytes : (s :: sets).flatMap FlowSet.encode =
          word s.id ++ (word (s.body.length + 4) ++ (s.body ++ sets.flatMap FlowSet.encode)) := by
        simp [FlowSet.encode]
      have body : slice ((s :: sets).flatMap FlowSet.encode) 4 (s.body.length + 4 - 4) = s.body := by
        rw [bytes, slice, drop_words, Nat.add_sub_cancel, List.take_left]
      have behind : ((s :: sets).flatMap FlowSet.encode).drop (s.body.length + 4) =
          sets.flatMap FlowSet.encode := by
        rw [List.flatMap_cons, ← encode_length, List.drop_left]
      obtain ⟨flows, after⟩ := flowset_encode holds few (mem s List.mem_cons_self) first
      obtain ⟨more, last⟩ := ih after (fun other there => mem other (List.mem_cons_of_mem s there)) rest
        (Nat.le_of_succ_le_succ enough)
      have number_id : number ((s :: sets).flatMap FlowSet.encode) 0 2 = s.id := by
        rw [bytes, number_word (flowset_id_lt first)]
      have number_size : number ((s :: sets).flatMap FlowSet.encode) 2 2 = s.body.length + 4 := by
        rw [bytes, number_second size]
      have started : ¬ (((s :: sets).flatMap FlowSet.encode).length < 4 ∨
          number ((s :: sets).flatMap FlowSet.encode) 2 2 < 4) := by
        rw [number_size, bytes, words_length]
        omega
      rw [flowsets, if_neg started]
      dsimp only
      rw [number_size, number_id, body, behind, flows, more]
      exact ⟨rfl, last⟩

theorem parseV9_encode {p : Export} (holds : Holds ids known cache)
    (few : ids.dedup.length ≤ maxTemplatesPerSource)
    (mem : ∀ s ∈ p.flowsets, ∀ i ∈ s.ids, i ∈ ids) (formed : WellFormedFrom known p.flowsets) :
    (parseV9 p.encode cache).2 = encodedFlowsFrom known p.flowsets ∧
      Holds ids (defineAll known p.flowsets) (parseV9 p.encode cache).1 := by
  have head : (word 9 ++ p.header).length = 20 := by
    rw [List.length_append, word_length, p.headerSize]
  have bytes : p.encode = (word 9 ++ p.header) ++ p.flowsets.flatMap FlowSet.encode := by
    rw [Export.encode, List.append_assoc]
  have enough : p.flowsets.length ≤ p.encode.length := by
    have count := flowsets_le p.flowsets
    rw [bytes, List.length_append]
    omega
  have started : ¬ (p.encode.length < 20 ∨ number p.encode 0 2 ≠ 9) := by
    rw [Export.encode, number_word (by decide), ← Export.encode, bytes, List.length_append]
    omega
  unfold parseV9
  rw [if_neg started]
  have behind : p.encode.drop 20 = p.flowsets.flatMap FlowSet.encode := by
    rw [bytes, ← head, List.drop_left]
  rw [behind]
  exact flowsets_encode holds few mem formed enough

theorem wellFormedFrom_append {first second : List FlowSet} :
    WellFormedFrom known (first ++ second) ↔
      WellFormedFrom known first ∧ WellFormedFrom (defineAll known first) second := by
  induction first generalizing known with
  | nil => simp [WellFormedFrom, defineAll]
  | cons s first ih =>
    show s.WellFormed known ∧ WellFormedFrom (s.define known) (first ++ second) ↔ _
    rw [ih, ← and_assoc]
    rfl

theorem parseStream_encode {stream : List Export} (holds : Holds ids known cache)
    (few : ids.dedup.length ≤ maxTemplatesPerSource)
    (mem : ∀ p ∈ stream, ∀ s ∈ p.flowsets, ∀ i ∈ s.ids, i ∈ ids)
    (formed : WellFormedFrom known (stream.flatMap Export.flowsets)) :
    parseStream cache (stream.map Export.encode) = encodedStream known stream := by
  induction stream generalizing known cache with
  | nil => rfl
  | cons p stream ih =>
    rw [List.flatMap_cons, wellFormedFrom_append] at formed
    obtain ⟨flows, after⟩ := parseV9_encode holds few (mem p List.mem_cons_self) formed.1
    show (parseV9 p.encode cache).2 :: parseStream (parseV9 p.encode cache).1 _ = _
    rw [flows, ih after (fun q there => mem q (List.mem_cons_of_mem p there)) formed.2]
    rfl

end

/-- Decoding a well-formed stream of at most 256 template identifiers gives, packet by packet, the flows
that its records encode. -/
theorem v9_stream_decoded (stream : List Export) (formed : WellFormedStream stream)
    (few : (templateIds stream).length ≤ maxTemplatesPerSource) :
    parseStream [] (stream.map Export.encode) = encodedStream noTemplates stream := by
  have start : Holds ((stream.flatMap Export.flowsets).flatMap FlowSet.ids) noTemplates [] := by
    constructor
    case distinct => exact List.nodup_nil
    case within => simp
    case lookup => exact fun id => rfl
    case positive => exact fun id template found => by cases found
  refine parseStream_encode start few ?_ formed
  intro p there s here i mem
  simp only [List.mem_flatMap]
  exact ⟨s, ⟨p, there, here⟩, mem⟩

/-- Addresses and a source port. -/
def portTemplate : TemplateRecord where
  id := 256
  fields := [(8, 4), (12, 4), (7, 2)]
  assigned := by decide
  countFits := by decide
  fieldFits := by decide
  positive := by decide

/-- The same identifier for a byte count of three bytes, an empty field and a source address. -/
def volumeTemplate : TemplateRecord where
  id := 256
  fields := [(1, 3), (2, 0), (8, 4)]
  assigned := by decide
  countFits := by decide
  fieldFits := by decide
  positive := by decide

/-- A template is defined, used, defined again and used in its new form. -/
def redefiningStream : List Export :=
  [⟨List.replicate 18 0,
      [.templates [portTemplate] [], .data 256 [[[10, 0, 0, 1], [10, 0, 0, 2], [0, 80]]] [0, 0]], rfl⟩,
    ⟨List.replicate 18 0,
      [.templates [volumeTemplate] [], .data 256 [[[1, 0, 0], [], [10, 0, 0, 3]]] [0]], rfl⟩]

theorem redefiningStream_decoded :
    parseStream [] (redefiningStream.map Export.encode) =
      [[⟨"10.0.0.1", "10.0.0.2", some 80, none, 0, 0, 0, 0⟩],
        [⟨"10.0.0.3", "0.0.0.0", none, none, 0, 65536, 0, 0⟩]] := by
  have formed : WellFormedStream redefiningStream := by
    refine ⟨⟨by decide, by decide⟩, ⟨by decide, by decide, by decide, portTemplate.fields, rfl, ?_⟩,
      ⟨by decide, by decide⟩, ⟨by decide, by decide, by decide, volumeTemplate.fields, rfl, ?_⟩, trivial⟩
    · decide
    · decide
  have few : (templateIds redefiningStream).length ≤ maxTemplatesPerSource := by decide
  rw [v9_stream_decoded redefiningStream formed few]
  decide

end FreeSdn.Collector
