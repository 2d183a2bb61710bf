import FreeSdn.Collector.Netflow
import Mathlib.Data.List.Induction

/-! The template definitions that version 9 packets carry, and what the template cache keeps of them.
Every entry of the cache is a definition that was received, as far as its flow set reached: the parser
stores a definition that is cut short like a complete one. -/

namespace FreeSdn.Collector

/-- A definition as it stands in a template flow set: its header, and the fields behind it up to the
declared number or to the end of the flow set. -/
structure Definition where
  id : Nat
  fieldCount : Nat
  fields : Template
  deriving DecidableEq

/-- All declared fields are there. -/
def Definition.Complete (d : Definition) : Prop := d.fieldCount = d.fields.length

instance (d : Definition) : Decidable d.Complete :=
  inferInstanceAs (Decidable (d.fieldCount = d.fields.length))

/-- The definitions of a template flow set. -/
def templateDefinitions : Nat → Bytes → List Definition
  | 0, _ => []
  | fuel + 1, data =>
    if data.length < 4 then []
    else
      let (fields, rest) := templateFields (number data 2 2) (data.drop 4)
      ⟨number data 0 2, number data 2 2, fields⟩ :: templateDefinitions fuel rest

/-- The definitions of the template flow sets among the flow sets after the header. -/
def flowsetDefinitions : Nat → Bytes → List Definition
  | 0, _ => []
  | fuel + 1, data =>
    if data.length < 4 ∨ number data 2 2 < 4 then []
    else
      let size := number data 2 2
      let body := slice data 4 (size - 4)
      (if number data 0 2 = 0 then templateDefinitions body.length body else []) ++
        flowsetDefinitions fuel (data.drop size)

/-- The definitions that a packet carries. -/
def definitions (data : Bytes) : List Definition :=
  if data.length < 20 ∨ number data 0 2 ≠ 9 then []
  else flowsetDefinitions data.length (data.drop 20)

/-- The cache after the packets, fed to `_parse_v9` in order. -/
def learn (packets : List Bytes) : TemplateCache :=
  packets.foldl (fun cache data => (parseV9 data cache).1) []

/-! ### What the cache holds -/

/-- The cache is within its limit and holds only definitions that were seen. -/
structure Learned (seen : List Definition) (cache : TemplateCache) : Prop where
  bounded : cache.length ≤ maxTemplatesPerSource
  received : ∀ entry ∈ cache, ∃ d ∈ seen, d.id = entry.1 ∧ d.fields = entry.2

section
variable {seen : List Definition} {cache : TemplateCache} {id : Nat} {fields : Template}

theorem Learned.more (learned : Learned seen cache) (later : List Definition) :
    Learned (seen ++ later) cache where
  bounded := learned.bounded
  received entry mem := by
    obtain ⟨d, here, same⟩ := learned.received entry mem
    exact ⟨d, List.mem_append_left _ here, same⟩

theorem mem_storeTemplate {entry : Nat × Template} (mem : entry ∈ storeTemplate cache id fields) :
    entry ∈ cache ∨ entry = (id, fields) := by
  have kept := List.mem_of_mem_drop mem
  rw [List.mem_append, List.mem_singleton] at kept
  exact kept.imp_left fun old => (List.mem_filter.mp old).1

theorem storeTemplate_length : (storeTemplate cache id fields).length ≤ maxTemplatesPerSource := by
  simp only [storeTemplate, List.length_drop]
  omega

theorem Learned.store (learned : Learned seen cache) (d : Definition) :
    Learned (seen ++ [d]) (storeTemplate cache d.id d.fields) where
  bounded := storeTemplate_length
  received entry mem := by
    rcases mem_storeTemplate mem with old | rfl
    · exact (learned.more [d]).received entry old
    · exact ⟨d, by simp, rfl, rfl⟩

theorem lookup_mem (found : cache.lookup id = some fields) : (id, fields) ∈ cache := by
  induction cache with
  | nil => cases found
  | cons entry cache ih =>
    obtain ⟨key, value⟩ := entry
    rw [List.lookup_cons] at found
    split at found
    · rename_i same
      obtain rfl := Option.some.inj found
      rw [eq_of_beq same]
      exact List.mem_cons_self
    · exact List.mem_cons_of_mem _ (ih found)

theorem touchTemplate_length (mem : (id, fields) ∈ cache) :
    (touchTemplate cache id fields).length ≤ cache.length := by
  have fewer : (cache.filter (·.1 ≠ id)).length < cache.length := by
    refine Nat.lt_of_le_of_ne (List.length_filter_le _ _) fun same => ?_
    have all := List.length_filter_eq_length_iff.mp same (id, fields) mem
    simp at all
  simp only [touchTemplate, List.length_append, List.length_singleton]
  omega

theorem Learned.touch (learned : Learned seen cache) (mem : (id, fields) ∈ cache) :
    Learned seen (touchTemplate cache id fields) where
  bounded := Nat.le_trans (touchTemplate_length mem) learned.bounded
  received entry there := by
    refine learned.received entry ?_
    rw [touchTemplate, List.mem_append, List.mem_singleton] at there
    rcases there with old | rfl
    · exact (List.mem_filter.mp old).1
    · exact mem

/-! ### Flow sets and packets -/

theorem Learned.templateFlowset {fuel : Nat} {data : Bytes} (learned : Learned seen cache) :
    Learned (seen ++ templateDefinitions fuel data) (templateFlowset fuel data cache) := by
  induction fuel generalizing data seen cache with
  | zero => exact learned.more _
  | succ fuel ih =>
    simp only [templateDefinitions, Collector.templateFlowset]
    split
    · exact learned.more _
    · rw [List.append_cons]
      exact ih (learned.store _)

theorem Learned.flowset {data : Bytes} (learned : Learned seen cache) :
    Learned (seen ++ if id = 0 then templateDefinitions data.length data else [])
      (flowset id data cache).1 := by
  unfold Collector.flowset
  split
  · exact learned.templateFlowset
  split
  · exact learned.more _
  split
  · exact learned.more _
  · exact learned.more _
  · rename_i found
    exact (learned.touch (lookup_mem found)).more _

theorem Learned.flowsets {fuel : Nat} {data : Bytes} (learned : Learned seen cache) :
    Learned (seen ++ flowsetDefinitions fuel data) (flowsets fuel data cache).1 := by
  induction fuel generalizing data seen cache with
  | zero => exact learned.more _
  | succ fuel ih =>
    simp only [flowsetDefinitions, Collector.flowsets]
    split
    · exact learned.more _
    · rw [← List.append_assoc]
      exact ih learned.flowset

theorem Learned.parseV9 {data : Bytes} (learned : Learned seen cache) :
    Learned (seen ++ definitions data) (parseV9 data cache).1 := by
  unfold definitions Collector.parseV9
  split
  · exact learned.more _
  · exact learned.flowsets

end

theorem learn_learned (packets : List Bytes) : Learned (packets.flatMap definitions) (learn packets) := by
  induction packets using List.reverseRecOn with
  | nil => exact ⟨Nat.zero_le _, by simp [learn]⟩
  | append_singleton packets data ih =>
    rw [learn, List.foldl_append, List.flatMap_append, List.flatMap_singleton]
    exact ih.parseV9

/-- The cache never exceeds its limit, and where no received definition is cut short it holds only
complete definitions that were received. -/
theorem complete_templates_learned (packets : List Bytes) :
    (learn packets).length ≤ maxTemplatesPerSource ∧
    ((∀ d ∈ packets.flatMap definitions, d.Complete) →
      ∀ id fields, (id, fields) ∈ learn packets →
        ∃ d ∈ packets.flatMap definitions, d.id = id ∧ d.fields = fields ∧
          d.fieldCount = fields.length) := by
  have learned := learn_learned packets
  refine ⟨learned.bounded, fun complete id fields mem => ?_⟩
  obtain ⟨d, seen, named, same⟩ := learned.received (id, fields) mem
  dsimp only at named same
  exact ⟨d, seen, named, same, same ▸ complete d seen⟩

/-- A template flow set with one definition: two fields declared, and as many bytes as are given. -/
def twoFieldTemplate (fields : Bytes) : Bytes :=
  (v9Packet "192.0.2.1" 1 0 0 ([1, 0, 0, 2] ++ fields)).data

/-- Source and destination address. -/
def addressTemplate : Bytes := twoFieldTemplate [0, 8, 0, 4, 0, 12, 0, 4]

theorem addressTemplate_learned :
    (∀ d ∈ [addressTemplate].flatMap definitions, d.Complete) ∧
      (256, [(8, 4), (12, 4)]) ∈ learn [addressTemplate] ∧
        ∃ d ∈ [addressTemplate].flatMap definitions, d.id = 256 ∧ d.fields = [(8, 4), (12, 4)] ∧
          d.fieldCount = 2 := by
  have complete : ∀ d ∈ [addressTemplate].flatMap definitions, d.Complete := by decide
  have mem : (256, [(8, 4), (12, 4)]) ∈ learn [addressTemplate] := by decide
  exact ⟨complete, mem, (complete_templates_learned [addressTemplate]).2 complete _ _ mem⟩

/-- A definition that ends after the first of two fields replaces the complete one. -/
theorem cut_template_learned :
    (256, [(8, 4), (12, 4)]) ∈ learn [addressTemplate] ∧
      learn [addressTemplate, twoFieldTemplate [0, 8, 0, 4]] = [(256, [(8, 4)])] ∧
        ¬ ∃ d ∈ [addressTemplate, twoFieldTemplate [0, 8, 0, 4]].flatMap definitions,
          d.id = 256 ∧ d.fields = [(8, 4)] ∧ d.fieldCount = [((8 : Nat), (4 : Nat))].length := by
  decide

end FreeSdn.Collector
