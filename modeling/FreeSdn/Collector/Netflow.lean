import FreeSdn.Lib.Json
import Mathlib.Data.List.Dedup
import Mathlib.Data.List.Perm.Subperm

/-! The decoding of NetFlow packets (`modules/collector/services/netflow.py`): the two packet formats,
the bounded template caches and the table that holds one cache per source address. -/

namespace FreeSdn.Collector

open FreeSdn.Lib

abbrev Bytes := List UInt8

/-- `int.from_bytes(bs, "big")`. -/
def bigEndian (bs : Bytes) : Nat := bs.foldl (fun n b => 256 * n + b.toNat) 0

/-- `data[start : start + size]`. -/
def slice (data : Bytes) (start size : Nat) : Bytes := (data.drop start).take size

/-- The number in `size` bytes at `start`. -/
def number (data : Bytes) (start size : Nat) : Nat := bigEndian (slice data start size)

/-- `socket.inet_ntoa`. -/
def inetNtoa (bs : Bytes) : String :=
  String.ofList (['.'].intercalate (bs.map fun b => Json.natText b.toNat))

structure Flow where
  sourceIp : String
  destIp : String
  sourcePort : Option Nat
  destPort : Option Nat
  protocol : Nat
  bytesIn : Nat
  bytesOut : Nat
  packets : Nat
  deriving DecidableEq

/-! ### Version 5 -/

def v5Flow (record : Bytes) : Flow where
  sourceIp := inetNtoa (slice record 0 4)
  destIp := inetNtoa (slice record 4 4)
  sourcePort := some (number record 32 2)
  destPort := some (number record 34 2)
  protocol := number record 38 1
  bytesIn := number record 20 4
  bytesOut := 0
  packets := number record 16 4

/-- At most `count` records of 48 bytes. -/
def v5Records : Nat → Bytes → List Flow
  | 0, _ => []
  | count + 1, data =>
    if data.length < 48 then [] else v5Flow (data.take 48) :: v5Records count (data.drop 48)

/-- `_parse_v5`. -/
def parseV5 (data : Bytes) : List Flow :=
  if data.length < 24 ∨ number data 0 2 ≠ 5 then []
  else v5Records (min (number data 2 2) 30) (data.drop 24)

/-! ### Version 9 -/

/-- The types and lengths of the fields of a record. -/
abbrev Template := List (Nat × Nat)

/-- Templates by identifier, the least recently used first. -/
abbrev TemplateCache := List (Nat × Template)

/-- `_MAX_TEMPLATES_PER_SOURCE`. -/
def maxTemplatesPerSource : Nat := 256

/-- A template is stored as the most recently used, and the oldest make room for it. -/
def storeTemplate (cache : TemplateCache) (id : Nat) (fields : Template) : TemplateCache :=
  let cache := cache.filter (·.1 ≠ id) ++ [(id, fields)]
  cache.drop (cache.length - maxTemplatesPerSource)

/-- `move_to_end`. -/
def touchTemplate (cache : TemplateCache) (id : Nat) (fields : Template) : TemplateCache :=
  cache.filter (·.1 ≠ id) ++ [(id, fields)]

/-- At most `count` fields, with the bytes after them. -/
def templateFields : Nat → Bytes → Template × Bytes
  | 0, data => ([], data)
  | count + 1, data =>
    if data.length < 4 then ([], data)
    else
      let (fields, rest) := templateFields count (data.drop 4)
      ((number data 0 2, number data 2 2) :: fields, rest)

/-- The templates of a template flow set.  The first argument bounds the number of turns. -/
def templateFlowset : Nat → Bytes → TemplateCache → TemplateCache
  | 0, _, cache => cache
  | fuel + 1, data, cache =>
    if data.length < 4 then cache
    else
      let (fields, rest) := templateFields (number data 2 2) (data.drop 4)
      templateFlowset fuel rest (storeTemplate cache (number data 0 2) fields)

/-- The entries of a record's dictionary so far. -/
structure Record where
  sourceIp : Option String
  destIp : Option String
  sourcePort : Option Nat
  destPort : Option Nat
  protocol : Option Nat
  bytesIn : Option Nat
  packets : Option Nat

def Record.empty : Record := ⟨none, none, none, none, none, none, none⟩

def Record.set (r : Record) (ftype flen : Nat) (val : Bytes) : Record :=
  if ftype = 8 ∧ flen = 4 then { r with sourceIp := some (inetNtoa val) }
  else if ftype = 12 ∧ flen = 4 then { r with destIp := some (inetNtoa val) }
  else if ftype = 7 ∧ flen = 2 then { r with sourcePort := some (bigEndian val) }
  else if ftype = 11 ∧ flen = 2 then { r with destPort := some (bigEndian val) }
  else if ftype = 4 ∧ flen = 1 then { r with protocol := some (bigEndian val) }
  else if ftype = 1 then { r with bytesIn := some (bigEndian val) }
  else if ftype = 2 then { r with packets := some (bigEndian val) }
  else r

def readRecord : Template → Bytes → Record → Record
  | [], _, r => r
  | (ftype, flen) :: fields, data, r =>
    readRecord fields (data.drop flen) (r.set ftype flen (data.take flen))

/-- A record becomes a flow when it has a source address. -/
def Record.flow (r : Record) : Option Flow :=
  r.sourceIp.map fun sourceIp =>
    { sourceIp, destIp := r.destIp.getD "0.0.0.0", sourcePort := r.sourcePort, destPort := r.destPort,
      protocol := r.protocol.getD 0, bytesIn := r.bytesIn.getD 0, bytesOut := 0,
      packets := r.packets.getD 0 }

def recordSize (template : Template) : Nat := template.foldl (fun size field => size + field.2) 0

/-- The flows of a data flow set.  The first argument bounds the number of turns. -/
def dataFlowset (template : Template) : Nat → Bytes → List Flow
  | 0, _ => []
  | fuel + 1, data =>
    if data.length < recordSize template then []
    else (readRecord template data .empty).flow.toList ++
      dataFlowset template fuel (data.drop (recordSize template))

/-- One flow set of the given identifier. -/
def flowset (id : Nat) (data : Bytes) (cache : TemplateCache) : TemplateCache × List Flow :=
  if id = 0 then (templateFlowset data.length data cache, [])
  else if id < 256 then (cache, [])
  else
    match cache.lookup id with
    | none | some [] => (cache, [])
    | some template =>
      (touchTemplate cache id template,
        if recordSize template = 0 then [] else dataFlowset template (data.length + 1) data)

/-- The flow sets after the header.  The first argument bounds the number of turns. -/
def flowsets : Nat → Bytes → TemplateCache → TemplateCache × List Flow
  | 0, _, cache => (cache, [])
  | fuel + 1, data, cache =>
    if data.length < 4 ∨ number data 2 2 < 4 then (cache, [])
    else
      let size := number data 2 2
      let (cache, flows) := flowset (number data 0 2) (slice data 4 (size - 4)) cache
      let (cache, more) := flowsets fuel (data.drop size) cache
      (cache, flows ++ more)

/-- `_parse_v9`. -/
def parseV9 (data : Bytes) (cache : TemplateCache) : TemplateCache × List Flow :=
  if data.length < 20 ∨ number data 0 2 ≠ 9 then (cache, [])
  else flowsets data.length (data.drop 20) cache

/-! ### The receiver -/

structure Packet where
  source : String
  data : Bytes
  deriving DecidableEq

/-- `_templates_by_source`, in the order of insertion. -/
abbrev Sources := List (String × TemplateCache)

def maxSources : Nat := 1024

/-- `_get_source_templates`: the cache of the source, and the table that holds it. -/
def getSourceTemplates (sources : Sources) (source : String) : TemplateCache × Sources :=
  match sources.lookup source with
  | some cache => (cache, sources)
  | none =>
    let sources := sources ++ [(source, [])]
    ([], if maxSources < sources.length then sources.drop 1 else sources)

/-- The cache of the source after the parser changed it in place. -/
def putTemplates (sources : Sources) (source : String) (cache : TemplateCache) : Sources :=
  sources.map fun entry => if entry.1 = source then (source, cache) else entry

def Packet.version (p : Packet) : Nat := if 2 ≤ p.data.length then number p.data 0 2 else 0

/-- The part of `_handle` up to its first `await`. -/
def handle (allowed : String → Bool) (sources : Sources) (p : Packet) : Sources × List Flow :=
  if !allowed p.source then (sources, [])
  else if p.version = 5 then (sources, parseV5 p.data)
  else if p.version = 9 then
    let (cache, sources) := getSourceTemplates sources p.source
    let (cache, flows) := parseV9 p.data cache
    (putTemplates sources p.source cache, flows)
  else (sources, [])

/-- The packets of a history, each with the flows decoded from it. -/
def decodeFrom (allowed : String → Bool) : Sources → List Packet → List (Packet × List Flow)
  | _, [] => []
  | sources, p :: history =>
    let (sources, flows) := handle allowed sources p
    (p, flows) :: decodeFrom allowed sources history

def decode (allowed : String → Bool) (history : List Packet) : List (Packet × List Flow) :=
  decodeFrom allowed [] history

/-! ### One source at a time

Without eviction, the cache of a source and the flows of its packets are what they would be if it were
the only source. -/

section
variable {sources : Sources} {p : Packet} {a : String}

/-- `handle`, on the cache of the packet's own source. -/
def handleOwn (allowed : String → Bool) (cache : Option TemplateCache) (p : Packet) :
    Option TemplateCache × List Flow :=
  if !allowed p.source then (cache, [])
  else if p.version = 5 then (cache, parseV5 p.data)
  else if p.version = 9 then
    let (cache, flows) := parseV9 p.data (cache.getD [])
    (some cache, flows)
  else (cache, [])

def decodeOwn (allowed : String → Bool) :
    Option TemplateCache → List Packet → List (Packet × List Flow)
  | _, [] => []
  | cache, p :: history =>
    let (cache, flows) := handleOwn allowed cache p
    (p, flows) :: decodeOwn allowed cache history

theorem lookup_putTemplates (sources : Sources) (source a : String) (cache : TemplateCache) :
    (putTemplates sources source cache).lookup a =
      if a = source then (sources.lookup source).map fun _ => cache else sources.lookup a := by
  induction sources with
  | nil => simp [putTemplates]
  | cons entry sources ih =>
    obtain ⟨k, old⟩ := entry
    simp only [putTemplates, List.map_cons] at ih ⊢
    by_cases here : k = source
    · subst here
      by_cases same : a = k
      · simp [same]
      · simpa [same, List.lookup_cons, beq_eq_false_iff_ne.mpr same] using ih
    · by_cases same : a = k
      · subst same
        simp [here]
      · rw [if_neg here, List.lookup_cons, beq_eq_false_iff_ne.mpr same, ih]
        simp [List.lookup_cons, beq_eq_false_iff_ne.mpr same, beq_eq_false_iff_ne.mpr (Ne.symm here)]

theorem lookup_snoc (sources : Sources) (source a : String) (cache : TemplateCache)
    (fresh : sources.lookup source = none) :
    (sources ++ [(source, cache)]).lookup a = if a = source then some cache else sources.lookup a := by
  rw [List.lookup_append]
  by_cases same : a = source
  · simp [same, fresh]
  · simp [same, List.lookup_cons, beq_eq_false_iff_ne.mpr same]

theorem keys_putTemplates (sources : Sources) (source : String) (cache : TemplateCache) :
    (putTemplates sources source cache).map Prod.fst = sources.map Prod.fst := by
  rw [putTemplates, List.map_map]
  refine List.map_congr_left fun entry _ => ?_
  by_cases here : entry.1 = source <;> simp [here]

theorem lookup_none_iff : sources.lookup a = none ↔ a ∉ sources.map Prod.fst := by
  simp only [List.lookup_eq_none_iff, bne_iff_ne, List.mem_map, not_exists, not_and]
  exact forall₂_congr fun entry _ => ne_comm

/-- The sources of the table, all of them among the given ones, which are few. -/
structure Roomy (all : List String) (sources : Sources) : Prop where
  nodup : (sources.map Prod.fst).Nodup
  among : sources.map Prod.fst ⊆ all

theorem Roomy.snoc {all : List String} (roomy : Roomy all sources) (mem : a ∈ all)
    (fresh : sources.lookup a = none) (cache : TemplateCache) :
    Roomy all (sources ++ [(a, cache)]) where
  nodup := by
    rw [List.map_append, List.nodup_append]
    refine ⟨roomy.nodup, by simp, ?_⟩
    rintro x old y last rfl
    simp only [List.map_cons, List.map_nil, List.mem_singleton] at last
    exact lookup_none_iff.mp fresh (last ▸ old)
  among := by
    rw [List.map_append, List.append_subset]
    exact ⟨roomy.among, by simpa using mem⟩

theorem Roomy.length_le {all : List String} (roomy : Roomy all sources)
    (few : all.dedup.length ≤ maxSources) : sources.length ≤ maxSources := by
  have sub : sources.map Prod.fst ⊆ all.dedup := fun x mem => List.mem_dedup.mpr (roomy.among mem)
  have short := (List.subperm_of_subset roomy.nodup sub).length_le
  rw [List.length_map] at short
  omega

/-- A packet changes the cache of its own source only, as if there were no other. -/
theorem handle_own (allowed : String → Bool) {all : List String} (roomy : Roomy all sources)
    (few : all.dedup.length ≤ maxSources) (mem : p.source ∈ all) :
    Roomy all (handle allowed sources p).1 ∧
    (handle allowed sources p).2 = (handleOwn allowed (sources.lookup p.source) p).2 ∧
    ∀ a, (handle allowed sources p).1.lookup a =
      if a = p.source then (handleOwn allowed (sources.lookup p.source) p).1 else sources.lookup a := by
  have kept (a : String) : sources.lookup a =
      if a = p.source then sources.lookup p.source else sources.lookup a := by
    split_ifs with same
    · rw [same]
    · rfl
  unfold handle handleOwn
  split_ifs with refused five nine
  · exact ⟨roomy, rfl, kept⟩
  · exact ⟨roomy, rfl, kept⟩
  · cases found : sources.lookup p.source with
    | some cache =>
      simp only [getSourceTemplates, found, Option.getD_some]
      refine ⟨⟨?_, ?_⟩, trivial, fun a => ?_⟩
      · rw [keys_putTemplates]
        exact roomy.nodup
      · rw [keys_putTemplates]
        exact roomy.among
      · rw [lookup_putTemplates, found]
        rfl
    | none =>
      have room := roomy.snoc mem found []
      have short := room.length_le few
      simp only [getSourceTemplates, found, Option.getD_none, if_neg (Nat.not_lt.mpr short)]
      refine ⟨⟨?_, ?_⟩, trivial, fun a => ?_⟩
      · rw [keys_putTemplates]
        exact room.nodup
      · rw [keys_putTemplates]
        exact room.among
      · rw [lookup_putTemplates, lookup_snoc _ _ _ _ found, lookup_snoc _ _ _ _ found, if_pos rfl]
        split_ifs <;> rfl
  · exact ⟨roomy, rfl, kept⟩

/-- The packets of one source decode as if they were alone. -/
theorem decodeFrom_own (allowed : String → Bool) {all : List String}
    (few : all.dedup.length ≤ maxSources) (a : String)
    (history : List Packet) (among : ∀ p ∈ history, p.source ∈ all) (roomy : Roomy all sources) :
    (decodeFrom allowed sources history).filter (·.1.source = a) =
      decodeOwn allowed (sources.lookup a) (history.filter (·.source = a)) := by
  induction history generalizing sources with
  | nil => rfl
  | cons p history ih =>
    obtain ⟨room, flows, caches⟩ := handle_own allowed roomy few (among p (by simp))
    have rest := ih (fun q mem => among q (List.mem_cons_of_mem p mem)) room
    rw [caches a] at rest
    by_cases own : p.source = a
    · subst own
      simp only [decodeFrom, List.filter_cons, decide_true, ↓reduceIte, decodeOwn, flows]
      rw [rest, if_pos rfl]
    · rw [if_neg (Ne.symm own)] at rest
      simpa [decodeFrom, own] using rest

end

/-- Sources do not influence each other's decoding: two histories of few sources that agree on the
packets of one of them yield the same flows for each of its packets. -/
theorem decode_isolated (allowed : String → Bool) {first second : List Packet} {a : String}
    (few : (first.map Packet.source).dedup.length ≤ 1024)
    (few' : (second.map Packet.source).dedup.length ≤ 1024)
    (agree : first.filter (·.source = a) = second.filter (·.source = a)) :
    (decode allowed first).filter (·.1.source = a) = (decode allowed second).filter (·.1.source = a) := by
  have alone {history : List Packet} (few : (history.map Packet.source).dedup.length ≤ 1024) :
      (decode allowed history).filter (·.1.source = a) =
        decodeOwn allowed none (history.filter (·.source = a)) :=
    decodeFrom_own allowed few a history (fun p mem => List.mem_map_of_mem mem) ⟨by simp, by simp⟩
  rw [alone few, alone few', agree]

/-! ### Observation domains

The header of a version 9 packet names an observation domain, which the receiver does not read. -/

/-- The Source ID of the header. -/
def Packet.sourceId (p : Packet) : Nat := number p.data 16 4

/-- A header of version 9 with the Source ID, and one flow set. -/
def v9Packet (source : String) (sourceId high low : UInt8) (body : Bytes) : Packet where
  source := source
  data := [0, 9, 0, 1, 0, 0, 0, 0, 0, 0, 0, 0, 0, 0, 0, 0, 0, 0, 0, sourceId] ++
    [high, low, 0, UInt8.ofNat (body.length + 4)] ++ body

/-- Template 256: a source and a destination address. -/
def forwardTemplate : Packet := v9Packet "192.0.2.1" 1 0 0 [1, 0, 0, 2, 0, 8, 0, 4, 0, 12, 0, 4]

/-- Template 256 of another domain: a destination and a source address. -/
def backwardTemplate : Packet := v9Packet "192.0.2.1" 2 0 0 [1, 0, 0, 2, 0, 12, 0, 4, 0, 8, 0, 4]

/-- A record of template 256 in the first domain. -/
def forwardData : Packet := v9Packet "192.0.2.1" 1 1 0 [10, 0, 0, 1, 10, 0, 0, 2]

/-- The same template from another address. -/
def foreignTemplate : Packet := { backwardTemplate with source := "192.0.2.9" }

theorem decode_isolated_foreign :
    (decode (fun _ => true) [forwardTemplate, foreignTemplate, forwardData]).filter
        (·.1.source = "192.0.2.1") =
      [(forwardTemplate, []),
       (forwardData, [⟨"10.0.0.1", "10.0.0.2", none, none, 0, 0, 0, 0⟩])] := by
  have same : (decode (fun _ => true) [forwardTemplate, foreignTemplate, forwardData]).filter
      (·.1.source = "192.0.2.1") = (decode (fun _ => true) [forwardTemplate, forwardData]).filter
      (·.1.source = "192.0.2.1") :=
    decode_isolated (fun _ => true) (by decide) (by decide) (by decide)
  rw [same]
  decide

/-- The template of one domain reinterprets the records of another behind the same address. -/
theorem domains_interfere : ¬ ∀ (allowed : String → Bool) (first second : List Packet) (a : String)
    (id : Nat), (first.map Packet.source).dedup.length ≤ 1024 →
      (second.map Packet.source).dedup.length ≤ 1024 →
      first.filter (fun p => p.source = a ∧ p.sourceId = id) =
        second.filter (fun p => p.source = a ∧ p.sourceId = id) →
      (decode allowed first).filter (fun e => e.1.source = a ∧ e.1.sourceId = id) =
        (decode allowed second).filter (fun e => e.1.source = a ∧ e.1.sourceId = id) := by
  intro isolated
  have same := isolated (fun _ => true) [forwardTemplate, forwardData]
    [forwardTemplate, backwardTemplate, forwardData] "192.0.2.1" 1 (by decide) (by decide) (by decide)
  revert same
  decide

end FreeSdn.Collector
