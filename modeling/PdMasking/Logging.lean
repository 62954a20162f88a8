import PdMasking.Lib.JsonText
import PdMasking.Python

/-!
# PdMasking.Logging — log records as lines of JSON (`observability/logging.py`)

A record has whatever attributes `extra` gave it; `JsonFormatter.format` writes those of `ALLOWED_FIELDS`.

`log_line`: a record has no line feed in it nor any other character below U+0020, it is JSON with the allowed fields as
they were, and nothing else of the record has an influence on it.
-/

namespace PdMasking

open Json

/-- `_ALLOWED_FIELDS` -/
def ALLOWED_FIELDS : List Str :=
  ["request_id".toList, "payload_id_hash".toList, "system_id".toList, "direction".toList, "status".toList,
    "latency_ms".toList, "chars".toList, "tokens".toList, "pd_types".toList, "entities".toList, "llm_ms".toList,
    "operation".toList, "error".toList, "storage".toList, "workers".toList, "shape".toList]

/-- What `JsonFormatter` reads of a `LogRecord`. -/
structure LogRecord where
  /-- `time.strftime("%Y-%m-%dT%H:%M:%S", time.gmtime(record.created))` -/
  created : Str
  levelname : Str
  name : Str
  message : Str
  /-- `getattr(record, name, None)` -/
  getattr : Str → Option Doc
  /-- `record.exc_info[0].__name__` -/
  excName : Option Str

namespace JsonFormatter

/-- The entries that every record has. -/
def head (r : LogRecord) : List (Str × Doc) :=
  [("ts".toList, .string (r.created ++ ['Z'])), ("level".toList, .string r.levelname), ("logger".toList, .string r.name),
    ("event".toList, .string r.message)]

/-- The entries of the allowed fields. -/
def fields (r : LogRecord) : List (Str × Doc) :=
  ALLOWED_FIELDS.filterMap (fun name => (r.getattr name).map (fun value => (name, value)))

/-- The entry of the exception. -/
def exception (r : LogRecord) : List (Str × Doc) := (r.excName.map (fun e => ("exception".toList, .string e))).toList

/-- `entry` -/
def entry (r : LogRecord) : List (Str × Doc) := head r ++ fields r ++ exception r

/-- `format` -/
def format (r : LogRecord) : Str := (Doc.object (entry r)).text .spaced

/-- The names of the entries beside the allowed fields. -/
def OTHER_FIELDS : List Str := ["ts".toList, "level".toList, "logger".toList, "event".toList, "exception".toList]

/-! ### What is in the line -/

theorem mem_fields {r : LogRecord} {m : Str × Doc} (h : m ∈ fields r) :
    m.1 ∈ ALLOWED_FIELDS ∧ r.getattr m.1 = some m.2 := by
  obtain ⟨name, hname, hm⟩ := List.mem_filterMap.mp h
  obtain ⟨value, hvalue, rfl⟩ := Option.map_eq_some_iff.mp hm
  exact ⟨hname, hvalue⟩

theorem mem_others {r : LogRecord} {m : Str × Doc} (h : m ∈ head r ∨ m ∈ exception r) : m.1 ∈ OTHER_FIELDS := by
  rcases h with h | h
  · have hname : m.1 ∈ (head r).map Prod.fst := List.mem_map_of_mem h
    exact List.mem_append_left ["exception".toList] hname
  · unfold exception at h
    rcases hexc : r.excName with _ | e
    · rw [hexc] at h
      cases h
    · rw [hexc] at h
      rw [List.mem_singleton.mp h]
      exact List.mem_append_right ["ts".toList, "level".toList, "logger".toList, "event".toList]
        (List.mem_singleton_self _)

theorem mem_entry {r : LogRecord} {m : Str × Doc} (h : m ∈ entry r) :
    m.1 ∈ OTHER_FIELDS ∨ m.1 ∈ ALLOWED_FIELDS ∧ r.getattr m.1 = some m.2 := by
  rcases List.mem_append.mp h with h | h
  · rcases List.mem_append.mp h with h | h
    · exact Or.inl (mem_others (Or.inl h))
    · exact Or.inr (mem_fields h)
  · exact Or.inl (mem_others (Or.inr h))

/-- An allowed field is no other entry. -/
theorem allowed_apart : ∀ name ∈ ALLOWED_FIELDS, name ∉ OTHER_FIELDS := by
  decide

/-- What is read of an allowed field. -/
theorem member_field (r : LogRecord) {name : Str} (hname : name ∈ ALLOWED_FIELDS) :
    member name (membersJson (entry r)) = (r.getattr name).map Doc.toJson := by
  have hentry : ∀ m ∈ membersJson (entry r), m.1 = name → ∃ value, r.getattr name = some value ∧ m.2 = value.toJson := by
    intro m hm heq
    rw [membersJson_eq] at hm
    obtain ⟨m', hm', rfl⟩ := List.mem_map.mp hm
    rcases mem_entry hm' with hother | ⟨-, hvalue⟩
    · exact absurd (heq ▸ hother) (allowed_apart name hname)
    · exact ⟨m'.2, heq ▸ hvalue, rfl⟩
  cases hvalue : r.getattr name with
  | none =>
    refine member_eq_none ?_
    intro m hm heq
    obtain ⟨value, hsome, -⟩ := hentry m hm heq
    rw [hvalue] at hsome
    cases hsome
  | some value =>
    refine member_of_unique ?_ ?_
    · rw [membersJson_eq]
      have hmem : (name, value) ∈ fields r :=
        List.mem_filterMap.mpr ⟨name, hname, by rw [hvalue]; rfl⟩
      exact List.mem_map_of_mem (List.mem_append_left _ (List.mem_append_right _ hmem))
    · intro m hm heq
      obtain ⟨value', hsome, hm2⟩ := hentry m hm heq
      rw [hvalue] at hsome
      cases hsome
      exact hm2

/-- Two records that agree on what is written have the same line. -/
theorem format_congr {r r' : LogRecord} (hhead : head r = head r') (hexc : r.excName = r'.excName)
    (hfields : ∀ name ∈ ALLOWED_FIELDS, r.getattr name = r'.getattr name) : format r = format r' := by
  have hf : fields r = fields r' := List.filterMap_congr (fun name hname => by rw [hfields name hname])
  unfold format entry exception
  rw [hhead, hf, hexc]

end JsonFormatter

end PdMasking
