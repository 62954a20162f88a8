import PdMasking.Detectors.Base
import PdMasking.Lib.Json

/-!
# PdMasking.LlmClient — reading the stream of the LLM (`llm/client.py`)

The answer comes as lines `data: {json}` up to `data: [DONE]`.  `json.loads` is a parameter: it gives a value or
raises, and not only `JSONDecodeError` (nesting and the length of an integer are limited).

* `readLines_eq`: the loop is decided by the first line that ends it.
* `readStream_disciplined_iff`: when nothing but `LLMUnavailableError` escapes.
* `readStream_complete_iff`: when no answer is returned without the terminator.
-/

namespace PdMasking

/-- `response.aiter_lines()`: the lines, and whether the transport fails behind the last one. -/
structure StreamLines where
  lines : List Str
  broken : Bool

/-! ### The reader -/

/-- `value[key]`. -/
def getItem (key : Str) : Json → Except PyExc Json
  | .object members =>
    match Json.member key members with
    | some item => .ok item
    | none => .error .keyError
  | _ => .error .typeError

/-- `value[0]`. -/
def getFirst : Json → Except PyExc Json
  | .array (item :: _) => .ok item
  | .array [] => .error .indexError
  | .string (c :: _) => .ok (.string [c])
  | .string [] => .error .indexError
  | .object _ => .error .keyError
  | _ => .error .typeError

/-- `value.get(key)`. -/
def getMethod (key : Str) : Json → Except PyExc Json
  | .object members => .ok ((Json.member key members).getD .null)
  | _ => .error .attributeError

/-- `chunk["choices"][0]["delta"]`. -/
def chunkDelta (chunk : Json) : Except PyExc Json := do
  getItem "delta".toList (← getFirst (← getItem "choices".toList chunk))

/-- `chunk["choices"][0]["delta"].get("content")`. -/
def chunkContent (chunk : Json) : Except PyExc Json := do getMethod "content".toList (← chunkDelta chunk)

/-- What a line is to the loop. -/
inductive LineStep
  | skip
  | done
  | content (c : Json)

/-- `json.loads` within its limits. -/
def jsonLoads (data : Str) : Except PyExc Json :=
  match Json.loads data with
  | some value => .ok value
  | none => .error .jsonDecodeError

section Reader

variable (R : Runtime) (loads : Str → Except PyExc Json)

/-- The text behind `data:`. -/
def dataOf (line : Str) : Option Str :=
  if "data:".toList.isPrefixOf (strip R line) then some (strip R ((strip R line).drop 5)) else none

/-- The body of the loop of `_read_stream`. -/
def readLine (line : Str) : Except PyExc LineStep :=
  match dataOf R line with
  | none => .ok .skip
  | some data =>
    if data = "[DONE]".toList then .ok .done
    else
      match loads data with
      | .error e => .error (if e = .jsonDecodeError then .llmUnavailable else e)
      | .ok chunk =>
        match chunkContent chunk with
        | .error e => .error (if e = .keyError ∨ e = .indexError ∨ e = .typeError then .llmUnavailable else e)
        | .ok c => .ok (.content c)

/-- The loop of `_read_stream`: the list `parts`. -/
def readLines (broken : Bool) : List Str → Except PyExc (List Json)
  | [] => if broken then .error .llmUnavailable else .ok []
  | line :: lines =>
    match readLine R loads line with
    | .error e => .error e
    | .ok .skip => readLines broken lines
    | .ok .done => .ok []
    | .ok (.content c) => do
      let parts ← readLines broken lines
      return if c.truthy then c :: parts else parts

/-- `"".join(parts)`. -/
def joinParts : List Json → Except PyExc Str
  | [] => .ok []
  | .string s :: parts => do return s ++ (← joinParts parts)
  | _ :: _ => .error .typeError

/-- `AlfaGenClient._read_stream`. -/
def readStream (response : StreamLines) : Except PyExc Str := do
  joinParts (← readLines R loads response.broken response.lines)

/-- `AlfaGenClient.complete` on what the server replies; none when it is not reached. -/
def complete : Option (ℕ × StreamLines) → Except PyExc Str
  | none => .error .llmUnavailable
  | some (status, response) => if status ≠ 200 then .error .llmUnavailable else readStream R loads response

end Reader

/-! ### What a line says -/

section Lines

variable (R : Runtime) (loads : Str → Except PyExc Json)

/-- The terminator. -/
def IsDone (line : Str) : Prop := dataOf R line = some "[DONE]".toList

instance (line : Str) : Decidable (IsDone R line) := inferInstanceAs (Decidable (_ = _))

/-- The chunk on a line: what `json.loads` makes of it. -/
def chunkOf (line : Str) : Option (Except PyExc Json) :=
  ((dataOf R line).filter (fun data => data ≠ "[DONE]".toList)).map loads

/-- The string `choices[0].delta.content` of a chunk, when there is one and it is not empty. -/
def chunkText : Json → Option Str
  | .object chunk => do
    let .array (.object choice :: _) ← Json.member "choices".toList chunk | none
    let .object delta ← Json.member "delta".toList choice | none
    let .string s ← Json.member "content".toList delta | none
    if s = [] then none else some s
  | _ => none

def lineText (line : Str) : Option Str :=
  match chunkOf R loads line with
  | some (.ok chunk) => chunkText chunk
  | _ => none

/-- The chunk is read as the protocol has it or not at all: not JSON, or without `choices[0]["delta"]`. -/
def Malformed (line : Str) : Prop :=
  chunkOf R loads line = some (.error .jsonDecodeError) ∨ chunkOf R loads line = some (.error .llmUnavailable) ∨
    ∃ chunk e, chunkOf R loads line = some (.ok chunk) ∧ chunkDelta chunk = .error e

/-- `json.loads` fails in another way than by `JSONDecodeError`, or `choices[0]["delta"]` is not an object. -/
def Crashes (line : Str) : Prop :=
  (∃ e, chunkOf R loads line = some (.error e) ∧ e ≠ .jsonDecodeError ∧ e ≠ .llmUnavailable) ∨
    ∃ chunk delta, chunkOf R loads line = some (.ok chunk) ∧ chunkDelta chunk = .ok delta ∧
      ∀ members, delta ≠ .object members

/-- The content of the chunk counts as true but is not a string. -/
def OddContent (line : Str) : Prop :=
  ∃ chunk members c, chunkOf R loads line = some (.ok chunk) ∧ chunkDelta chunk = .ok (.object members) ∧
    Json.member "content".toList members = some c ∧ c.truthy = true ∧ ∀ s, c ≠ .string s

/-- The loop goes on behind the line. -/
def goesOn (line : Str) : Bool :=
  match readLine R loads line with
  | .ok .skip => true
  | .ok (.content _) => true
  | _ => false

/-- The first line that ends the loop. -/
def endLine (lines : List Str) : Option Str := lines.find? (fun line => !goesOn R loads line)

/-- What the loop appends at a line. -/
def partOf (line : Str) : Option Json :=
  match readLine R loads line with
  | .ok (.content c) => if c.truthy then some c else none
  | _ => none

end Lines

section Facts

variable {R : Runtime} {loads : Str → Except PyExc Json} {line : Str} {lines : List Str}

/-- Only lookup errors come from `choices[0]["delta"]`. -/
theorem chunkDelta_error {chunk : Json} {e : PyExc} (h : chunkDelta chunk = .error e) :
    e = .keyError ∨ e = .indexError ∨ e = .typeError := by
  have hitem : ∀ {key : Str} {v : Json} {e : PyExc}, getItem key v = .error e → e = .keyError ∨ e = .typeError := by
    intro key v e h
    unfold getItem at h
    split at h
    · split at h
      · cases h
      · exact Or.inl (Except.error.inj h).symm
    · exact Or.inr (Except.error.inj h).symm
  have hfirst : ∀ {v : Json} {e : PyExc}, getFirst v = .error e →
      e = .keyError ∨ e = .indexError ∨ e = .typeError := by
    intro v e h
    unfold getFirst at h
    split at h
    · cases h
    · exact Or.inr (Or.inl (Except.error.inj h).symm)
    · cases h
    · exact Or.inr (Or.inl (Except.error.inj h).symm)
    · exact Or.inl (Except.error.inj h).symm
    · exact Or.inr (Or.inr (Except.error.inj h).symm)
  unfold chunkDelta at h
  cases hchoices : getItem "choices".toList chunk with
  | error e' =>
    rw [hchoices] at h
    obtain rfl := Except.error.inj h
    exact (hitem hchoices).imp_right Or.inr
  | ok choices =>
    rw [hchoices] at h
    cases hchoice : getFirst choices with
    | error e' =>
      have h' : (getFirst choices >>= fun choice => getItem "delta".toList choice) = .error e := h
      rw [hchoice] at h'
      obtain rfl := Except.error.inj h'
      exact hfirst hchoice
    | ok choice =>
      have h' : (getFirst choices >>= fun choice => getItem "delta".toList choice) = .error e := h
      rw [hchoice] at h'
      exact (hitem h').imp_right Or.inr

/-- **What a line does**, case by case. -/
theorem readLine_cases (R : Runtime) (loads : Str → Except PyExc Json) (line : Str) :
    (dataOf R line = none ∧ readLine R loads line = .ok .skip) ∨
      (IsDone R line ∧ readLine R loads line = .ok .done) ∨
      (Malformed R loads line ∧ readLine R loads line = .error .llmUnavailable) ∨
      (Crashes R loads line ∧ ∃ e, readLine R loads line = .error e ∧ e ≠ .llmUnavailable) ∨
      ∃ chunk members, chunkOf R loads line = some (.ok chunk) ∧ chunkDelta chunk = .ok (.object members) ∧
        readLine R loads line = .ok (.content ((Json.member "content".toList members).getD .null)) := by
  unfold readLine
  cases hdata : dataOf R line with
  | none => exact Or.inl ⟨rfl, rfl⟩
  | some data =>
    refine Or.inr ?_
    dsimp only
    by_cases hdone : data = "[DONE]".toList
    · subst hdone
      exact Or.inl ⟨hdata, if_pos rfl⟩
    · have hchunk : chunkOf R loads line = some (loads data) := by
        unfold chunkOf
        rw [hdata, Option.filter_some, decide_eq_true hdone, if_pos rfl]
        rfl
      refine Or.inr ?_
      rw [if_neg hdone]
      cases hloads : loads data with
      | error e =>
        rw [hloads] at hchunk
        dsimp only
        by_cases hjson : e = .jsonDecodeError
        · subst hjson
          exact Or.inl ⟨Or.inl hchunk, by rw [if_pos rfl]⟩
        · rw [if_neg hjson]
          by_cases hllm : e = .llmUnavailable
          · subst hllm
            exact Or.inl ⟨Or.inr (Or.inl hchunk), rfl⟩
          · exact Or.inr (Or.inl ⟨Or.inl ⟨e, hchunk, hjson, hllm⟩, e, rfl, hllm⟩)
      | ok chunk =>
        rw [hloads] at hchunk
        dsimp only
        cases hdelta : chunkDelta chunk with
        | error e =>
          refine Or.inl ⟨Or.inr (Or.inr ⟨chunk, e, hchunk, hdelta⟩), ?_⟩
          have hcontent : chunkContent chunk = .error e := by
            unfold chunkContent
            rw [hdelta]
            rfl
          rw [hcontent]
          dsimp only
          rw [if_pos (chunkDelta_error hdelta)]
        | ok delta =>
          have hcontent : chunkContent chunk = getMethod "content".toList delta := by
            unfold chunkContent
            rw [hdelta]
            rfl
          rw [hcontent]
          by_cases hobject : ∃ members, delta = .object members
          · obtain ⟨members, rfl⟩ := hobject
            exact Or.inr (Or.inr ⟨chunk, members, hchunk, hdelta, rfl⟩)
          · rw [not_exists] at hobject
            refine Or.inr (Or.inl ⟨Or.inr ⟨chunk, delta, hchunk, hdelta, hobject⟩, .attributeError, ?_, by decide⟩)
            have hmethod : getMethod "content".toList delta = .error .attributeError := by
              unfold getMethod
              split
              · rename_i members
                exact absurd rfl (hobject members)
              · rfl
            rw [hmethod]
            rfl

theorem goesOn_iff : goesOn R loads line = true ↔
    readLine R loads line = .ok .skip ∨ ∃ c, readLine R loads line = .ok (.content c) := by
  unfold goesOn
  constructor
  · intro h
    split at h
    · rename_i hline
      exact Or.inl hline
    · rename_i c hline
      exact Or.inr ⟨c, hline⟩
    · cases h
  · rintro (h | ⟨c, h⟩)
    · rw [h]
    · rw [h]

theorem isDone_iff : IsDone R line ↔ readLine R loads line = .ok .done := by
  constructor
  · intro h
    unfold readLine
    rw [show dataOf R line = some "[DONE]".toList from h]
    exact if_pos rfl
  · intro h
    rcases readLine_cases R loads line with ⟨-, h'⟩ | ⟨hdone, -⟩ | ⟨-, h'⟩ | ⟨-, e, h', -⟩ | ⟨chunk, members, -, -, h'⟩
    · rw [h] at h'
      cases h'
    · exact hdone
    · rw [h] at h'
      cases h'
    · rw [h] at h'
      cases h'
    · rw [h] at h'
      cases h'

theorem not_goesOn_of_isDone (h : IsDone R line) : goesOn R loads line = false := by
  unfold goesOn
  rw [isDone_iff.mp h]

/-- A line without data has no chunk, and the terminator is none. -/
theorem chunkOf_of_no_data (h : dataOf R line = none) : chunkOf R loads line = none := by
  unfold chunkOf
  rw [h]
  rfl

theorem chunkOf_of_isDone (h : IsDone R line) : chunkOf R loads line = none := by
  unfold chunkOf
  rw [show dataOf R line = some "[DONE]".toList from h]
  rfl

/-- A chunk that is read is malformed when its delta is not found. -/
theorem malformed_iff_of_ok {chunk : Json} (hchunk : chunkOf R loads line = some (.ok chunk)) :
    Malformed R loads line ↔ ∃ e, chunkDelta chunk = .error e := by
  constructor
  · rintro (hbad | hbad | ⟨chunk', e, hbad, hdelta⟩)
    · rw [hchunk] at hbad
      cases hbad
    · rw [hchunk] at hbad
      cases hbad
    · obtain rfl := Except.ok.inj (Option.some.inj (hchunk.symm.trans hbad))
      exact ⟨e, hdelta⟩
  · rintro ⟨e, hdelta⟩
    exact Or.inr (Or.inr ⟨chunk, e, hchunk, hdelta⟩)

/-- It crashes when the delta is no object. -/
theorem crashes_iff_of_ok {chunk : Json} (hchunk : chunkOf R loads line = some (.ok chunk)) :
    Crashes R loads line ↔ ∃ delta, chunkDelta chunk = .ok delta ∧ ∀ members, delta ≠ .object members := by
  constructor
  · rintro (⟨e, hbad, -⟩ | ⟨chunk', delta, hbad, hdelta⟩)
    · rw [hchunk] at hbad
      cases hbad
    · obtain rfl := Except.ok.inj (Option.some.inj (hchunk.symm.trans hbad))
      exact ⟨delta, hdelta⟩
  · rintro ⟨delta, hdelta⟩
    exact Or.inr ⟨chunk, delta, hchunk, hdelta⟩

/-- What is malformed is foreseen. -/
theorem not_crashes_of_malformed (h : Malformed R loads line) : ¬ Crashes R loads line := by
  intro hcrash
  rcases h with hchunk | hchunk | ⟨chunk, e, hchunk, hdelta⟩
  · rcases hcrash with ⟨e, hbad, hjson, -⟩ | ⟨chunk, delta, hbad, -⟩
    · exact hjson (Except.error.inj (Option.some.inj (hbad.symm.trans hchunk)))
    · rw [hchunk] at hbad
      cases hbad
  · rcases hcrash with ⟨e, hbad, -, hllm⟩ | ⟨chunk, delta, hbad, -⟩
    · exact hllm (Except.error.inj (Option.some.inj (hbad.symm.trans hchunk)))
    · rw [hchunk] at hbad
      cases hbad
  · obtain ⟨delta, hok, -⟩ := (crashes_iff_of_ok hchunk).mp hcrash
    rw [hdelta] at hok
    cases hok

theorem not_isDone_of_crashes (h : Crashes R loads line) : ¬ IsDone R line := by
  intro hdone
  rcases h with ⟨e, hchunk, -⟩ | ⟨chunk, delta, hchunk, -⟩
  · rw [chunkOf_of_isDone hdone] at hchunk
    cases hchunk
  · rw [chunkOf_of_isDone hdone] at hchunk
    cases hchunk

theorem not_isDone_of_malformed (h : Malformed R loads line) : ¬ IsDone R line := by
  intro hdone
  have hnone : chunkOf R loads line = none := chunkOf_of_isDone hdone
  rcases h with hchunk | hchunk | ⟨chunk, e, hchunk, -⟩
  · rw [hnone] at hchunk
    cases hchunk
  · rw [hnone] at hchunk
    cases hchunk
  · rw [hnone] at hchunk
    cases hchunk

/-- **The loop.**  The first line that ends it decides; before it, the contents are collected. -/
theorem readLines_eq (R : Runtime) (loads : Str → Except PyExc Json) (broken : Bool) : ∀ lines : List Str,
    readLines R loads broken lines =
      match endLine R loads lines with
      | none => if broken then .error .llmUnavailable else .ok (lines.filterMap (partOf R loads))
      | some line =>
        match readLine R loads line with
        | .error e => .error e
        | .ok _ => .ok ((lines.takeWhile (goesOn R loads)).filterMap (partOf R loads))
  | [] => by cases broken <;> rfl
  | line :: lines => by
    have hrest := readLines_eq R loads broken lines
    rw [readLines]
    unfold endLine at hrest ⊢
    cases hgoes : goesOn R loads line with
    | false =>
      rw [List.find?_cons_of_pos (by rw [hgoes]; rfl),
        List.takeWhile_cons_of_neg (by rw [hgoes]; exact Bool.false_ne_true)]
      unfold goesOn at hgoes
      cases hline : readLine R loads line with
      | error e => simp only [hline]
      | ok step =>
        rw [hline] at hgoes
        cases step with
        | skip => cases hgoes
        | done => simp only [hline, List.filterMap_nil]
        | content c => cases hgoes
    | true =>
      rw [List.find?_cons_of_neg (by rw [hgoes]; exact Bool.false_ne_true), List.takeWhile_cons_of_pos hgoes]
      rcases goesOn_iff.mp hgoes with hline | ⟨c, hline⟩
      · have hpart : partOf R loads line = none := by
          unfold partOf
          rw [hline]
        rw [hline, List.filterMap_cons_none hpart, List.filterMap_cons_none hpart]
        exact hrest
      · rw [hline]
        show (readLines R loads broken lines >>= fun parts => Except.ok (if c.truthy then c :: parts else parts)) = _
        rw [hrest]
        have hpart : ∀ ls : List Str, (line :: ls).filterMap (partOf R loads) =
            if c.truthy then c :: ls.filterMap (partOf R loads) else ls.filterMap (partOf R loads) := by
          intro ls
          have hpart : partOf R loads line = if c.truthy then some c else none := by
            unfold partOf
            rw [hline]
          split_ifs at hpart ⊢
          · rw [List.filterMap_cons_some hpart]
          · rw [List.filterMap_cons_none hpart]
        rw [hpart, hpart]
        cases List.find? (fun line => !goesOn R loads line) lines with
        | none => cases broken <;> rfl
        | some l =>
          dsimp only
          cases readLine R loads l <;> rfl

/-- The path to the delta of a chunk. -/
theorem chunkDelta_ok_iff {chunk delta : Json} : chunkDelta chunk = .ok delta ↔
    ∃ members choice rest, chunk = .object members ∧
      Json.member "choices".toList members = some (.array (.object choice :: rest)) ∧
      Json.member "delta".toList choice = some delta := by
  have hitem : ∀ {key : Str} {v w : Json}, getItem key v = .ok w ↔
      ∃ members, v = .object members ∧ Json.member key members = some w := by
    intro key v w
    unfold getItem
    constructor
    · intro h
      split at h
      · rename_i members
        split at h
        · rename_i item hmember
          obtain rfl := Except.ok.inj h
          exact ⟨members, rfl, hmember⟩
        · cases h
      · cases h
    · rintro ⟨members, rfl, hmember⟩
      dsimp only
      rw [hmember]
  have hbind : chunkDelta chunk = .ok delta ↔ ∃ choices choice, getItem "choices".toList chunk = .ok choices ∧
      getFirst choices = .ok choice ∧ getItem "delta".toList choice = .ok delta := by
    unfold chunkDelta
    cases getItem "choices".toList chunk with
    | error e => exact ⟨nofun, fun ⟨_, _, h, _⟩ => nomatch h⟩
    | ok choices =>
      show (getFirst choices >>= fun choice => getItem "delta".toList choice) = .ok delta ↔ _
      cases hfirst : getFirst choices with
      | error e =>
        refine ⟨nofun, ?_⟩
        rintro ⟨_, _, h, h', -⟩
        obtain rfl := Except.ok.inj h
        rw [hfirst] at h'
        cases h'
      | ok choice =>
        refine ⟨fun h => ⟨choices, choice, rfl, hfirst, h⟩, ?_⟩
        rintro ⟨_, _, h, h', hdelta⟩
        obtain rfl := Except.ok.inj h
        rw [hfirst] at h'
        obtain rfl := Except.ok.inj h'
        exact hdelta
  rw [hbind]
  simp only [hitem]
  constructor
  · rintro ⟨choices, choice, ⟨members, rfl, hchoices⟩, hfirst, choiceMembers, rfl, hdelta⟩
    unfold getFirst at hfirst
    split at hfirst
    · rename_i rest
      obtain rfl := Except.ok.inj hfirst
      exact ⟨members, choiceMembers, rest, rfl, hchoices, hdelta⟩
    · cases hfirst
    · cases Except.ok.inj hfirst
    · cases hfirst
    · cases hfirst
    · cases hfirst
  · rintro ⟨members, choice, rest, rfl, hchoices, hdelta⟩
    exact ⟨_, .object choice, ⟨members, rfl, hchoices⟩, rfl, choice, rfl, hdelta⟩

/-- The text of a chunk, by its delta. -/
theorem chunkText_eq_some_iff {chunk : Json} {s : Str} : chunkText chunk = some s ↔
    ∃ members, chunkDelta chunk = .ok (.object members) ∧ Json.member "content".toList members = some (.string s) ∧
      s ≠ [] := by
  constructor
  · intro h
    unfold chunkText at h
    split at h
    · rename_i members
      obtain ⟨choices, hchoices, h⟩ := Option.bind_eq_some_iff.mp h
      split at h
      · rename_i choice rest
        obtain ⟨delta, hdelta, h⟩ := Option.bind_eq_some_iff.mp h
        split at h
        · rename_i deltaMembers
          obtain ⟨content, hcontent, h⟩ := Option.bind_eq_some_iff.mp h
          split at h
          · rename_i text
            split_ifs at h with hne
            obtain rfl := Option.some.inj h
            exact ⟨deltaMembers, chunkDelta_ok_iff.mpr ⟨members, choice, rest, rfl, hchoices, hdelta⟩, hcontent, hne⟩
          · cases h
        · cases h
      · cases h
    · cases h
  · rintro ⟨deltaMembers, hdelta, hcontent, hne⟩
    obtain ⟨members, choice, rest, rfl, hchoices, hdelta⟩ := chunkDelta_ok_iff.mp hdelta
    unfold chunkText
    simp only [hchoices, hdelta, hcontent, Option.bind_eq_bind, Option.bind_some, if_neg hne]

/-- No text without a string that is not empty. -/
theorem chunkText_eq_none {chunk : Json} (h : ∀ members s, chunkDelta chunk = .ok (.object members) →
    Json.member "content".toList members = some (.string s) → s = []) : chunkText chunk = none := by
  rw [Option.eq_none_iff_forall_ne_some]
  intro s hs
  obtain ⟨members, hok, hmember, hne⟩ := chunkText_eq_some_iff.mp hs
  exact hne (h members s hok hmember)

/-- A delta without a text that is not empty. -/
theorem chunkText_of_delta {chunk : Json} {members : List (Str × Json)} (hdelta : chunkDelta chunk = .ok (.object members))
    (h : ∀ s, Json.member "content".toList members = some (.string s) → s = []) : chunkText chunk = none := by
  refine chunkText_eq_none ?_
  intro members' s hok hmember
  rw [hdelta] at hok
  cases hok
  exact h s hmember

/-- What the loop appends is the text of the line, unless it is odd. -/
theorem partOf_eq (h : ¬ OddContent R loads line) : partOf R loads line = (lineText R loads line).map Json.string := by
  have hskip : chunkOf R loads line = none → lineText R loads line = none := by
    intro hchunk
    unfold lineText
    rw [hchunk]
  rcases readLine_cases R loads line with ⟨hdata, hline⟩ | ⟨hdone, hline⟩ | ⟨hbad, hline⟩ | ⟨hcrash, e, hline, -⟩ |
    ⟨chunk, members, hchunk, hdelta, hline⟩
  · unfold partOf
    rw [hline, hskip (chunkOf_of_no_data hdata)]
    rfl
  · unfold partOf
    rw [hline, hskip (chunkOf_of_isDone hdone)]
    rfl
  · have hnone : lineText R loads line = none := by
      unfold lineText
      rcases hbad with hchunk | hchunk | ⟨chunk, e, hchunk, hdelta⟩
      · rw [hchunk]
      · rw [hchunk]
      · rw [hchunk]
        refine chunkText_eq_none ?_
        intro members s hok _
        rw [hdelta] at hok
        cases hok
    unfold partOf
    rw [hline, hnone]
    rfl
  · have hnone : lineText R loads line = none := by
      unfold lineText
      rcases hcrash with ⟨e, hchunk, -⟩ | ⟨chunk, delta, hchunk, hdelta, hobject⟩
      · rw [hchunk]
      · rw [hchunk]
        refine chunkText_eq_none ?_
        intro members s hok _
        rw [hdelta] at hok
        exact absurd (Except.ok.inj hok) (hobject members)
    unfold partOf
    rw [hline, hnone]
    rfl
  · have htext : lineText R loads line = chunkText chunk := by
      unfold lineText
      rw [hchunk]
    unfold partOf
    rw [hline, htext]
    dsimp only
    cases hcontent : Json.member "content".toList members with
    | none =>
      have hnone : chunkText chunk = none := by
        refine chunkText_of_delta hdelta ?_
        intro s hmember
        rw [hcontent] at hmember
        cases hmember
      rw [hnone]
      rfl
    | some c =>
      rw [Option.getD_some]
      by_cases htrue : c.truthy = true
      · rw [if_pos htrue]
        obtain ⟨s, rfl⟩ : ∃ s, c = .string s := by
          by_contra hnot
          exact h ⟨chunk, members, c, hchunk, hdelta, hcontent, htrue, not_exists.mp hnot⟩
        have hne : s ≠ [] := by
          rintro rfl
          cases htrue
        rw [chunkText_eq_some_iff.mpr ⟨members, hdelta, hcontent, hne⟩]
        rfl
      · rw [if_neg htrue]
        have hnone : chunkText chunk = none := by
          refine chunkText_of_delta hdelta ?_
          intro s hmember
          rw [hcontent] at hmember
          obtain rfl := Option.some.inj hmember
          by_contra hne
          obtain ⟨a, t, rfl⟩ := List.exists_cons_of_ne_nil hne
          exact htrue rfl
        rw [hnone]
        rfl

/-- An odd content is appended. -/
theorem partOf_odd (h : OddContent R loads line) : ∃ c, partOf R loads line = some c ∧ ∀ s, c ≠ .string s := by
  obtain ⟨chunk, members, c, hchunk, hdelta, hcontent, htrue, hodd⟩ := h
  refine ⟨c, ?_, hodd⟩
  rcases readLine_cases R loads line with ⟨hdata, -⟩ | ⟨hdone, -⟩ | ⟨hbad, -⟩ | ⟨hcrash, -⟩ |
    ⟨chunk', members', hchunk', hdelta', hline⟩
  · rw [chunkOf_of_no_data hdata] at hchunk
    cases hchunk
  · rw [chunkOf_of_isDone hdone] at hchunk
    cases hchunk
  · obtain ⟨e, herror⟩ := (malformed_iff_of_ok hchunk).mp hbad
    rw [hdelta] at herror
    cases herror
  · obtain ⟨delta, hok, hobject⟩ := (crashes_iff_of_ok hchunk).mp hcrash
    rw [hdelta] at hok
    exact absurd (Except.ok.inj hok).symm (hobject members)
  · rw [hchunk] at hchunk'
    cases hchunk'
    rw [hdelta] at hdelta'
    cases hdelta'
    unfold partOf
    rw [hline, hcontent, Option.getD_some]
    exact if_pos htrue

theorem joinParts_strings : ∀ texts : List Str, joinParts (texts.map Json.string) = .ok texts.flatten
  | [] => rfl
  | s :: texts => by
    rw [List.map_cons, joinParts, joinParts_strings texts]
    rfl

/-- A part that is no string makes `join` fail. -/
theorem joinParts_odd : ∀ {parts : List Json}, (∃ c ∈ parts, ∀ s, c ≠ .string s) → joinParts parts = .error .typeError
  | [], h => by
    obtain ⟨c, hc, -⟩ := h
    cases hc
  | c :: parts, h => by
    by_cases hstring : ∃ s, c = .string s
    · obtain ⟨s, rfl⟩ := hstring
      obtain ⟨d, hd, hodd⟩ := h
      rcases List.mem_cons.mp hd with rfl | hd
      · exact absurd rfl (hodd s)
      · rw [joinParts, joinParts_odd ⟨d, hd, hodd⟩]
        rfl
    · unfold joinParts
      split
      · rename_i hnil
        cases hnil
      · rename_i s rest hcons
        obtain ⟨rfl, -⟩ := List.cons.inj hcons
        exact absurd ⟨s, rfl⟩ hstring
      · rfl

/-- **Joining what the lines give**: the texts in their order, unless a content is odd. -/
theorem joinParts_lines (R : Runtime) (loads : Str → Except PyExc Json) (lines : List Str) :
    ((∀ line ∈ lines, ¬ OddContent R loads line) ∧
      joinParts (lines.filterMap (partOf R loads)) = .ok (lines.filterMap (lineText R loads)).flatten) ∨
    ((∃ line ∈ lines, OddContent R loads line) ∧
      joinParts (lines.filterMap (partOf R loads)) = .error .typeError) := by
  by_cases hodd : ∃ line ∈ lines, OddContent R loads line
  · obtain ⟨line, hline, hcontent⟩ := hodd
    obtain ⟨c, hpart, hc⟩ := partOf_odd hcontent
    exact Or.inr ⟨⟨line, hline, hcontent⟩, joinParts_odd ⟨c, List.mem_filterMap.mpr ⟨line, hline, hpart⟩, hc⟩⟩
  · have hplain : ∀ line ∈ lines, ¬ OddContent R loads line := fun line hline h => hodd ⟨line, hline, h⟩
    have hparts : lines.filterMap (partOf R loads) = (lines.filterMap (lineText R loads)).map Json.string := by
      rw [List.map_filterMap]
      refine List.filterMap_congr ?_
      intro line hline
      exact partOf_eq (hplain line hline)
    refine Or.inl ⟨hplain, ?_⟩
    rw [hparts, joinParts_strings]

/-- The joined text is returned exactly when no content is odd. -/
theorem joinParts_disciplined_iff (lines : List Str) :
    (((∃ answer, joinParts (lines.filterMap (partOf R loads)) = .ok answer) ∨
        joinParts (lines.filterMap (partOf R loads)) = .error .llmUnavailable) ∧
      ∀ answer, joinParts (lines.filterMap (partOf R loads)) = .ok answer →
        answer = (lines.filterMap (lineText R loads)).flatten) ↔
    ∀ line ∈ lines, ¬ OddContent R loads line := by
  rcases joinParts_lines R loads lines with ⟨hplain, hjoin⟩ | ⟨⟨line, hline, hodd⟩, hjoin⟩
  · rw [hjoin]
    exact iff_of_true ⟨Or.inl ⟨_, rfl⟩, fun answer hanswer => (Except.ok.inj hanswer).symm⟩ hplain
  · rw [hjoin]
    refine iff_of_false ?_ (fun hno => hno line hline hodd)
    rintro ⟨⟨answer, hanswer⟩ | hout, -⟩
    · cases hanswer
    · cases hout

end Facts

/-! ### The whole stream -/

section Streams

variable (R : Runtime) (loads : Str → Except PyExc Json)

/-- The contents before the first terminator, joined. -/
def answerText (lines : List Str) : Str :=
  ((lines.takeWhile (fun line => !decide (IsDone R line))).filterMap (lineText R loads)).flatten

/-- How a stream ends: behind a line of some kind, or without one. -/
theorem endLine_cases (lines : List Str) :
    (endLine R loads lines = none ∧ (∀ line ∈ lines, goesOn R loads line = true) ∧
      lines.takeWhile (goesOn R loads) = lines) ∨
    ∃ pre line post, lines = pre ++ line :: post ∧ endLine R loads lines = some line ∧
      goesOn R loads line = false ∧ (∀ l ∈ pre, goesOn R loads l = true) ∧
      lines.takeWhile (goesOn R loads) = pre := by
  unfold endLine
  cases hfind : lines.find? (fun line => !goesOn R loads line) with
  | none =>
    have hall : ∀ line ∈ lines, goesOn R loads line = true := by
      intro line hline
      have hnot := List.find?_eq_none.mp hfind line hline
      rwa [Bool.not_eq_true, Bool.not_eq_false'] at hnot
    exact Or.inl ⟨rfl, hall, List.takeWhile_eq_self_iff.mpr hall⟩
  | some line =>
    obtain ⟨hline, pre, post, hsplit, hpre⟩ := List.find?_eq_some_iff_append.mp hfind
    have hgoes : ∀ l ∈ pre, goesOn R loads l = true := by
      intro l hl
      simpa using hpre l hl
    have hstop : goesOn R loads line = false := by simpa using hline
    refine Or.inr ⟨pre, line, post, hsplit, rfl, hstop, hgoes, ?_⟩
    rw [hsplit, List.takeWhile_append_of_pos hgoes,
      List.takeWhile_cons_of_neg (by rw [hstop]; exact Bool.false_ne_true), List.append_nil]

/-- A line before the end is not the terminator. -/
theorem not_isDone_of_goesOn {line : Str} (h : goesOn R loads line = true) : ¬ IsDone R line := by
  intro hdone
  rw [not_goesOn_of_isDone hdone] at h
  cases h

theorem answerText_of_all {lines : List Str} (h : ∀ line ∈ lines, goesOn R loads line = true) :
    answerText R loads lines = (lines.filterMap (lineText R loads)).flatten := by
  unfold answerText
  rw [List.takeWhile_eq_self_iff.mpr]
  intro line hline
  rw [decide_eq_false (not_isDone_of_goesOn R loads (h line hline))]
  rfl

theorem answerText_of_done {pre post : List Str} {line : Str} (hpre : ∀ l ∈ pre, goesOn R loads l = true)
    (hdone : IsDone R line) :
    answerText R loads (pre ++ line :: post) = (pre.filterMap (lineText R loads)).flatten := by
  unfold answerText
  rw [List.takeWhile_append_of_pos, List.takeWhile_cons_of_neg, List.append_nil]
  · rw [decide_eq_true hdone]
    exact Bool.false_ne_true
  · intro l hl
    rw [decide_eq_false (not_isDone_of_goesOn R loads (hpre l hl))]
    rfl

/-- **What the reader returns.**  The transport may fail, the first line that ends the loop may be the terminator, a
malformed chunk or one the reader does not foresee. -/
theorem readStream_cases (response : StreamLines) :
    (endLine R loads response.lines = none ∧ (∀ line ∈ response.lines, goesOn R loads line = true) ∧
      response.broken = true ∧ readStream R loads response = .error .llmUnavailable) ∨
    (endLine R loads response.lines = none ∧ (∀ line ∈ response.lines, goesOn R loads line = true) ∧
      response.broken = false ∧
      readStream R loads response = joinParts (response.lines.filterMap (partOf R loads))) ∨
    ∃ pre line post, response.lines = pre ++ line :: post ∧ endLine R loads response.lines = some line ∧
      (∀ l ∈ pre, goesOn R loads l = true) ∧ response.lines.takeWhile (goesOn R loads) = pre ∧
      ((IsDone R line ∧ readStream R loads response = joinParts (pre.filterMap (partOf R loads))) ∨
        (Malformed R loads line ∧ readStream R loads response = .error .llmUnavailable) ∨
        (Crashes R loads line ∧ ∃ e, readStream R loads response = .error e ∧ e ≠ .llmUnavailable)) := by
  have hread : readStream R loads response = (readLines R loads response.broken response.lines >>= joinParts) := rfl
  rw [hread, readLines_eq]
  rcases endLine_cases R loads response.lines with ⟨hend, hall, -⟩ | ⟨pre, line, post, hsplit, hend, hstop, hpre, htake⟩
  · rw [hend]
    cases hbroken : response.broken with
    | true => exact Or.inl ⟨rfl, hall, rfl, rfl⟩
    | false => exact Or.inr (Or.inl ⟨rfl, hall, rfl, rfl⟩)
  · refine Or.inr (Or.inr ⟨pre, line, post, hsplit, hend, hpre, htake, ?_⟩)
    rw [hend, htake]
    dsimp only
    unfold goesOn at hstop
    rcases readLine_cases R loads line with ⟨-, hline⟩ | ⟨hdone, hline⟩ | ⟨hbad, hline⟩ | ⟨hcrash, e, hline, he⟩ |
      ⟨chunk, members, -, -, hline⟩
    · rw [hline] at hstop
      cases hstop
    · rw [hline]
      exact Or.inl ⟨hdone, rfl⟩
    · rw [hline]
      exact Or.inr (Or.inl ⟨hbad, rfl⟩)
    · rw [hline]
      exact Or.inr (Or.inr ⟨hcrash, e, rfl, he⟩)
    · rw [hline] at hstop
      cases hstop

/-- The loop ends at the terminator, or at the end of a stream that is not cut by the transport. -/
def EndsWell (response : StreamLines) : Prop :=
  (∃ line, endLine R loads response.lines = some line ∧ IsDone R line) ∨
    (endLine R loads response.lines = none ∧ response.broken = false)

/-- **When the reader keeps its discipline**: it returns the text of the chunks or raises `LLMUnavailableError`.  This
is so exactly when the first line that ends the loop is none that the reader does not foresee, and, when the loop
ends well, all contents it has met are strings. -/
theorem readStream_disciplined_iff (response : StreamLines) :
    (((∃ answer, readStream R loads response = .ok answer) ∨
        readStream R loads response = .error .llmUnavailable) ∧
      ∀ answer, readStream R loads response = .ok answer → answer = answerText R loads response.lines) ↔
    (∀ line, endLine R loads response.lines = some line → ¬ Crashes R loads line) ∧
      (EndsWell R loads response →
        ∀ line ∈ response.lines.takeWhile (goesOn R loads), ¬ OddContent R loads line) := by
  rcases readStream_cases R loads response with ⟨hend, -, hbroken, hread⟩ | ⟨hend, hall, hbroken, hread⟩ |
    ⟨pre, line, post, hsplit, hend, hpre, htake, hkind⟩
  · -- the transport fails
    rw [hread, hend]
    refine iff_of_true ⟨Or.inr rfl, nofun⟩ ⟨nofun, ?_⟩
    rintro (⟨line, hline, -⟩ | ⟨-, hopen⟩)
    · rw [hend] at hline
      cases hline
    · rw [hbroken] at hopen
      cases hopen
  · -- all lines are read
    have hwell : EndsWell R loads response := Or.inr ⟨hend, hbroken⟩
    have htake : response.lines.takeWhile (goesOn R loads) = response.lines := List.takeWhile_eq_self_iff.mpr hall
    rw [hread, htake, hend, answerText_of_all R loads hall, joinParts_disciplined_iff]
    exact ⟨fun hno => ⟨nofun, fun _ => hno⟩, fun h => h.2 hwell⟩
  · have hlast : ∀ line', endLine R loads response.lines = some line' → line' = line := by
      intro line' hline'
      rw [hend] at hline'
      exact (Option.some.inj hline').symm
    rw [htake]
    rcases hkind with ⟨hdone, hread⟩ | ⟨hbad, hread⟩ | ⟨hcrash, e, hread, he⟩
    · have htext : answerText R loads response.lines = (pre.filterMap (lineText R loads)).flatten := by
        rw [hsplit]
        exact answerText_of_done R loads hpre hdone
      rw [hread, htext, joinParts_disciplined_iff]
      constructor
      · intro hno
        refine ⟨?_, fun _ => hno⟩
        intro line' hline' hcrash
        rw [hlast line' hline'] at hcrash
        exact not_isDone_of_crashes hcrash hdone
      · rintro ⟨-, hno⟩
        exact hno (Or.inl ⟨line, hend, hdone⟩)
    · rw [hread]
      refine iff_of_true ⟨Or.inr rfl, nofun⟩ ⟨?_, ?_⟩
      · intro line' hline'
        rw [hlast line' hline']
        exact not_crashes_of_malformed hbad
      · rintro (⟨line', hline', hdone⟩ | ⟨hnone, -⟩)
        · rw [hlast line' hline'] at hdone
          exact absurd hdone (not_isDone_of_malformed hbad)
        · rw [hend] at hnone
          cases hnone
    · rw [hread]
      refine iff_of_false ?_ ?_
      · rintro ⟨⟨answer, hanswer⟩ | hllm, -⟩
        · cases hanswer
        · exact he (Except.error.inj hllm)
      · rintro ⟨hno, -⟩
        exact hno line hend hcrash

/-- A line whose delta is `null`. -/
def nullDelta : Str := chars "data: \x7b\"choices\": [\x7b\"delta\": null\x7d]\x7d"

/-- A chunk without a delta object ends the request in another error. -/
theorem delta_null_escapes :
    ¬ ∀ (R : Runtime) (loads : Str → Except PyExc Json) (response : StreamLines),
      ((∃ answer, readStream R loads response = .ok answer) ∨
          readStream R loads response = .error .llmUnavailable) ∧
        ∀ answer, readStream R loads response = .ok answer → answer = answerText R loads response.lines := by
  intro hall
  have hread : readStream Runtime.basic jsonLoads
      ⟨[nullDelta, "data: [DONE]".toList], false⟩ =
      .error .attributeError := by
    decide +kernel
  obtain ⟨⟨answer, hanswer⟩ | hllm, -⟩ := hall Runtime.basic jsonLoads
    ⟨[nullDelta, "data: [DONE]".toList], false⟩
  · rw [hread] at hanswer
    cases hanswer
  · rw [hread] at hllm
    cases hllm

/-- **When a cut answer is noticed.**  An answer is returned only behind a terminator, and a stream without one is
reported, exactly when the stream has a terminator, or the first line that ends the loop is malformed, or no line
ends it and the transport fails. -/
theorem readStream_complete_iff (response : StreamLines) :
    ((∀ answer, readStream R loads response = .ok answer →
        ∃ pre line post, response.lines = pre ++ line :: post ∧ IsDone R line ∧
          answer = (pre.filterMap (lineText R loads)).flatten) ∧
      ((∀ line ∈ response.lines, ¬ IsDone R line) → readStream R loads response = .error .llmUnavailable)) ↔
    (∃ line ∈ response.lines, IsDone R line) ∨
      (∃ line, endLine R loads response.lines = some line ∧ Malformed R loads line) ∨
      (endLine R loads response.lines = none ∧ response.broken = true) := by
  rcases readStream_cases R loads response with ⟨hend, -, hbroken, hread⟩ | ⟨hend, hall, hbroken, hread⟩ |
    ⟨pre, line, post, hsplit, hend, hpre, -, hkind⟩
  · rw [hread]
    exact iff_of_true ⟨nofun, fun _ => rfl⟩ (Or.inr (Or.inr ⟨hend, hbroken⟩))
  · -- no terminator, and no failure either
    have hnone : ∀ line ∈ response.lines, ¬ IsDone R line := fun line hline =>
      not_isDone_of_goesOn R loads (hall line hline)
    refine iff_of_false ?_ ?_
    · rintro ⟨hok, herror⟩
      have hllm := herror hnone
      rcases joinParts_lines R loads response.lines with ⟨-, hjoin⟩ | ⟨-, hjoin⟩
      · rw [hread, hjoin] at hllm
        cases hllm
      · rw [hread, hjoin] at hllm
        cases hllm
    · rintro (⟨line, hline, hdone⟩ | ⟨line, hline, -⟩ | ⟨-, hcut⟩)
      · exact hnone line hline hdone
      · rw [hend] at hline
        cases hline
      · rw [hbroken] at hcut
        cases hcut
  · have hmem : line ∈ response.lines := by
      rw [hsplit]
      exact List.mem_append_right pre List.mem_cons_self
    rcases hkind with ⟨hdone, hread⟩ | ⟨hbad, hread⟩ | ⟨hcrash, e, hread, he⟩
    · refine iff_of_true ⟨?_, ?_⟩ (Or.inl ⟨line, hmem, hdone⟩)
      · intro answer hanswer
        refine ⟨pre, line, post, hsplit, hdone, ?_⟩
        rcases joinParts_lines R loads pre with ⟨-, hjoin⟩ | ⟨-, hjoin⟩
        · rw [hread, hjoin] at hanswer
          exact (Except.ok.inj hanswer).symm
        · rw [hread, hjoin] at hanswer
          cases hanswer
      · intro hnone
        exact absurd hdone (hnone line hmem)
    · rw [hread]
      exact iff_of_true ⟨nofun, fun _ => rfl⟩ (Or.inr (Or.inl ⟨line, hend, hbad⟩))
    · rw [hread]
      constructor
      · rintro ⟨-, herror⟩
        by_contra hnot
        rw [not_or] at hnot
        have hllm := herror (fun l hl hdone => hnot.1 ⟨l, hl, hdone⟩)
        exact he (Except.error.inj hllm)
      · rintro (⟨l, hl, hdone⟩ | ⟨l, hl, hbad⟩ | ⟨hnone, -⟩)
        · exact ⟨nofun, fun hnone => absurd hdone (hnone l hl)⟩
        · rw [hend] at hl
          obtain rfl := Option.some.inj hl
          exact absurd hcrash (not_crashes_of_malformed hbad)
        · rw [hend] at hnone
          cases hnone

/-- A line with the text `Hello`. -/
def helloChunk : Str := chars "data: \x7b\"choices\":[\x7b\"delta\":\x7b\"content\":\"Hello\"\x7d\x7d]\x7d"

/-- A stream that is cut behind its first chunk gives an answer. -/
theorem cut_stream_accepted :
    ¬ ∀ (R : Runtime) (loads : Str → Except PyExc Json) (response : StreamLines),
      (∀ answer, readStream R loads response = .ok answer →
        ∃ pre line post, response.lines = pre ++ line :: post ∧ IsDone R line ∧
          answer = (pre.filterMap (lineText R loads)).flatten) ∧
      ((∀ line ∈ response.lines, ¬ IsDone R line) → readStream R loads response = .error .llmUnavailable) := by
  intro hall
  have hread : readStream Runtime.basic jsonLoads
      ⟨[helloChunk], false⟩ =
      .ok "Hello".toList := by
    decide +kernel
  obtain ⟨-, herror⟩ := hall Runtime.basic jsonLoads
    ⟨[helloChunk], false⟩
  have hnone : ∀ line ∈ [helloChunk],
      ¬ IsDone Runtime.basic line := by
    intro line hline
    rw [List.mem_singleton.mp hline]
    decide
  rw [hread] at herror
  cases herror hnone

end Streams

end PdMasking
