import PdMasking.Codec
import PdMasking.GoldLabels
import PdMasking.Lib.Csv

/-!
# PdMasking.GoldFile — the files of a labelling (`scripts/make_gold_template.py`, `scripts/eval_gold.py`)

`write_outputs` writes the draft of a labelling as a table, and its texts once more as lines of JSON, since a
spreadsheet may spoil them in the table; `load_gold` reads both.

* `loadGold_writeOutputs`: the draft is read back, exactly when no field is over the limit of `csv`.
-/

namespace PdMasking

open Json

/-! ### Rows -/

/-- A labelled `trap`: `0` or `1`. -/
inductive Trap
  | personal
  | trap
  deriving DecidableEq

structure GoldRow where
  id : Str
  text : Str
  /-- `None`: not labelled. -/
  trap : Option Trap
  expected : List (Str × Str)

/-- A row of the draft: `(text, mask, trap, expected)`. -/
structure TemplateRow where
  text : Str
  mask : Str
  trap : Str
  expected : Str

/-- The value of a name; of several the last one counts. -/
def lastValue {α : Type} (name : Str) (members : List (Str × α)) : Option α :=
  (members.reverse.find? (fun m => m.1 == name)).map Prod.snd

/-- `str(row.get(name) or "")` -/
def fieldOf (row : List (Str × Option Str)) (name : Str) : Str := ((lastValue name row).join).getD []

section Parsing

variable (R : Runtime)

/-- `parse_trap` -/
def parseTrap (raw : Str) : Option Trap :=
  let value := strip R raw
  if value = [] then none
  else some (if value = ['1'] then .trap else .personal)

/-- `parse_gold_row` -/
def parseGoldRow (texts : List (Str × Str)) (row : List (Str × Option Str)) : GoldRow :=
  let id := strip R (fieldOf row "id".toList)
  { id
    text := (lastValue id texts).getD (fieldOf row "text".toList)
    trap := parseTrap R (fieldOf row "trap".toList)
    expected := parseExpected R (fieldOf row "expected".toList) }

end Parsing

/-! ### Writing -/

/-- `csv` with `delimiter=";"` and the default limit. -/
def goldDialect : Csv.Dialect := ⟨';', 131072, by decide, by decide, by decide⟩

def goldHeader : List Str := ["id".toList, "text".toList, "mask".toList, "trap".toList, "expected".toList]

/-- `enumerate(rows, start=1)` -/
def numbered (rows : List TemplateRow) : List (TemplateRow × ℕ) := rows.zipIdx 1

def csvFields (r : TemplateRow × ℕ) : List Str := [natText r.2, r.1.text, r.1.mask, r.1.trap, r.1.expected]

/-- The rows of the table. -/
def tableRows (rs : List (TemplateRow × ℕ)) : List (List Str) := goldHeader :: rs.map csvFields

/-- `{"id": str(idx), "text": text}` -/
def textDoc (r : TemplateRow × ℕ) : Doc :=
  .object [("id".toList, .string (natText r.2)), ("text".toList, .string r.1.text)]

def textLine (r : TemplateRow × ℕ) : Str := (textDoc r).text .spaced ++ ['\n']

/-- The mark that `utf-8-sig` puts in front. -/
def bom : Char := Char.ofNat 0xfeff

/-- The table, and the file next to it, if there is one. -/
structure GoldFiles where
  table : ByteArray
  texts : Option ByteArray

/-- `write_outputs` -/
def writeOutputs (rows : List TemplateRow) : GoldFiles where
  table := utf8 (bom :: Csv.text goldDialect (tableRows (numbered rows)))
  texts := some (utf8 ((numbered rows).flatMap textLine))

/-! ### Reading -/

/-- What ends `load_gold` without rows. -/
inductive GoldError
  /-- `csv.Error` -/
  | csv (error : Csv.Error)
  /-- `SystemExit`: neither UTF-8 nor cp1251. -/
  | encoding
  | unicodeDecodeError
  | jsonDecodeError
  | keyError
  | typeError
  /-- An id or a text that is no string; `write_outputs` writes none. -/
  | notText
  deriving DecidableEq

/-- Decoding with `utf-8-sig`. -/
def utf8Sig (bytes : ByteArray) : Option Str :=
  (utf8Decode bytes).map (fun s => if s.head? = some bom then s.tail else s)

/-- A row as a dictionary; the fields that are missing are `None`, and those that have no name are left out. -/
def dictRow (fieldnames row : List Str) : List (Str × Option Str) :=
  fieldnames.zip (row.map some) ++ (fieldnames.drop row.length).map (fun name => (name, none))

/-- `csv.DictReader` -/
def dictRows : List (List Str) → List (List (Str × Option Str))
  | [] => []
  | fieldnames :: rows => (rows.filter (· ≠ [])).map (dictRow fieldnames)

/-- `read_csv_rows` -/
def readCsvRows (cp1251 : ByteArray → Option Str) (bytes : ByteArray) :
    Except GoldError (List (List (Str × Option Str))) :=
  match (utf8Sig bytes).or (cp1251 bytes) with
  | none => .error .encoding
  | some s =>
    match Csv.rows goldDialect s with
    | .error e => .error (.csv e)
    | .ok rows => .ok (dictRows rows)

/-- The lines of a file that is opened with `newline=None`. -/
def fileLines (s : Str) : List Str :=
  (Csv.lines s).map (fun l => if l.getLast?.any Csv.isBreak then rstrip l Csv.isBreak ++ ['\n'] else l)

/-- The id and the text of a line. -/
def itemOf (line : Str) : Except GoldError (Str × Str) :=
  match loads line with
  | none => .error .jsonDecodeError
  | some (.object members) =>
    match member "text".toList members, member "id".toList members with
    | some (.string text), some (.string id) => .ok (id, text)
    | none, _ | _, none => .error .keyError
    | some _, some _ => .error .notText
  | some _ => .error .typeError

section Loading

variable (R : Runtime) (cp1251 : ByteArray → Option Str)

/-- `load_texts` -/
def loadTexts : Option ByteArray → Except GoldError (List (Str × Str))
  | none => .ok []
  | some bytes =>
    match utf8Decode bytes with
    | none => .error .unicodeDecodeError
    | some s => ((fileLines s).filter (fun line => strip R line ≠ [])).mapM itemOf

/-- `load_gold` -/
def loadGold (files : GoldFiles) : Except GoldError (List GoldRow) := do
  let texts ← loadTexts R files.texts
  let rows ← readCsvRows cp1251 files.table
  return rows.map (parseGoldRow R texts)

end Loading

/-! ### What is read -/

/-- No field is over the limit. -/
def TableFits (rs : List (TemplateRow × ℕ)) : Prop := ∀ fields ∈ tableRows rs, ∀ f ∈ fields, f.length ≤ 131072

instance instDecidableTableFits (rs : List (TemplateRow × ℕ)) : Decidable (TableFits rs) :=
  inferInstanceAs (Decidable (∀ fields ∈ tableRows rs, ∀ f ∈ fields, f.length ≤ 131072))

/-- The text of a number. -/
def numberedText (rows : List TemplateRow) (n : ℕ) : Str := ((rows[n - 1]?).map TemplateRow.text).getD []

/-- What a labelled row says: the text is that of the draft, whatever the table has. -/
def goldRow (R : Runtime) (rows : List TemplateRow) (r : TemplateRow × ℕ) : GoldRow where
  id := natText r.2
  text := numberedText rows r.2
  trap := parseTrap R r.1.trap
  expected := parseExpected R r.1.expected

section RoundTrip

variable {R : Runtime} {cp1251 : ByteArray → Option Str} {rows : List TemplateRow} {rs : List (TemplateRow × ℕ)}

theorem utf8Sig_utf8 (s : Str) : utf8Sig (utf8 (bom :: s)) = some s := by
  unfold utf8Sig
  rw [utf8Decode_utf8]
  rfl

/-- **The table is read back**, unless a field is over the limit. -/
theorem readCsvRows_table {bytes : ByteArray}
    (hbytes : (utf8Sig bytes).or (cp1251 bytes) = some (Csv.text goldDialect (tableRows rs))) :
    readCsvRows cp1251 bytes =
      if TableFits rs then .ok (rs.map (fun r => dictRow goldHeader (csvFields r))) else .error (.csv .fieldLimit) := by
  have hne : ∀ fields ∈ tableRows rs, fields ≠ [] := by
    refine List.forall_mem_cons.mpr ⟨List.cons_ne_nil _ _, ?_⟩
    intro fields hfields
    obtain ⟨r, -, rfl⟩ := List.mem_map.mp hfields
    exact List.cons_ne_nil _ _
  have hkept : (rs.map csvFields).filter (· ≠ []) = rs.map csvFields := by
    refine List.filter_eq_self.mpr ?_
    intro fields hfields
    exact decide_eq_true (hne fields (List.mem_cons_of_mem _ hfields))
  have hread : Csv.rows goldDialect (Csv.text goldDialect (tableRows rs)) =
      if TableFits rs then .ok (tableRows rs) else .error .fieldLimit := Csv.rows_text goldDialect hne
  unfold readCsvRows
  rw [hbytes]
  dsimp only
  rw [hread]
  by_cases hfits : TableFits rs
  · rw [if_pos hfits, if_pos hfits]
    unfold tableRows dictRows
    dsimp only
    rw [hkept, List.map_map]
    rfl
  · rw [if_neg hfits, if_neg hfits]

theorem isBreak_textDoc (r : TemplateRow × ℕ) : ∀ c ∈ (textDoc r).text .spaced, Csv.isBreak c = false := by
  have hcontrol : NoC0 ((textDoc r).text .spaced) :=
    noC0_text (noC0_of_all rfl) (noC0_of_all rfl) (textDoc r)
  intro c hc
  by_contra hbreak
  have hcode := hcontrol c hc
  rw [Bool.not_eq_false, Csv.isBreak, Bool.or_eq_true, beq_iff_eq, beq_iff_eq] at hbreak
  rcases hbreak with rfl | rfl <;> exact absurd hcode (by decide)

/-- **The lines of the texts.** -/
theorem fileLines_textLines (rs : List (TemplateRow × ℕ)) : fileLines (rs.flatMap textLine) = rs.map textLine := by
  have hline : ∀ r : TemplateRow × ℕ, (if (textLine r).getLast?.any Csv.isBreak then
      rstrip (textLine r) Csv.isBreak ++ ['\n'] else textLine r) = textLine r := by
    intro r
    have hlast : (textLine r).getLast? = some '\n' := by
      unfold textLine
      rw [List.getLast?_concat]
    have hstrip : rstrip (textLine r) Csv.isBreak = (textDoc r).text .spaced := by
      unfold textLine rstrip
      rw [List.reverse_append, List.reverse_singleton, List.singleton_append, List.dropWhile_cons_of_pos rfl]
      refine rstrip_eq_self_iff.mpr ?_
      intro c hc
      exact isBreak_textDoc r c (List.mem_of_getLast? hc)
    rw [hlast, hstrip]
    rfl
  unfold fileLines
  induction rs with
  | nil => rfl
  | cons r rs ih =>
    have hsplit : Csv.lines (textLine r ++ rs.flatMap textLine) = textLine r :: Csv.lines (rs.flatMap textLine) := by
      unfold textLine
      rw [List.append_assoc, List.singleton_append]
      exact Csv.lines_line (isBreak_textDoc r) _
    rw [List.flatMap_cons, hsplit, List.map_cons, List.map_cons, ih, hline]

theorem itemOf_textLine (r : TemplateRow × ℕ) : itemOf (textLine r) = .ok (natText r.2, r.1.text) := by
  unfold itemOf textLine
  rw [loads_text_blanks .spaced (textDoc r) rfl]
  rfl

theorem strip_textLine (r : TemplateRow × ℕ) : strip R (textLine r) ≠ [] := by
  obtain ⟨inner, htext⟩ : ∃ inner, (textDoc r).text .spaced = '{' :: (inner ++ ['}']) := ⟨_, rfl⟩
  have hspace : ∀ c : Char, c = '{' ∨ c = '}' → R.isspace c = false := by
    rintro c (rfl | rfl) <;> exact R.isspace_ascii _ (by decide)
  have htrimmed : strip R ((textDoc r).text .spaced) = (textDoc r).text .spaced := by
    refine strip_eq_self_iff.mpr ⟨?_, ?_⟩
    · intro c hc
      rw [htext] at hc
      exact hspace c (Or.inl (Option.some.inj hc).symm)
    · intro c hc
      rw [htext, ← List.cons_append, List.getLast?_concat] at hc
      exact hspace c (Or.inr (Option.some.inj hc).symm)
  have hne : (textDoc r).text .spaced ≠ [] := by
    rw [htext]
    exact List.cons_ne_nil _ _
  have hpadded := strip_padded (u := []) (w := ['\n']) htrimmed hne (List.forall_mem_nil _)
    (List.forall_mem_singleton.mpr (R.isspace_ascii '\n' (by decide)))
  rw [List.nil_append] at hpadded
  unfold textLine
  rw [hpadded]
  exact hne

/-- **The texts are read back.** -/
theorem loadTexts_writeOutputs (R : Runtime) (rows : List TemplateRow) :
    loadTexts R (writeOutputs rows).texts = .ok ((numbered rows).map (fun r => (natText r.2, r.1.text))) := by
  have hkept : ((numbered rows).map textLine).filter (fun line => strip R line ≠ []) = (numbered rows).map textLine := by
    refine List.filter_eq_self.mpr ?_
    intro line hline
    obtain ⟨r, -, rfl⟩ := List.mem_map.mp hline
    exact decide_eq_true (strip_textLine r)
  have hitems : ∀ rs : List (TemplateRow × ℕ), (rs.map textLine).mapM itemOf =
      .ok (rs.map (fun r => (natText r.2, r.1.text))) := by
    intro rs
    induction rs with
    | nil => rfl
    | cons r rs ih =>
      rw [List.map_cons, List.mapM_cons, itemOf_textLine, ih]
      rfl
  unfold loadTexts writeOutputs
  dsimp only
  rw [utf8Decode_utf8]
  dsimp only
  rw [fileLines_textLines, hkept, hitems]

/-- The only value of a name. -/
theorem lastValue_of_unique {α : Type} {name : Str} {v : α} {members : List (Str × α)} (hin : (name, v) ∈ members)
    (hunique : ∀ m ∈ members, m.1 = name → m.2 = v) : lastValue name members = some v := by
  unfold lastValue
  rcases hfind : members.reverse.find? (fun m => m.1 == name) with _ | m
  · rw [List.find?_eq_none] at hfind
    exact absurd (beq_self_eq_true name) (hfind _ (List.mem_reverse.mpr hin))
  · have hname : m.1 = name := beq_iff_eq.mp (by simpa using List.find?_some hfind)
    rw [hfind]
    exact congrArg some (hunique m (List.mem_reverse.mp (List.mem_of_find?_eq_some hfind)) hname)

/-- The text of an id. -/
theorem lastValue_texts {n : ℕ} (hn : 1 ≤ n ∧ n ≤ rows.length) :
    lastValue (natText n) ((numbered rows).map (fun r => (natText r.2, r.1.text))) = some (numberedText rows n) := by
  have hlt : n - 1 < rows.length := by omega
  have htext : numberedText rows n = (rows[n - 1]).text := by
    unfold numberedText
    rw [List.getElem?_eq_getElem hlt]
    rfl
  rw [htext]
  refine lastValue_of_unique ?_ ?_
  · refine List.mem_map.mpr ⟨(rows[n - 1], n), ?_, rfl⟩
    exact List.mem_zipIdx_iff_le_and_getElem?_sub.mpr ⟨hn.1, List.getElem?_eq_getElem hlt⟩
  · intro m hm hname
    obtain ⟨r, hr, rfl⟩ := List.mem_map.mp hm
    have hnumber : r.2 = n := natText_injective hname
    have hget := (List.mem_zipIdx_iff_le_and_getElem?_sub.mp hr).2
    rw [hnumber, List.getElem?_eq_getElem hlt] at hget
    rw [← Option.some.inj hget]

theorem strip_natText (n : ℕ) : strip R (natText n) = natText n := by
  have hspace : ∀ c ∈ natText n, R.isspace c = false := by
    intro c hc
    have hcode := isDigit_iff.mp (isDigit_natText n c hc)
    rw [R.isspace_ascii c (by omega), ← Bool.not_eq_true, spaceAscii, Bool.or_eq_true, Bool.and_eq_true, Bool.and_eq_true]
    simp only [decide_eq_true_eq]
    omega
  exact strip_eq_self_iff.mpr ⟨fun c hc => hspace c (List.mem_of_mem_head? hc),
    fun c hc => hspace c (List.mem_of_getLast? hc)⟩

theorem parseGoldRow_dictRow {texts : List (Str × Str)} {r : TemplateRow × ℕ} {text : Str}
    (htext : lastValue (natText r.2) texts = some text) :
    parseGoldRow R texts (dictRow goldHeader (csvFields r)) =
      ⟨natText r.2, text, parseTrap R r.1.trap, parseExpected R r.1.expected⟩ := by
  have hid : strip R (fieldOf (dictRow goldHeader (csvFields r)) "id".toList) = natText r.2 := strip_natText r.2
  unfold parseGoldRow
  dsimp only
  rw [hid, htext]
  rfl

/-- **Reading a labelling.** -/
theorem loadGold_table (rows : List TemplateRow) {bytes : ByteArray} (hrs : ∀ r ∈ rs, 1 ≤ r.2 ∧ r.2 ≤ rows.length)
    (hbytes : (utf8Sig bytes).or (cp1251 bytes) = some (Csv.text goldDialect (tableRows rs))) :
    loadGold R cp1251 ⟨bytes, (writeOutputs rows).texts⟩ =
      if TableFits rs then .ok (rs.map (goldRow R rows)) else .error (.csv .fieldLimit) := by
  unfold loadGold
  dsimp only
  rw [loadTexts_writeOutputs, readCsvRows_table hbytes]
  by_cases hfits : TableFits rs
  · rw [if_pos hfits, if_pos hfits]
    show Except.ok ((rs.map (fun r => dictRow goldHeader (csvFields r))).map _) = _
    rw [List.map_map]
    refine congrArg Except.ok (List.map_congr_left ?_)
    intro r hr
    exact parseGoldRow_dictRow (lastValue_texts (hrs r hr))
  · rw [if_neg hfits, if_neg hfits]
    rfl

theorem number_le {rows : List TemplateRow} : ∀ r ∈ numbered rows, 1 ≤ r.2 ∧ r.2 ≤ rows.length := by
  intro r hr
  obtain ⟨hle, hget⟩ := List.mem_zipIdx_iff_le_and_getElem?_sub.mp hr
  obtain ⟨hlt, -⟩ := List.getElem?_eq_some_iff.mp hget
  omega

/-- The table of the draft. -/
theorem table_writeOutputs (rows : List TemplateRow) :
    (utf8Sig (writeOutputs rows).table).or (cp1251 (writeOutputs rows).table) =
      some (Csv.text goldDialect (tableRows (numbered rows))) := by
  have hread : utf8Sig (writeOutputs rows).table = some (Csv.text goldDialect (tableRows (numbered rows))) :=
    utf8Sig_utf8 _
  rw [hread, Option.some_or]

end RoundTrip

/-- **Labels survive.**  Whatever becomes of the table of a draft while it is labelled (rows are moved, left out or
repeated, their texts and masks spoiled, the file saved in the other encoding), `load_gold` reads each row with the
text of the draft and the labels of the table, and it fails exactly when a field of the table is over the limit of
`csv`; in particular the draft itself is read back. -/
theorem gold_labels_survive (R : Runtime) (cp1251 : ByteArray → Option Str) (rows : List TemplateRow) :
    (∀ (rs : List (TemplateRow × ℕ)) (bytes : ByteArray), (∀ r ∈ rs, 1 ≤ r.2 ∧ r.2 ≤ rows.length) →
      (utf8Sig bytes).or (cp1251 bytes) = some (Csv.text goldDialect (tableRows rs)) →
      loadGold R cp1251 ⟨bytes, (writeOutputs rows).texts⟩ =
        if TableFits rs then .ok (rs.map (goldRow R rows)) else .error (.csv .fieldLimit)) ∧
    loadGold R cp1251 (writeOutputs rows) =
      if TableFits (numbered rows) then .ok ((numbered rows).map (goldRow R rows)) else .error (.csv .fieldLimit) :=
  ⟨fun _ _ => loadGold_table rows, loadGold_table rows number_le (table_writeOutputs rows)⟩

end PdMasking
