import Mathlib.Data.Int.Notation
import Mathlib.Data.List.Forall2
import SafeerApi.Lib.DelimitedText

/-!
# CSV exports (`common/csv.ts`)

A sheet is written for Excel, which takes a cell that begins with one of six characters for a
formula: the text of such a cell gets a single quote in front. The type of the numbers in the cells
is a parameter, with the text `String(value)` gives for one.
-/

namespace SafeerApi.Common.Csv

open Lib.DelimitedText (Encodes EncodesRecord)

/-- What a column reads from a row. -/
inductive Cell (N : Type) where
  | text (s : String)
  | number (n : N)
  | boolean (b : Bool)
  | null
  | undefined

structure CsvColumn (N T : Type) where
  header : String
  value : T → Cell N

variable {N T : Type} [ToString N]

/-- `FORMULA_TRIGGER`: `/^[=+\-@\t\r]/` -/
def formulaTrigger (raw : String) : Bool :=
  raw.toList.head?.any fun c =>
    c = '=' || c = '+' || c = '-' || c = '@' || c = '\t' || c = '\r'

/-- `value.replace(/"/g, '""')` -/
def doubleQuotes (value : String) : String :=
  String.ofList (value.toList.flatMap fun c => if c = '"' then ['"', '"'] else [c])

def escapeCsvField (raw : String) : String :=
  let value := if formulaTrigger raw then "'" ++ raw else raw
  if value ≠ raw ∨ value.toList.any (fun c => c = '"' || c = ',' || c = '\r' || c = '\n') then
    "\"" ++ doubleQuotes value ++ "\""
  else
    value

def cellToString : Cell N → String
  | .null => ""
  | .undefined => ""
  | .text s => s
  | .number n => toString n
  | .boolean b => if b then "true" else "false"

def toCsv (rows : List T) (columns : List (CsvColumn N T)) : String :=
  let header := ",".intercalate (columns.map fun c => escapeCsvField c.header)
  let lines := rows.map fun row =>
    ",".intercalate (columns.map fun c => escapeCsvField (cellToString (c.value row)))
  "\r\n".intercalate (header :: lines)

/-! ### The sheet that is meant -/

/-- The text a reader is to find for `raw`. -/
def guarded (raw : String) : String := if formulaTrigger raw then "'" ++ raw else raw

/-- The header, then one record a row. -/
def sheet (rows : List T) (columns : List (CsvColumn N T)) : List (List String) :=
  columns.map (guarded ·.header) ::
    rows.map fun row => columns.map fun c => guarded (cellToString (c.value row))

/-- What RFC 4180 finds in a text. -/
def parseCsv (csv : String) : Option (List (List String)) :=
  (Lib.DelimitedText.parse csv.toList).map fun records => records.map (·.map String.ofList)

/-- The sheet is found in its text, it has the shape of the columns, and no field is a formula. -/
structure RoundTrips (rows : List T) (columns : List (CsvColumn N T)) : Prop where
  found : parseCsv (toCsv rows columns) = some (sheet rows columns)
  shape : ∀ record ∈ sheet rows columns, record.length = columns.length
  harmless : ∀ record ∈ sheet rows columns, ∀ field ∈ record, ¬formulaTrigger field

/-- The sheet has one column, and the cell of its last row is empty. -/
def EndsEmpty (rows : List T) (columns : List (CsvColumn N T)) : Prop :=
  ∃ column, columns = [column] ∧ ∃ row ∈ rows.getLast?, cellToString (column.value row) = ""

/-! ### Fields -/

lemma guarded_not_formulaTrigger (raw : String) : ¬formulaTrigger (guarded raw) := by
  simp only [guarded]
  split
  · simp [formulaTrigger]
  · assumption

lemma guarded_eq_self_iff (raw : String) : guarded raw = raw ↔ ¬formulaTrigger raw := by
  simp only [guarded]
  split_ifs with h
  · simp [h, String.ext_iff]
  · simp [h]

lemma escapeCsvField_eq (raw : String) : escapeCsvField raw =
    if formulaTrigger raw ∨ (guarded raw).toList.any
        (fun c => c = '"' || c = ',' || c = '\r' || c = '\n') then
      "\"" ++ doubleQuotes (guarded raw) ++ "\""
    else guarded raw := by
  have hne : guarded raw ≠ raw ↔ formulaTrigger raw := by rw [ne_eq, guarded_eq_self_iff, not_not]
  simp only [← hne]
  rfl

/-- The text of a field stands for the guarded text. -/
lemma encodes_escapeCsvField (raw : String) :
    Encodes (escapeCsvField raw).toList (guarded raw).toList := by
  rw [escapeCsvField_eq]
  split_ifs with h
  · have hquote : ("\"" ++ doubleQuotes (guarded raw) ++ "\"").toList
        = Lib.DelimitedText.quote (guarded raw).toList := by
      simp [doubleQuotes, Lib.DelimitedText.quote]
    rw [hquote]
    exact .quoted _
  · apply Encodes.bare
    intro c hc
    have hany := (not_or.mp h).2
    simp only [List.any_eq_true, not_exists, not_and] at hany
    simpa [Lib.DelimitedText.isTextData, and_assoc] using hany c hc

lemma escapeCsvField_eq_empty_iff (raw : String) : escapeCsvField raw = "" ↔ raw = "" := by
  constructor
  · intro h
    rw [escapeCsvField_eq] at h
    split_ifs at h with hquote
    · simp [String.ext_iff] at h
    · rwa [(guarded_eq_self_iff raw).mpr fun htrigger => hquote (Or.inl htrigger)] at h
  · rintro rfl
    decide

/-! ### Sheets -/

/-- The texts of the header, and of one row. -/
def headerTexts (columns : List (CsvColumn N T)) : List (List Char) :=
  columns.map fun c => (escapeCsvField c.header).toList

def rowTexts (columns : List (CsvColumn N T)) (row : T) : List (List Char) :=
  columns.map fun c => (escapeCsvField (cellToString (c.value row))).toList

lemma toCsv_toList (rows : List T) (columns : List (CsvColumn N T)) :
    (toCsv rows columns).toList = Lib.DelimitedText.file
      ((headerTexts columns :: rows.map (rowTexts columns)).map Lib.DelimitedText.line) := by
  simp [toCsv, headerTexts, rowTexts, Lib.DelimitedText.file, Lib.DelimitedText.line,
    Function.comp_def]

omit [ToString N] in
/-- The fields of a row of texts, one a column. -/
lemma encodesRecord_map {columns : List (CsvColumn N T)} (h : columns ≠ [])
    (cell : CsvColumn N T → String) :
    EncodesRecord (columns.map fun c => (escapeCsvField (cell c)).toList)
      (columns.map fun c => (guarded (cell c)).toList) := by
  refine ⟨by simpa using h, ?_⟩
  rw [List.forall₂_map_left_iff, List.forall₂_map_right_iff, List.forall₂_same]
  exact fun c _ => encodes_escapeCsvField (cell c)

omit [ToString N] in
lemma encodesRecord_header {columns : List (CsvColumn N T)} (h : columns ≠ []) :
    EncodesRecord (headerTexts columns) (columns.map fun c => (guarded c.header).toList) :=
  encodesRecord_map h (·.header)

lemma encodesRecord_rows {columns : List (CsvColumn N T)} (h : columns ≠ []) (rows : List T) :
    List.Forall₂ EncodesRecord (rows.map (rowTexts columns))
      (rows.map fun row => columns.map fun c => (guarded (cellToString (c.value row))).toList) := by
  rw [List.forall₂_map_left_iff, List.forall₂_map_right_iff, List.forall₂_same]
  exact fun row _ => encodesRecord_map h fun c => cellToString (c.value row)

/-- Only an empty cell that is alone in its row leaves its line empty. -/
lemma line_rowTexts_eq_nil_iff {columns : List (CsvColumn N T)} (h : columns ≠ []) (row : T) :
    Lib.DelimitedText.line (rowTexts columns row) = [] ↔
      ∃ column, columns = [column] ∧ cellToString (column.value row) = "" := by
  match columns, h with
  | [column], _ =>
    have hcell := escapeCsvField_eq_empty_iff (cellToString (column.value row))
    rw [rowTexts, List.map_singleton, Lib.DelimitedText.line_singleton, String.toList_eq_nil_iff,
      hcell]
    simp
  | c :: d :: columns, _ =>
    have hne : rowTexts (d :: columns) row ≠ [] := by simp [rowTexts]
    have hline := Lib.DelimitedText.line_cons
      (escapeCsvField (cellToString (c.value row))).toList hne
    simp only [rowTexts, List.map_cons] at hline ⊢
    rw [hline]
    simp

lemma sheet_shape (rows : List T) (columns : List (CsvColumn N T)) :
    ∀ record ∈ sheet rows columns, record.length = columns.length := by
  intro record hmem
  rcases List.mem_cons.mp hmem with rfl | hmem
  · rw [List.length_map]
  · obtain ⟨row, -, rfl⟩ := List.mem_map.mp hmem
    rw [List.length_map]

lemma sheet_harmless (rows : List T) (columns : List (CsvColumn N T)) :
    ∀ record ∈ sheet rows columns, ∀ field ∈ record, ¬formulaTrigger field := by
  intro record hmem field hfield
  rcases List.mem_cons.mp hmem with rfl | hmem
  · obtain ⟨column, -, rfl⟩ := List.mem_map.mp hfield
    exact guarded_not_formulaTrigger _
  · obtain ⟨row, -, rfl⟩ := List.mem_map.mp hmem
    obtain ⟨column, -, rfl⟩ := List.mem_map.mp hfield
    exact guarded_not_formulaTrigger _

/-- The sheet with its fields as characters. -/
lemma sheet_eq (rows : List T) (columns : List (CsvColumn N T)) :
    sheet rows columns = (columns.map (fun c => (guarded c.header).toList) ::
      rows.map fun row => columns.map fun c => (guarded (cellToString (c.value row))).toList).map
        (·.map String.ofList) := by
  simp [sheet, Function.comp_def]

lemma parseCsv_toCsv {rows : List T} {columns : List (CsvColumn N T)} (hcolumns : columns ≠ [])
    (h : ¬EndsEmpty rows columns) : parseCsv (toCsv rows columns) = some (sheet rows columns) := by
  rw [parseCsv, toCsv_toList, Lib.DelimitedText.parse_file (encodesRecord_header hcolumns)
    (encodesRecord_rows hcolumns rows), sheet_eq]
  · rfl
  · intro last hlast hline
    rw [List.getLast?_map] at hlast
    obtain ⟨row, hrow, rfl⟩ := Option.map_eq_some_iff.mp hlast
    obtain ⟨column, hcolumn, hempty⟩ := (line_rowTexts_eq_nil_iff hcolumns row).mp hline
    exact h ⟨column, hcolumn, row, hrow, hempty⟩

/-- An empty cell that is alone in the last row is lost, and its row with it. -/
lemma parseCsv_toCsv_endsEmpty {rows : List T} {row : T} {columns : List (CsvColumn N T)}
    (hcolumns : columns ≠ []) (h : Lib.DelimitedText.line (rowTexts columns row) = []) :
    parseCsv (toCsv (rows ++ [row]) columns) = some (sheet rows columns) := by
  have hlines : (headerTexts columns :: (rows ++ [row]).map (rowTexts columns)).map
        Lib.DelimitedText.line
      = (headerTexts columns :: rows.map (rowTexts columns)).map Lib.DelimitedText.line
        ++ [[]] := by
    simp [h]
  rw [parseCsv, toCsv_toList, hlines, Lib.DelimitedText.parse_file_emptyLine
    (encodesRecord_header hcolumns) (encodesRecord_rows hcolumns rows), sheet_eq]
  rfl

/-- A sheet is found in its text exactly when its last row is not one empty cell. -/
theorem roundTrips_iff (rows : List T) (columns : List (CsvColumn N T)) (hcolumns : columns ≠ []) :
    RoundTrips rows columns ↔ ¬EndsEmpty rows columns := by
  constructor
  · rintro ⟨hfound, -, -⟩ ⟨column, hcolumn, row, hrow, hempty⟩
    obtain ⟨rows, rfl⟩ := List.getLast?_eq_some_iff.mp hrow
    have hline := (line_rowTexts_eq_nil_iff hcolumns row).mpr ⟨column, hcolumn, hempty⟩
    -- one record less is found
    rw [parseCsv_toCsv_endsEmpty hcolumns hline] at hfound
    have hlen := congrArg List.length (Option.some.inj hfound)
    simp [sheet] at hlen
  · intro h
    exact ⟨parseCsv_toCsv hcolumns h, sheet_shape rows columns, sheet_harmless rows columns⟩

/-- Quotes, commas and line breaks in a cell that begins like a formula. -/
theorem roundTrips_formula : RoundTrips (N := ℤ) [("=\"a\",\r\nb", true), ("", false)]
    [⟨"Name", fun row => .text row.1⟩, ⟨"Active", fun row => .boolean row.2⟩,
      ⟨"-", fun _ => .number (-1)⟩] :=
  (roundTrips_iff _ _ (by simp)).mpr (by rintro ⟨column, hcolumn, -⟩; simp at hcolumn)

/-- A sheet of one column and one row, whose cell is empty: only the header is found. -/
theorem roundTrips_loses_row :
    ¬RoundTrips (N := ℤ) [""] [⟨"Name", fun row => .text row⟩] := by
  rintro ⟨hfound, -, -⟩
  have hread : parseCsv (toCsv (N := ℤ) [""] [⟨"Name", fun row => .text row⟩])
      = some [["Name"]] := by decide
  rw [hread] at hfound
  simp [sheet] at hfound

end SafeerApi.Common.Csv
