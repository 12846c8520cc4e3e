import Mathlib.Data.List.Basic
import Mathlib.Tactic.Common

/-!
# Comma-separated values as RFC 4180 reads them

A file is a list of records, a record a list of fields. Records are separated by CRLF, and the last
one may end with a CRLF of its own; fields are separated by commas. A field stands for itself when
it contains no quote, comma, CR or LF; else it is put between quotes, its own quotes doubled. The
RFC's `TEXTDATA` is taken to be every other character, not only the printable ASCII ones.
-/

namespace SafeerApi.Lib.DelimitedText

abbrev Field := List Char

abbrev Record := List Field

/-- Where in a field the reader is: at its first character, in a field that stands for itself, after
the opening quote, or after a quote that may have closed it. -/
inductive Mode where
  | start
  | bare
  | quoted
  | closed

/-- A character that a field without quotes can contain. -/
def isTextData (c : Char) : Bool := c ≠ '"' && c ≠ ',' && c ≠ '\r' && c ≠ '\n'

/-- What a reader has found: the rest of the field it is in, the fields after it in the same record,
and the records after that one. -/
structure Found where
  field : Field
  fields : List Field
  records : List Record

namespace Found

/-- Nothing is left. -/
def empty : Found := ⟨[], [], []⟩

def addChar (c : Char) (found : Found) : Found := { found with field := c :: found.field }

/-- The field ends here, and `found` begins with the next one. -/
def addField (found : Found) : Found := ⟨[], found.field :: found.fields, found.records⟩

/-- The record ends here, and `found` begins with the next one. -/
def addRecord (found : Found) : Found :=
  ⟨[], [], (found.field :: found.fields) :: found.records⟩

def toRecords (found : Found) : List Record :=
  (found.field :: found.fields) :: found.records

def addChars (chars : List Char) (found : Found) : Found :=
  { found with field := chars ++ found.field }

@[simp] lemma addChars_nil : addChars [] = id := rfl

end Found

/-- Read a text from a place in a field on. A text that RFC 4180 does not allow is `none`. -/
def read : Mode → List Char → Option Found
  | .quoted, '"' :: rest => read .closed rest
  | .quoted, c :: rest => (read .quoted rest).map (.addChar c)
  | .quoted, [] => none
  | _, [] => some .empty
  | .start, '"' :: rest => read .quoted rest
  -- a doubled quote
  | .closed, '"' :: rest => (read .quoted rest).map (.addChar '"')
  | _, ',' :: rest => (read .start rest).map .addField
  -- the line break that ends the last record
  | _, ['\r', '\n'] => some .empty
  | _, '\r' :: '\n' :: rest => (read .start rest).map .addRecord
  | .closed, _ :: _ => none
  | _, c :: rest => if isTextData c then (read .bare rest).map (.addChar c) else none

/-- The records of a file. -/
def parse (text : List Char) : Option (List Record) := (read .start text).map (·.toRecords)

/-! ### Writing -/

/-- A field between quotes. -/
def quote (field : Field) : List Char :=
  '"' :: field.flatMap (fun c => if c = '"' then ['"', '"'] else [c]) ++ ['"']

/-- The texts that stand for a field. -/
inductive Encodes : List Char → Field → Prop where
  | bare {field : Field} (h : ∀ c ∈ field, isTextData c) : Encodes field field
  | quoted (field : Field) : Encodes (quote field) field

/-- The texts of a record's fields with commas between them. -/
def line (texts : List (List Char)) : List Char := [','].intercalate texts

/-- Lines with a CRLF between them. -/
def file (lines : List (List Char)) : List Char := ['\r', '\n'].intercalate lines

/-- The texts stand for the fields of a record, which has at least one. -/
def EncodesRecord (texts : List (List Char)) (record : Record) : Prop :=
  texts ≠ [] ∧ List.Forall₂ Encodes texts record

/-! ### A field is read back -/

/-- What can come after a record: the end, or the end of the line. -/
inductive EndsRecord : List Char → Prop where
  | nil : EndsRecord []
  | line (rest : List Char) : EndsRecord ('\r' :: '\n' :: rest)

/-- What can come after a field. -/
inductive EndsField : List Char → Prop where
  | record {rest : List Char} (h : EndsRecord rest) : EndsField rest
  | comma (rest : List Char) : EndsField (',' :: rest)

@[simp] lemma read_nil_closed : read .closed [] = some .empty := rfl

@[simp] lemma read_comma_closed (rest : List Char) :
    read .closed (',' :: rest) = (read .start rest).map .addField := rfl

@[simp] lemma read_line_closed_nil : read .closed ['\r', '\n'] = some .empty := rfl

lemma read_line_closed {rest : List Char} (h : rest ≠ []) :
    read .closed ('\r' :: '\n' :: rest) = (read .start rest).map .addRecord := by
  cases rest with
  | nil => exact absurd rfl h
  | cons c rest => rfl

/-- Where a field ends, its quotes make no difference. -/
lemma read_of_endsField {rest : List Char} (h : EndsField rest) (mode : Mode)
    (hmode : mode ≠ .quoted) : read mode rest = read .closed rest := by
  cases h with
  | comma rest => cases mode <;> first | rfl | exact absurd rfl hmode
  | record h =>
    cases h with
    | nil => cases mode <;> first | rfl | exact absurd rfl hmode
    | line rest =>
      cases rest with
      | nil => cases mode <;> first | rfl | exact absurd rfl hmode
      | cons c rest => cases mode <;> first | rfl | exact absurd rfl hmode

/-- A character of a field that stands for itself. -/
lemma read_textData {c : Char} (hc : isTextData c) {mode : Mode}
    (hmode : mode = .start ∨ mode = .bare) (rest : List Char) :
    read mode (c :: rest) = (read .bare rest).map (.addChar c) := by
  have hne : c ≠ '"' ∧ c ≠ ',' ∧ c ≠ '\r' ∧ c ≠ '\n' := by simpa [isTextData, and_assoc] using hc
  obtain ⟨hquote, hcomma, hcr, hlf⟩ := hne
  rcases hmode with rfl | rfl
  · rw [read.eq_def]
    split <;> simp_all
  · rw [read.eq_def]
    split <;> simp_all

lemma read_bare {field : Field} (h : ∀ c ∈ field, isTextData c) {rest : List Char}
    (hrest : EndsField rest) {mode : Mode} (hmode : mode = .start ∨ mode = .bare) :
    read mode (field ++ rest) = (read .closed rest).map (.addChars field) := by
  induction field generalizing mode with
  | nil =>
    have hread := read_of_endsField hrest mode (by rintro rfl; simp at hmode)
    rw [List.nil_append, hread, Found.addChars_nil, Option.map_id_fun, id]
  | cons c field ih =>
    obtain ⟨hc, h⟩ := List.forall_mem_cons.mp h
    rw [List.cons_append, read_textData hc hmode, ih h (Or.inr rfl), Option.map_map]
    rfl

lemma read_quoted (field : Field) (rest : List Char) :
    read .quoted (field.flatMap (fun c => if c = '"' then ['"', '"'] else [c]) ++ '"' :: rest)
      = (read .closed rest).map (.addChars field) := by
  induction field with
  | nil => rw [List.flatMap_nil, List.nil_append, read, Found.addChars_nil, Option.map_id_fun, id]
  | cons c field ih =>
    by_cases hc : c = '"'
    · subst hc
      simp only [List.flatMap_cons, if_true, List.cons_append, List.nil_append, read, ih,
        Option.map_map]
      rfl
    · simp only [List.flatMap_cons, hc, if_false, List.cons_append, List.nil_append, read, ih,
        Option.map_map]
      rfl

lemma read_encodes {text : List Char} {field : Field} (h : Encodes text field)
    {rest : List Char} (hrest : EndsField rest) :
    read .start (text ++ rest) = (read .closed rest).map (.addChars field) := by
  cases h with
  | bare h => exact read_bare h hrest (Or.inl rfl)
  | quoted field =>
    have hopen : read .start ('"' :: (field.flatMap (fun c => if c = '"' then ['"', '"'] else [c])
        ++ '"' :: rest)) = _ := read_quoted field rest
    simpa [quote] using hopen

/-! ### Records and files are read back -/

@[simp] lemma line_singleton (text : List Char) : line [text] = text := by simp [line]

lemma line_cons (text : List Char) {texts : List (List Char)} (h : texts ≠ []) :
    line (text :: texts) = text ++ ',' :: line texts := by
  cases texts with
  | nil => exact absurd rfl h
  | cons t ts => simp [line, List.intercalate]

@[simp] lemma file_singleton (text : List Char) : file [text] = text := by simp [file]

lemma file_cons {text : List Char} {texts : List (List Char)} (h : texts ≠ []) :
    file (text :: texts) = text ++ '\r' :: '\n' :: file texts := by
  cases texts with
  | nil => exact absurd rfl h
  | cons t ts => simp [file, List.intercalate]

lemma file_concat_nil {lines : List (List Char)} (h : lines ≠ []) :
    file (lines ++ [[]]) = file lines ++ ['\r', '\n'] := by
  induction lines with
  | nil => exact absurd rfl h
  | cons text lines ih =>
    by_cases hlines : lines = []
    · subst hlines
      rw [List.cons_append, List.nil_append, file_cons (by simp), file_singleton, file_singleton]
    · rw [List.cons_append, file_cons (by simp), file_cons hlines, ih hlines, List.append_assoc]
      rfl

/-- After a record only the records after it are left. -/
def Found.ofRecord (field : Field) (fields : List Field) (found : Found) : Found :=
  ⟨field, fields, found.records⟩

lemma read_closed_ofRecord {rest : List Char} (h : EndsRecord rest) (field : Field) :
    (read .closed rest).map (Found.addChars field)
      = (read .closed rest).map (Found.ofRecord field []) := by
  cases h with
  | nil => simp [Found.addChars, Found.ofRecord, Found.empty]
  | line rest =>
    by_cases hnil : rest = []
    · subst hnil
      simp [Found.addChars, Found.ofRecord, Found.empty]
    · rw [read_line_closed hnil, Option.map_map, Option.map_map]
      apply congrArg (Option.map · _)
      funext found
      simp [Found.addChars, Found.ofRecord, Found.addRecord]

lemma read_record {text : List Char} {texts : List (List Char)} {field : Field}
    {fields : List Field} (h : Encodes text field) (hs : List.Forall₂ Encodes texts fields)
    {rest : List Char} (hrest : EndsRecord rest) :
    read .start (line (text :: texts) ++ rest)
      = (read .closed rest).map (Found.ofRecord field fields) := by
  induction hs generalizing text field with
  | nil => rw [line_singleton, read_encodes h (.record hrest), read_closed_ofRecord hrest]
  | cons hnext _ ih =>
    rw [line_cons _ (List.cons_ne_nil _ _), List.append_assoc, List.cons_append,
      read_encodes h (.comma _), read_comma_closed, ih hnext, Option.map_map, Option.map_map]
    apply congrArg (Option.map · _)
    funext found
    simp [Found.addChars, Found.ofRecord, Found.addField]

lemma parse_record {texts : List (List Char)} {record : Record} (h : EncodesRecord texts record)
    {rest : List Char} (hrest : EndsRecord rest) :
    parse (line texts ++ rest) = (read .closed rest).map (record :: ·.records) := by
  obtain ⟨htexts, h⟩ := h
  cases h with
  | nil => exact absurd rfl htexts
  | cons hfield hfields =>
    rw [parse, read_record hfield hfields hrest, Option.map_map]
    rfl

/-- The records after a line break are those of the text after it. -/
lemma read_line_records {rest : List Char} (h : rest ≠ []) :
    (read .closed ('\r' :: '\n' :: rest)).map (·.records) = parse rest := by
  rw [read_line_closed h, Option.map_map]
  rfl

lemma file_append_ne_nil {texts : List (List Char)} {lines : List (List (List Char))}
    {rest : List Char} (hlast : rest = [] → ∀ last ∈ (texts :: lines).getLast?, line last ≠ []) :
    file ((texts :: lines).map line) ++ rest ≠ [] := by
  cases lines with
  | nil =>
    intro hnil
    obtain ⟨hline, hrest⟩ := List.append_eq_nil_iff.mp hnil
    exact hlast hrest texts (by simp) (by simpa using hline)
  | cons next lines =>
    rw [List.map_cons, file_cons (by simp)]
    simp

/-- A file is read back, with or without a line break at its end. When there is none, the last line
must not be empty, unless it is the only one. -/
lemma parse_file_append {texts : List (List Char)} {record : Record}
    {lines : List (List (List Char))} {records : List Record} (h : EncodesRecord texts record)
    (hs : List.Forall₂ EncodesRecord lines records) {rest : List Char}
    (hrest : rest = [] ∨ rest = ['\r', '\n'])
    (hlast : rest = [] → ∀ last ∈ lines.getLast?, line last ≠ []) :
    parse (file ((texts :: lines).map line) ++ rest) = some (record :: records) := by
  induction hs generalizing texts record with
  | nil =>
    rw [List.map_singleton, file_singleton]
    rcases hrest with rfl | rfl
    · rw [parse_record h .nil, read_nil_closed]
      rfl
    · rw [parse_record h (.line []), read_line_closed_nil]
      rfl
  | @cons next nextRecord lines records hnext _ ih =>
    have hne := file_append_ne_nil hlast
    have htail := ih hnext (fun hnil last hmem => hlast hnil last (by
      rw [List.getLast?_cons, Option.mem_def] at *
      simp [hmem]))
    rw [← read_line_records hne] at htail
    rw [List.map_cons, file_cons (by simp), List.append_assoc, List.cons_append, List.cons_append,
      parse_record h (.line _)]
    have hmap := congrArg (Option.map (record :: ·)) htail
    rwa [Option.map_map] at hmap

/-- A file without a line break at its end is read back unless its last line, one of several, is
empty. -/
theorem parse_file {texts : List (List Char)} {record : Record} {lines : List (List (List Char))}
    {records : List Record} (h : EncodesRecord texts record)
    (hs : List.Forall₂ EncodesRecord lines records)
    (hlast : ∀ last ∈ lines.getLast?, line last ≠ []) :
    parse (file ((texts :: lines).map line)) = some (record :: records) := by
  simpa using parse_file_append h hs (Or.inl rfl) fun _ => hlast

/-- An empty line at the end of a file is taken for the end of the line before it. -/
theorem parse_file_emptyLine {texts : List (List Char)} {record : Record}
    {lines : List (List (List Char))} {records : List Record} (h : EncodesRecord texts record)
    (hs : List.Forall₂ EncodesRecord lines records) :
    parse (file ((texts :: lines).map line ++ [[]])) = some (record :: records) := by
  rw [file_concat_nil (by simp)]
  exact parse_file_append h hs (Or.inr rfl) fun hnil => absurd hnil (by simp)

end SafeerApi.Lib.DelimitedText
