import SafeerApi.Lib.PercentEncoding
import SafeerApi.Files.Gate
import SafeerApi.Lists.Routes

/-!
# File names (`http/filenames.ts`)

A name arrives as UTF-8 that was read as latin1, and leaves in a header that holds it twice: with
every character that is not ASCII replaced, and percent-encoded. What is well-formed on both sides
comes back as it was.
-/

namespace SafeerApi.Files

open Common Lib Public
open SafeerApi.Lists (codeUnits)

/-! ### Code units -/

/-- The characters of a text of code units; none if a surrogate is in no pair. -/
def ofCodeUnits : List ℕ → Option (List Char)
  | [] => some []
  | u :: rest =>
    if 0xD800 ≤ u ∧ u ≤ 0xDFFF then
      match rest with
      | v :: rest =>
        if u ≤ 0xDBFF ∧ 0xDC00 ≤ v ∧ v ≤ 0xDFFF then
          (ofCodeUnits rest).map
            (Char.ofNat (0x10000 + (u - 0xD800) * 0x400 + (v - 0xDC00)) :: ·)
        else none
      | [] => none
    else (ofCodeUnits rest).map (Char.ofNat u :: ·)

lemma ofCodeUnits_codeUnits (text : List Char) : ofCodeUnits (codeUnits text) = some text := by
  induction text with
  | nil => rfl
  | cons c text ih =>
    have ih : ofCodeUnits (text.flatMap fun c => if c.toNat < 0x10000 then [c.toNat]
        else [0xD800 + (c.toNat - 0x10000) / 0x400, 0xDC00 + (c.toNat - 0x10000) % 0x400])
        = some text := ih
    have hvalid : c.toNat < 0xD800 ∨ 0xDFFF < c.toNat ∧ c.toNat < 0x110000 := c.valid
    rw [codeUnits, List.flatMap_cons]
    by_cases hbasic : c.toNat < 0x10000
    · have hno : ¬(0xD800 ≤ c.toNat ∧ c.toNat ≤ 0xDFFF) := by omega
      rw [if_pos hbasic, List.cons_append, List.nil_append, ofCodeUnits.eq_def]
      dsimp only
      rw [if_neg hno, ih, Char.ofNat_toNat]
      rfl
    · have hhigh : 0xD800 ≤ 0xD800 + (c.toNat - 0x10000) / 0x400 ∧
          0xD800 + (c.toNat - 0x10000) / 0x400 ≤ 0xDFFF := by omega
      have hpair : 0xD800 + (c.toNat - 0x10000) / 0x400 ≤ 0xDBFF ∧
          0xDC00 ≤ 0xDC00 + (c.toNat - 0x10000) % 0x400 ∧
          0xDC00 + (c.toNat - 0x10000) % 0x400 ≤ 0xDFFF := by omega
      have hvalue : 0x10000 + (0xD800 + (c.toNat - 0x10000) / 0x400 - 0xD800) * 0x400 +
          (0xDC00 + (c.toNat - 0x10000) % 0x400 - 0xDC00) = c.toNat := by omega
      rw [if_neg hbasic, List.cons_append, List.cons_append, List.nil_append, ofCodeUnits.eq_def]
      dsimp only
      rw [if_pos hhigh, if_pos hpair, ih, hvalue, Char.ofNat_toNat]
      rfl

/-! ### Uploads -/

/-- `[\u0000-\u001f\u007f]` -/
def isControl (c : Char) : Bool := c.toNat ≤ 0x1f || c.toNat = 0x7f

/-- `Buffer.from(raw, 'latin1')` -/
def latin1Bytes (raw : List Char) : List UInt8 := raw.map fun c => UInt8.ofNat c.toNat

/-- The text read again as UTF-8, when it can have been UTF-8 that was read as latin1. Bytes that
are no UTF-8 are read as a text with U+FFFD in it. -/
def redecode (raw : List Char) : List Char :=
  if raw.any (fun c => 0x80 ≤ c.toNat && c.toNat ≤ 0xff) && raw.all (fun c => c.toNat ≤ 0xff) then
    match (Percent.decodeUtf8 (latin1Bytes raw)).filter fun utf8 => '\ufffd' ∉ utf8 with
    | some utf8 => utf8
    | none => raw
  else raw

/-- `decodeUploadName`, in code units: its cut may fall into a pair. -/
def decodeUploadName (name : Option String) : List ℕ :=
  let decoded := redecode (name.getD "").toList
  let kept := trim (String.ofList (decoded.filter fun c => !isControl c))
  let cut := (codeUnits kept.toList).take 255
  if cut = [] then codeUnits "file".toList else cut

/-- What the upload parser makes of a name: its UTF-8, read as latin1. -/
def received (name : String) : String :=
  String.ofList ((name.toList.flatMap String.utf8EncodeChar).map fun b => Char.ofNat b.toNat)

/-- `contentDisposition` of a text of code units; `encodeURIComponent` throws on a surrogate that is
in no pair. -/
def contentDispositionOf (type : String) (units : List ℕ) : Option String :=
  (ofCodeUnits units).map fun name => contentDisposition type (String.ofList name)

/-! ### Reading the header -/

def isPrintable (c : Char) : Bool := 0x20 ≤ c.toNat && c.toNat ≤ 0x7e

/-- A quoted string, behind its first quote, and what follows it. -/
def readQuoted : List Char → Option (List Char × List Char)
  | [] => none
  | c :: rest =>
    if c = '"' then some ([], rest)
    else if !isPrintable c then none
    else if c = '\\' then
      match rest with
      | d :: rest =>
        if isPrintable d then (readQuoted rest).map fun (text, s) => (d :: text, s) else none
      | [] => none
    else (readQuoted rest).map fun (text, s) => (c :: text, s)

/-- What follows a text that is expected. -/
def readLiteral (expected s : List Char) : Option (List Char) :=
  if expected <+: s then some (s.drop expected.length) else none

/-- The characters that stand for themselves in an extended parameter. -/
def isAttrChar (c : Char) : Bool := c.isAlphanum || c ∈ "!#$&+-.^_`|~".toList

structure Disposition where
  fallback : List Char
  filenameStar : List UInt8
  deriving DecidableEq

/-- The parameters of a header of this type: `filename`, a quoted string, and `filename*`, in
UTF-8. -/
def readDisposition (type header : String) : Option Disposition :=
  (readLiteral (type ++ "; filename=\"").toList header.toList).bind fun s =>
    (readQuoted s).bind fun (fallback, s) =>
      (readLiteral "; filename*=UTF-8''".toList s).bind fun ext =>
        (Percent.decode isAttrChar ext).map fun bytes => ⟨fallback, bytes⟩

/-- The name in `filename*`. -/
def filenameStar (type header : String) : Option String :=
  (readDisposition type header).bind fun d =>
    (Percent.decodeUtf8 d.filenameStar).map String.ofList

/-! ### A name that was received -/

lemma toNat_latin1 (b : UInt8) : (Char.ofNat b.toNat).toNat = b.toNat := by
  have hb : b.toNat < 256 := b.toNat_lt
  have hvalid : b.toNat.isValidChar := Or.inl (by omega)
  have hchar : Char.ofNat b.toNat = Char.ofNatAux b.toNat hvalid := dif_pos hvalid
  rw [hchar]
  rfl

lemma latin1Bytes_received (name : String) :
    latin1Bytes (received name).toList = name.toList.flatMap String.utf8EncodeChar := by
  rw [latin1Bytes, received, String.toList_ofList, List.map_map]
  conv_rhs => rw [← List.map_id (name.toList.flatMap String.utf8EncodeChar)]
  refine List.map_congr_left fun b _ => ?_
  rw [Function.comp_apply, toNat_latin1, UInt8.ofNat_toNat, id]

lemma received_le (name : String) : ∀ c ∈ (received name).toList, c.toNat ≤ 0xff := by
  intro c hc
  rw [received, String.toList_ofList] at hc
  obtain ⟨b, -, rfl⟩ := List.mem_map.mp hc
  rw [toNat_latin1]
  exact Nat.le_of_lt_succ b.toNat_lt

/-- An ASCII name is received as it is. -/
lemma received_ascii {name : String} (h : ∀ c ∈ name.toList, c.toNat < 128) :
    (received name).toList = name.toList := by
  rw [received, String.toList_ofList, List.map_flatMap]
  have hchar : ∀ c ∈ name.toList,
      (String.utf8EncodeChar c).map (fun b => Char.ofNat b.toNat) = [c] := by
    intro c hc
    have hlt := h c hc
    rw [Percent.utf8EncodeChar_ascii hlt, List.map_singleton, UInt8.toNat_ofNat',
      Nat.mod_eq_of_lt (by omega), Char.ofNat_toNat]
  rw [List.flatMap_congr hchar]
  simp

/-- Reading the received text again gives the name. -/
lemma redecode_received {name : String} (h : '\ufffd' ∉ name.toList) :
    redecode (received name).toList = name.toList := by
  have hbytes : Percent.decodeUtf8 (latin1Bytes (received name).toList) = some name.toList := by
    rw [latin1Bytes_received, Percent.decodeUtf8_encode]
  rw [redecode]
  split_ifs with hlatin
  · have hkept : (some name.toList).filter (fun utf8 => decide ('\ufffd' ∉ utf8))
        = some name.toList := by simp [Option.filter, h]
    rw [hbytes, hkept]
  · -- no byte is beyond ASCII, so no character is
    apply received_ascii
    intro c hc
    by_contra hge
    obtain ⟨b, hb, hhigh⟩ := Percent.exists_high_byte (Nat.le_of_not_lt hge)
    apply hlatin
    rw [Bool.and_eq_true, List.any_eq_true, List.all_eq_true]
    refine ⟨⟨Char.ofNat b.toNat, ?_, ?_⟩, ?_⟩
    · rw [received, String.toList_ofList]
      exact List.mem_map_of_mem (List.mem_flatMap.mpr ⟨c, hc, hb⟩)
    · rw [toNat_latin1]
      simpa using ⟨hhigh, Nat.le_of_lt_succ b.toNat_lt⟩
    · intro d hd
      exact decide_eq_true (received_le name d hd)

lemma codeUnits_ne_nil {text : List Char} (h : text ≠ []) : codeUnits text ≠ [] := by
  obtain ⟨c, rest, rfl⟩ := List.exists_cons_of_ne_nil h
  rw [codeUnits, List.flatMap_cons]
  split_ifs <;> simp

/-- The names that come back: trimmed, of at most 255 code units, and without what is dropped on one
of the sides. -/
structure Kept (name : String) : Prop where
  ne_empty : name ≠ ""
  trimmed : trim name = name
  length_le : (codeUnits name.toList).length ≤ 255
  chars : ∀ c ∈ name.toList, isControl c = false ∧ c ≠ '"' ∧ c ≠ '\\' ∧ c ≠ '\ufffd'

lemma decodeUploadName_received {name : String} (h : Kept name) :
    decodeUploadName (some (received name)) = codeUnits name.toList := by
  have hreplacement : '\ufffd' ∉ name.toList := fun hmem => (h.chars _ hmem).2.2.2 rfl
  have hkept : name.toList.filter (fun c => !isControl c) = name.toList := by
    refine List.filter_eq_self.mpr fun c hc => ?_
    rw [(h.chars c hc).1]
    rfl
  have hchars : name.toList ≠ [] := fun hnil => h.ne_empty (String.toList_inj.mp hnil)
  simp only [decodeUploadName, Option.getD_some, redecode_received hreplacement, hkept,
    String.ofList_toList, h.trimmed, List.take_of_length_le h.length_le,
    if_neg (codeUnits_ne_nil hchars)]

/-! ### The header -/

/-- What `contentDisposition` makes a header of. -/
def cleanName (filename : String) : String :=
  let kept := trim (String.ofList (filename.toList.filter fun c => c ∉ "\r\n\"\\".toList))
  (truthy (some kept)).getD "file"

/-- The characters that are not encoded. -/
def isPlain (c : Char) : Bool := isUnreserved c && c ∉ "'()*".toList

def fallbackChar (c : Char) : List Char :=
  if 0x20 ≤ c.toNat ∧ c.toNat ≤ 0x7e then [c] else if c.toNat < 0x10000 then ['_'] else ['_', '_']

lemma toList_hexByte (b : UInt8) : (hexByte b).toList = Percent.encodeByte b :=
  String.toList_ofList

lemma hexDigit_notMem {n : ℕ} (h : n < 16) : Percent.hexDigit n ∉ "'()*".toList := by
  have hall : ∀ m : Fin 16, Percent.hexDigit m ∉ "'()*".toList := by decide
  exact hall ⟨n, h⟩

/-- Unreserved characters are visible ASCII characters. -/
lemma isUnreserved_ascii {c : Char} (h : isUnreserved c = true) :
    0x21 ≤ c.toNat ∧ c.toNat ≤ 0x7e ∧ c ≠ '%' := by
  have hmarks : ("-_.!~*'()".toList.all fun d =>
      decide (0x21 ≤ d.toNat ∧ d.toNat ≤ 0x7e ∧ d ≠ '%')) = true := by decide
  rw [isUnreserved, Bool.or_eq_true, decide_eq_true_eq] at h
  rcases h with h | h
  · have hbounds : 0x30 ≤ c.toNat ∧ c.toNat ≤ 0x7a := by
      rcases (Bool.or_eq_true _ _).mp h with halpha | hdigit
      · rcases (Bool.or_eq_true _ _).mp halpha with hupper | hlower
        · obtain ⟨hge, hle⟩ : 'A'.val ≤ c.val ∧ c.val ≤ 'Z'.val := of_decide_eq_true hupper
          exact ⟨le_trans (by decide) (UInt32.le_iff_toNat_le.mp hge),
            le_trans (UInt32.le_iff_toNat_le.mp hle) (by decide)⟩
        · obtain ⟨hge, hle⟩ := (Bool.and_eq_true _ _).mp hlower
          exact ⟨le_trans (by decide) (UInt32.le_iff_toNat_le.mp (of_decide_eq_true hge)),
            le_trans (UInt32.le_iff_toNat_le.mp (of_decide_eq_true hle)) (by decide)⟩
      · obtain ⟨hge, hle⟩ := Char.isDigit_iff_toNat.mp hdigit
        exact ⟨hge, le_trans hle (by decide)⟩
    refine ⟨le_trans (by decide) hbounds.1, le_trans hbounds.2 (by decide), ?_⟩
    rintro rfl
    exact absurd hbounds.1 (by decide)
  · exact of_decide_eq_true (List.all_eq_true.mp hmarks c h)

lemma toList_encodeURIComponent (s : String) : (encodeURIComponent s).toList
    = s.toList.flatMap fun c =>
      if isUnreserved c then [c] else (String.utf8EncodeChar c).flatMap Percent.encodeByte := by
  rw [encodeURIComponent, String.toList_join, List.flatMap_map]
  refine List.flatMap_congr fun c _ => ?_
  split_ifs
  · exact String.toList_singleton c
  · rw [String.toList_join, List.flatMap_map]
    exact List.flatMap_congr fun b _ => toList_hexByte b

lemma encodeByte_kept (b : UInt8) : ((Percent.encodeByte b).flatMap fun c =>
    (if c ∈ "'()*".toList then hexByte (UInt8.ofNat c.toNat) else c.toString).toList)
      = Percent.encodeByte b := by
  have hb : b.toNat < 256 := b.toNat_lt
  have hkept : ∀ c ∈ Percent.encodeByte b,
      (if c ∈ "'()*".toList then hexByte (UInt8.ofNat c.toNat) else c.toString).toList = [c] := by
    intro c hc
    have hnot : c ∉ "'()*".toList := by
      rcases List.mem_cons.mp hc with rfl | hc
      · decide
      · rcases List.mem_pair.mp hc with rfl | rfl
        · exact hexDigit_notMem (by omega)
        · exact hexDigit_notMem (by omega)
    rw [if_neg hnot]
    exact String.toList_singleton c
  rw [List.flatMap_congr hkept]
  simp

/-- The encoded name, as it is written. -/
lemma toList_encoded (s : String) :
    (String.join ((encodeURIComponent s).toList.map fun c =>
      if c ∈ "'()*".toList then hexByte (UInt8.ofNat c.toNat) else c.toString)).toList
      = Percent.encode isPlain s.toList := by
  rw [String.toList_join, List.flatMap_map, toList_encodeURIComponent, List.flatMap_assoc,
    Percent.encode]
  refine List.flatMap_congr fun c _ => ?_
  rw [Percent.encodeChar, isPlain]
  cases hc : isUnreserved c with
  | true =>
    have hlt : c.toNat < 128 := Nat.lt_of_le_of_lt (isUnreserved_ascii hc).2.1 (by decide)
    rw [if_pos rfl, List.flatMap_singleton]
    by_cases hmark : c ∈ "'()*".toList
    · have hplain : (true && decide (c ∉ "'()*".toList)) = false :=
        decide_eq_false (not_not.mpr hmark)
      rw [if_pos hmark, toList_hexByte, hplain, if_neg Bool.false_ne_true,
        Percent.utf8EncodeChar_ascii hlt, List.flatMap_singleton]
    · have hplain : (true && decide (c ∉ "'()*".toList)) = true := decide_eq_true hmark
      rw [if_neg hmark, hplain, if_pos rfl]
      exact String.toList_singleton c
  | false =>
    simp only [Bool.false_eq_true, if_false, Bool.false_and, List.flatMap_assoc]
    exact List.flatMap_congr fun b _ => encodeByte_kept b

lemma toList_contentDisposition (type filename : String) :
    (contentDisposition type filename).toList
      = (type ++ "; filename=\"").toList ++ ((cleanName filename).toList.flatMap fallbackChar ++
        '"' :: ("; filename*=UTF-8''".toList ++
          Percent.encode isPlain (cleanName filename).toList)) := by
  have hfallback : (String.join ((cleanName filename).toList.map fun c =>
      if 0x20 ≤ c.toNat ∧ c.toNat ≤ 0x7e then c.toString
      else if c.toNat < 0x10000 then "_" else "__")).toList
      = (cleanName filename).toList.flatMap fallbackChar := by
    rw [String.toList_join, List.flatMap_map]
    refine List.flatMap_congr fun c _ => ?_
    rw [fallbackChar]
    split_ifs
    · exact String.toList_singleton c
    · rfl
    · rfl
  have hrest : "\"; filename*=UTF-8''".toList = '"' :: "; filename*=UTF-8''".toList := rfl
  have hheader : contentDisposition type filename = type ++ "; filename=\"" ++
      String.join ((cleanName filename).toList.map fun c =>
        if 0x20 ≤ c.toNat ∧ c.toNat ≤ 0x7e then c.toString
        else if c.toNat < 0x10000 then "_" else "__") ++ "\"; filename*=UTF-8''" ++
      String.join ((encodeURIComponent (cleanName filename)).toList.map fun c =>
        if c ∈ "'()*".toList then hexByte (UInt8.ofNat c.toNat) else c.toString) := rfl
  rw [hheader, String.toList_append, String.toList_append, String.toList_append, hfallback,
    toList_encoded, hrest, List.append_assoc, List.append_assoc, List.cons_append]

/-! ### A stored name -/

/-- What may stand in a quoted string as itself. -/
def isQuotable (c : Char) : Bool := isPrintable c && c != '"' && c != '\\'

lemma readQuoted_append {text : List Char} (h : ∀ c ∈ text, isQuotable c = true)
    (rest : List Char) : readQuoted (text ++ '"' :: rest) = some (text, rest) := by
  induction text with
  | nil =>
    rw [List.nil_append, readQuoted.eq_def]
    exact if_pos rfl
  | cons c text ih =>
    have hc := h c List.mem_cons_self
    rw [isQuotable, Bool.and_eq_true, Bool.and_eq_true, bne_iff_ne, bne_iff_ne] at hc
    obtain ⟨⟨hprintable, hquote⟩, hbackslash⟩ := hc
    have hprintable : ¬(!isPrintable c) = true := by simp [hprintable]
    have ih := ih fun d hd => h d (List.mem_cons_of_mem _ hd)
    rw [List.cons_append, readQuoted.eq_def]
    dsimp only
    rw [if_neg hquote, if_neg hprintable, if_neg hbackslash, ih]
    rfl

lemma readLiteral_append (expected rest : List Char) :
    readLiteral expected (expected ++ rest) = some rest := by
  rw [readLiteral, if_pos (List.prefix_append expected rest), List.drop_left]

lemma mem_trim {s : String} {c : Char} (h : c ∈ (trim s).toList) : c ∈ s.toList := by
  rw [trim, String.toList_ofList, List.mem_reverse] at h
  have h := (List.dropWhile_sublist _).subset h
  rw [List.mem_reverse] at h
  exact (List.dropWhile_sublist _).subset h

/-- What ends a header, a quoted string or its characters is dropped. -/
lemma cleanName_chars (filename : String) :
    ∀ c ∈ (cleanName filename).toList, c ≠ '"' ∧ c ≠ '\\' := by
  intro c hc
  have hfile : ("file".toList.all fun d => d != '"' && d != '\\') = true := by decide
  have hquote : '"' ∈ "\r\n\"\\".toList := by decide
  have hbackslash : '\\' ∈ "\r\n\"\\".toList := by decide
  rw [cleanName, truthy] at hc
  split_ifs at hc with hkept
  · rw [Option.getD_none] at hc
    simpa using List.all_eq_true.mp hfile c hc
  · rw [Option.getD_some] at hc
    have hc := mem_trim hc
    rw [String.toList_ofList, List.mem_filter] at hc
    have hnot := of_decide_eq_true hc.2
    exact ⟨fun heq => hnot (heq ▸ hquote), fun heq => hnot (heq ▸ hbackslash)⟩

lemma fallback_quotable (filename : String) :
    ∀ c ∈ (cleanName filename).toList.flatMap fallbackChar, isQuotable c = true := by
  intro d hd
  obtain ⟨c, hc, hd⟩ := List.mem_flatMap.mp hd
  obtain ⟨hquote, hbackslash⟩ := cleanName_chars filename c hc
  have hunderscore : isQuotable '_' = true := by decide
  rw [fallbackChar] at hd
  split_ifs at hd with hprintable
  · rw [List.mem_singleton] at hd
    rw [hd, isQuotable, isPrintable, Bool.and_eq_true, Bool.and_eq_true, Bool.and_eq_true,
      decide_eq_true_eq, decide_eq_true_eq, bne_iff_ne, bne_iff_ne]
    exact ⟨⟨hprintable, hquote⟩, hbackslash⟩
  · rw [List.mem_singleton] at hd
    rw [hd, hunderscore]
  · rcases List.mem_pair.mp hd with rfl | rfl <;> exact hunderscore

lemma isPlain_unreserved {c : Char} (h : isPlain c = true) : isUnreserved c = true := by
  rw [isPlain, Bool.and_eq_true] at h
  exact h.1

lemma isPlain_ascii : Percent.Ascii isPlain := by
  intro c hc
  obtain ⟨-, hle, hne⟩ := isUnreserved_ascii (isPlain_unreserved hc)
  exact ⟨Nat.lt_of_le_of_lt hle (by decide), hne⟩

/-- Every character that is written as itself may be. -/
lemma isAttrChar_of_isPlain {c : Char} (h : isPlain c = true) : isAttrChar c = true := by
  have hmarks : ("-_.!~*'()".toList.all fun d =>
      "'()*".toList.contains d || "!#$&+-.^_`|~".toList.contains d) = true := by decide
  rw [isPlain, isUnreserved, Bool.and_eq_true, Bool.or_eq_true, decide_eq_true_eq,
    decide_eq_true_eq] at h
  rw [isAttrChar, Bool.or_eq_true, decide_eq_true_eq]
  obtain ⟨halphanum | hmark, hnot⟩ := h
  · exact Or.inl halphanum
  · right
    have hmark := List.all_eq_true.mp hmarks c hmark
    rw [Bool.or_eq_true, List.contains_iff_mem, List.contains_iff_mem] at hmark
    exact hmark.resolve_left hnot

lemma encodeByte_printable (b : UInt8) :
    ∀ c ∈ Percent.encodeByte b, isPrintable c = true := by
  have hb : b.toNat < 256 := b.toNat_lt
  have hdigit : ∀ n : Fin 16, isPrintable (Percent.hexDigit n) = true := by decide
  intro c hc
  rcases List.mem_cons.mp hc with rfl | hc
  · decide
  · rcases List.mem_pair.mp hc with rfl | rfl
    · exact hdigit ⟨b.toNat / 16, by omega⟩
    · exact hdigit ⟨b.toNat % 16, by omega⟩

lemma encode_printable (text : List Char) :
    ∀ c ∈ Percent.encode isPlain text, isPrintable c = true := by
  intro d hd
  obtain ⟨c, -, hd⟩ := List.mem_flatMap.mp hd
  rw [Percent.encodeChar] at hd
  split_ifs at hd with hplain
  · obtain ⟨hge, hle, -⟩ := isUnreserved_ascii (isPlain_unreserved hplain)
    rw [List.mem_singleton.mp hd, isPrintable, Bool.and_eq_true, decide_eq_true_eq,
      decide_eq_true_eq]
    exact ⟨Nat.le_of_succ_le hge, hle⟩
  · obtain ⟨b, -, hd⟩ := List.mem_flatMap.mp hd
    exact encodeByte_printable b d hd

/-- The header of any name is read: its fallback and the bytes of the clean name. -/
lemma readDisposition_contentDisposition (type filename : String) :
    readDisposition type (contentDisposition type filename)
      = some ⟨(cleanName filename).toList.flatMap fallbackChar,
          (cleanName filename).toList.flatMap String.utf8EncodeChar⟩ := by
  rw [readDisposition, toList_contentDisposition, readLiteral_append, Option.bind_some,
    readQuoted_append (fallback_quotable filename), Option.bind_some]
  dsimp only
  rw [readLiteral_append, Option.bind_some,
    Percent.decode_encode isPlain_ascii fun c => isAttrChar_of_isPlain]
  rfl

lemma filenameStar_contentDisposition (type filename : String) :
    filenameStar type (contentDisposition type filename) = some (cleanName filename) := by
  rw [filenameStar, readDisposition_contentDisposition, Option.bind_some, Percent.decodeUtf8_encode,
    Option.map_some, String.ofList_toList]

/-- A header of printable characters, whose type is written with such. -/
lemma contentDisposition_printable {type : String}
    (htype : ∀ c ∈ type.toList, isPrintable c = true) (filename : String) :
    ∀ c ∈ (contentDisposition type filename).toList, isPrintable c = true := by
  have hopening : ("; filename=\"".toList.all isPrintable) = true := by decide
  have hext : ("; filename*=UTF-8''".toList.all isPrintable) = true := by decide
  intro c hc
  rw [toList_contentDisposition, String.toList_append, List.mem_append, List.mem_append,
    List.mem_append, List.mem_cons, List.mem_append] at hc
  obtain (hc | hc) | hc | rfl | hc | hc := hc
  · exact htype c hc
  · exact List.all_eq_true.mp hopening c hc
  · have hquotable := fallback_quotable filename c hc
    rw [isQuotable, Bool.and_eq_true, Bool.and_eq_true] at hquotable
    exact hquotable.1.1
  · decide
  · exact List.all_eq_true.mp hext c hc
  · exact encode_printable _ c hc

/-- The name of a file that was kept as it was received is sent as it was kept. -/
lemma cleanName_of_kept {name : String} (h : Kept name) : cleanName name = name := by
  have hcontrol : isControl '\r' = true ∧ isControl '\n' = true := by decide
  have hkept : name.toList.filter (fun c => c ∉ "\r\n\"\\".toList) = name.toList := by
    refine List.filter_eq_self.mpr fun c hc => decide_eq_true fun hmem => ?_
    obtain ⟨hno, hquote, hbackslash, -⟩ := h.chars c hc
    obtain rfl | rfl | heq | heq : c = '\r' ∨ c = '\n' ∨ c = '"' ∨ c = '\\' := by simpa using hmem
    · exact absurd hcontrol.1 (by simp [hno])
    · exact absurd hcontrol.2 (by simp [hno])
    · exact hquote heq
    · exact hbackslash heq
  rw [cleanName, hkept, String.ofList_toList, h.trimmed, truthy_some h.ne_empty, Option.getD_some]

/-! ### Both ways -/

def dispositionTypes : List String := ["inline", "attachment"]

lemma dispositionType_printable {type : String} (h : type ∈ dispositionTypes) :
    ∀ c ∈ type.toList, isPrintable c = true := by
  have hall : (dispositionTypes.all fun type => type.toList.all isPrintable) = true := by decide
  intro c hc
  exact List.all_eq_true.mp (List.all_eq_true.mp hall type h) c hc

/-- A name that was kept at the upload comes back at the download, and the header of any name is
printable and can be read, its quoted fallback included. -/
theorem fileName_roundTrips (type : String) (htype : type ∈ dispositionTypes) :
    (∀ name, Kept name →
      (contentDispositionOf type (decodeUploadName (some (received name)))).bind (filenameStar type)
        = some name) ∧
    ∀ filename,
      (∀ c ∈ (contentDisposition type filename).toList, isPrintable c = true) ∧
      ∃ d, readDisposition type (contentDisposition type filename) = some d ∧
        ∀ c ∈ d.fallback, isQuotable c = true := by
  refine ⟨fun name hname => ?_, fun filename => ⟨?_, ?_⟩⟩
  · have hheader : contentDispositionOf type (decodeUploadName (some (received name)))
        = some (contentDisposition type name) := by
      rw [contentDispositionOf, decodeUploadName_received hname, ofCodeUnits_codeUnits,
        Option.map_some, String.ofList_toList]
    rw [hheader, Option.bind_some, filenameStar_contentDisposition, cleanName_of_kept hname]
  · exact contentDisposition_printable (dispositionType_printable htype) filename
  · refine ⟨_, readDisposition_contentDisposition type filename, ?_⟩
    dsimp only
    exact fallback_quotable filename

/-- An Arabic name with a quote, an accent, an astral character, brackets and a star. -/
def certificateName : String := "شهادة's é 😀 (1*).pdf"

lemma kept_certificateName : Kept certificateName where
  ne_empty := by decide
  trimmed := by decide
  length_le := by decide
  chars := by
    have hall : (certificateName.toList.all fun c =>
        decide (isControl c = false ∧ c ≠ '"' ∧ c ≠ '\\' ∧ c ≠ '\ufffd')) = true := by decide
    exact fun c hc => of_decide_eq_true (List.all_eq_true.mp hall c hc)

theorem fileName_roundTrips_certificate :
    (contentDispositionOf "attachment" (decodeUploadName (some (received certificateName)))).bind
      (filenameStar "attachment") = some certificateName :=
  (fileName_roundTrips "attachment" (by decide)).1 certificateName kept_certificateName

end SafeerApi.Files
