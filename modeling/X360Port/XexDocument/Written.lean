import Mathlib.Data.List.Forall2
import X360Port.Library.Json.Layout
import X360Port.XexDocument

/-!
# What the document says

The value that the document of an inspection has, piece by piece. A string the
tool writes has the bytes it was given where these are UTF-8: ASCII bytes are
escaped or stand for themselves, all others pass through (`writes_jsonString`).
`document_encodes` is the whole: with names in UTF-8 the document is the text of
`documentJson`.
-/

namespace X360Port

open Library Json

/-! ## Strings -/

section

variable {b : UInt8} {c : Char} {name : StringView}

theorem jsonCharacter_of_le (h : 0x80 ≤ b) : jsonCharacter b = [b] := by
  rw [UInt8.le_iff_toNat_le] at h
  have hne : ∀ x : UInt8, x.toNat < 0x80 → b ≠ x := by
    rintro x hx rfl
    exact absurd hx (not_lt.2 h)
  unfold jsonCharacter
  rw [if_neg (hne _ (by decide)), if_neg (hne _ (by decide)), if_neg (hne _ (by decide)),
    if_neg (hne _ (by decide)), if_neg (hne _ (by decide)), if_neg]
  rw [UInt8.lt_iff_toNat_lt]
  exact not_lt.2 (le_trans (by decide) h)

/-- An ASCII byte is written in ASCII. -/
theorem jsonCharacter_ascii (h : b < 0x80) :
    jsonCharacter b ≠ [] ∧ ∀ x ∈ jsonCharacter b, x < 0x80 := by
  have hall : ∀ n < 128, jsonCharacter (UInt8.ofNat n) ≠ [] ∧
      ∀ x ∈ jsonCharacter (UInt8.ofNat n), x < 0x80 := by decide +kernel
  have hb := hall b.toNat h
  rwa [UInt8.ofNat_toNat] at hb

/-- The text that is written for a character. -/
def jsonEscape (c : Char) : List Char :=
  if c.toNat < 0x80 then (jsonCharacter c.toNat.toUInt8).map Char.ofUInt8 else [c]

theorem utf8_jsonEscape (c : Char) :
    utf8 (jsonEscape c) = (String.utf8EncodeChar c).flatMap jsonCharacter := by
  unfold jsonEscape
  split
  · next hc =>
    have hb : c.toNat.toUInt8 < 0x80 := by
      rw [UInt8.lt_iff_toNat_lt]
      exact lt_of_le_of_lt (Nat.mod_le _ _) hc
    rw [utf8_map_ofUInt8 (jsonCharacter_ascii hb).2, utf8EncodeChar_of_lt hc]
    simp
  · next hc =>
    rw [utf8_cons, utf8_nil, List.append_nil]
    have hself : ∀ x ∈ String.utf8EncodeChar c, jsonCharacter x = [x] := fun x hx =>
      jsonCharacter_of_le (le_of_mem_utf8EncodeChar (not_lt.1 hc) hx)
    rw [List.flatMap_congr hself]
    simp

theorem chars_jsonEscape (c : Char) : Chars (jsonEscape c) [c] := by
  unfold jsonEscape
  split
  · next hc =>
    have hall : ∀ n < 128, unescape ((jsonCharacter (Nat.toUInt8 n)).map Char.ofUInt8) =
        some [Char.ofNat n] := by decide +kernel
    have hn := hall c.toNat hc
    rw [Char.ofNat_toNat] at hn
    exact unescape_eq_some_iff.1 hn
  · next hc =>
    refine .unescaped ⟨by omega, ?_, ?_⟩ .nil
    · rintro rfl
      exact hc (by decide)
    · rintro rfl
      exact hc (by decide)

theorem quoted_jsonString (text : List Char) :
    ∃ t, utf8 t = jsonString (utf8 text) ∧ Quoted t text := by
  refine ⟨'"' :: (text.flatMap jsonEscape ++ ['"']), ?_, _, ?_, rfl⟩
  · have hescape : utf8 (text.flatMap jsonEscape) = (utf8 text).flatMap jsonCharacter := by
      rw [utf8, utf8, List.flatMap_assoc, List.flatMap_assoc]
      exact List.flatMap_congr fun c _ => utf8_jsonEscape c
    have hcons : '"' :: (text.flatMap jsonEscape ++ ['"']) =
        "\"".toList ++ (text.flatMap jsonEscape ++ "\"".toList) := rfl
    rw [hcons, utf8_append, utf8_append, hescape]
    rfl
  · induction text with
    | nil => exact .nil
    | cons c text ih => exact (chars_jsonEscape c).append ih

theorem writes_text (text : List Char) : Writes (jsonString (utf8 text)) (.string text) := by
  obtain ⟨t, ht, hq⟩ := quoted_jsonString text
  exact ⟨t, ht, .string hq⟩

theorem writes_jsonString (h : IsUtf8 name) : Writes (jsonString name) (.string (textOf name)) := by
  have hwrites := writes_text (textOf name)
  rwa [h.utf8_textOf] at hwrites

end

/-! ## Numbers -/

/-- A word in eight hexadecimal digits. -/
def hexJson (value : UInt32) : Json := .string ((Nat.toDigits 16 value.toNat).leftpad 8 '0')

def digestJson (digest : Sha256Digest) : Json :=
  .string (digest.toList.flatMap fun byte => (Nat.toDigits 16 byte.toNat).leftpad 2 '0')

def countJson (n : Nat) : Json := .number n 0

theorem writes_hex32 (value : UInt32) : Writes (jsonString (hex32 value)) (hexJson value) :=
  writes_text _

theorem writes_sha256Hex (digest : Sha256Digest) :
    Writes (jsonString (sha256Hex digest)) (digestJson digest) := by
  have hwrites := writes_text (digest.toList.flatMap fun byte =>
    (Nat.toDigits 16 byte.toNat).leftpad 2 '0')
  rwa [utf8, List.flatMap_assoc] at hwrites

theorem writes_decimal (n : Nat) : Writes (decimal n) (countJson n) :=
  ⟨_, rfl, .number (number_toDigits n)⟩

/-! ## The objects -/

def fileJson (xex : List UInt8) : Json := .object
  [("sha256".toList, digestJson (hashBytes xex)), ("size".toList, countJson xex.length)]

def executionJson (execution : XexExecutionInfo) : Json := .object
  [("title_id".toList, hexJson execution.titleId), ("media_id".toList, hexJson execution.mediaId),
    ("version".toList, hexJson execution.version),
    ("base_version".toList, hexJson execution.baseVersion),
    ("platform".toList, countJson execution.platform.toNat),
    ("executable_table".toList, countJson execution.executableTable.toNat),
    ("disc_number".toList, countJson execution.discNumber.toNat),
    ("disc_count".toList, countJson execution.discCount.toNat),
    ("savegame_id".toList, hexJson execution.savegameId)]

def imageJson (inspection : XexInspection) : Json := .object
  [("sha256".toList, digestJson (hashBytes inspection.loadedImage)),
    ("base".toList, hexJson inspection.image.identity.base),
    ("size".toList, countJson inspection.loadedImage.length),
    ("entry".toList, hexJson inspection.image.identity.entryPoint)]

def sectionJson (s : PeSection) : Json := .object
  [("name".toList, .string (textOf s.name)), ("base".toList, hexJson s.base),
    ("size".toList, countJson s.size.toNat), ("code".toList, .bool s.code)]

def importJson (imported : XexImport) : Json := .object
  [("kind".toList, .string (textOf (kindText imported.kind))),
    ("library".toList, .string (textOf imported.library)),
    ("ordinal".toList, countJson imported.ordinal.toNat),
    ("name".toList, .string (textOf imported.name)),
    ("address".toList, hexJson imported.address),
    ("record_address".toList, hexJson imported.recordAddress)]

def helperJson (helpers : XexHelpers) (index : Fin 8) : List Char × Json :=
  ((helperNames.get index).toList, .array ((helpers.get index).map hexJson))

def documentJson (xex : List UInt8) (inspection : XexInspection) : Json := .object
  [("schema".toList, countJson 1), ("format".toList, .string "XEX2".toList),
    ("xex".toList, fileJson xex), ("execution".toList, executionJson inspection.execution),
    ("image".toList, imageJson inspection),
    ("sections".toList, .array (inspection.image.sections.map sectionJson)),
    ("imports".toList, .array (inspection.imports.map importJson)),
    ("helpers".toList, .object ((List.finRange 8).map (helperJson inspection.helpers)))]

theorem writes_file (xex : List UInt8) : Writes (fileText xex) (fileJson xex) := by
  unfold fileText
  simp only [List.append_assoc]
  exact .object (.literal (by decide)) (writes_sha256Hex (hashBytes xex)) <|
    .more (.literal (by decide)) (writes_decimal xex.length) <| .literal (by decide)

theorem writes_execution (execution : XexExecutionInfo) :
    Writes (executionText execution) (executionJson execution) := by
  unfold executionText
  simp only [List.append_assoc]
  exact .object (.literal (by decide)) (writes_hex32 execution.titleId) <|
    .more (.literal (by decide)) (writes_hex32 execution.mediaId) <|
    .more (.literal (by decide)) (writes_hex32 execution.version) <|
    .more (.literal (by decide)) (writes_hex32 execution.baseVersion) <|
    .more (.literal (by decide)) (writes_decimal execution.platform.toNat) <|
    .more (.literal (by decide)) (writes_decimal execution.executableTable.toNat) <|
    .more (.literal (by decide)) (writes_decimal execution.discNumber.toNat) <|
    .more (.literal (by decide)) (writes_decimal execution.discCount.toNat) <|
    .more (.literal (by decide)) (writes_hex32 execution.savegameId) <| .literal (by decide)

theorem writes_image (inspection : XexInspection) :
    Writes (imageText inspection) (imageJson inspection) := by
  unfold imageText
  simp only [List.append_assoc]
  exact .object (.literal (by decide)) (writes_sha256Hex (hashBytes inspection.loadedImage)) <|
    .more (.literal (by decide)) (writes_hex32 inspection.image.identity.base) <|
    .more (.literal (by decide)) (writes_decimal inspection.loadedImage.length) <|
    .more (.literal (by decide)) (writes_hex32 inspection.image.identity.entryPoint) <|
    .literal (by decide)

theorem writes_section {s : PeSection} (h : IsUtf8 s.name) :
    Writes (sectionText s) (sectionJson s) := by
  have hcode : Writes (if s.code then ascii "true" else ascii "false") (.bool s.code) := by
    cases s.code with
    | false => exact ⟨_, rfl, .false⟩
    | true => exact ⟨_, rfl, .true⟩
  unfold sectionText
  simp only [List.append_assoc]
  exact .object (.literal (by decide)) (writes_jsonString h) <|
    .more (.literal (by decide)) (writes_hex32 s.base) <|
    .more (.literal (by decide)) (writes_decimal s.size.toNat) <|
    .more (.literal (by decide)) hcode <| .literal (by decide)

theorem isUtf8_kindText (kind : ImportKind) : IsUtf8 (kindText kind) := by
  unfold kindText
  split
  · exact isUtf8_utf8 _
  · exact isUtf8_utf8 _

theorem writes_import {imported : XexImport} (hlibrary : IsUtf8 imported.library)
    (hname : IsUtf8 imported.name) : Writes (importText imported) (importJson imported) := by
  unfold importText
  simp only [List.append_assoc]
  exact .object (.literal (by decide)) (writes_jsonString (isUtf8_kindText imported.kind)) <|
    .more (.literal (by decide)) (writes_jsonString hlibrary) <|
    .more (.literal (by decide)) (writes_decimal imported.ordinal.toNat) <|
    .more (.literal (by decide)) (writes_jsonString hname) <|
    .more (.literal (by decide)) (writes_hex32 imported.address) <|
    .more (.literal (by decide)) (writes_hex32 imported.recordAddress) <| .literal (by decide)

/-! ## The lists -/

section

variable {α : Type} {row : α → List UInt8} {items : List α}

/-- The loop from some row on. -/
theorem flatMap_zipIdx_rows (row : α → List UInt8) (item : α) (items : List α) (done : Nat) :
    (((item :: items).zipIdx done).flatMap fun (item', index) => row item' ++
        if index + 1 = done + (item :: items).length then ascii "\n" else ascii ",\n") =
      row item ++ rowsTail (ascii ",\n") (ascii "\n") (items.map row) := by
  induction items generalizing item done with
  | nil => simp [rowsTail]
  | cons next items ih =>
    have hrest := ih next (done + 1)
    have hcount : done + 1 + (next :: items).length = done + (item :: next :: items).length := by
      simp only [List.length_cons]
      omega
    rw [hcount] at hrest
    rw [List.zipIdx_cons, List.flatMap_cons, hrest]
    dsimp only
    rw [if_neg (by simp), List.map_cons, rowsTail, List.append_assoc]

theorem writeRows_eq (row : α → List UInt8) (items : List α) :
    writeRows row items = rows (ascii ",\n") (ascii "\n") (items.map row) := by
  cases items with
  | nil => rfl
  | cons item items =>
    have hrows := flatMap_zipIdx_rows row item items 0
    rw [Nat.zero_add] at hrows
    exact hrows

/-- The loop over addresses behind the first. -/
theorem flatMap_zipIdx_addresses (addresses : List GuestAddress) (done : Nat) :
    ((addresses.zipIdx (done + 1)).flatMap fun (address, index) =>
        (if index ≠ 0 then ascii ", " else []) ++ jsonString (hex32 address)) =
      rowsTail (ascii ", ") (ascii "") (addresses.map fun a => jsonString (hex32 a)) := by
  induction addresses generalizing done with
  | nil => rfl
  | cons address addresses ih =>
    rw [List.zipIdx_cons, List.flatMap_cons, ih (done + 1)]
    dsimp only
    rw [if_pos (Nat.succ_ne_zero done), List.map_cons, rowsTail, List.append_assoc]

theorem writeAddresses_eq (addresses : List GuestAddress) : writeAddresses addresses =
    rows (ascii ", ") (ascii "") (addresses.map fun a => jsonString (hex32 a)) := by
  cases addresses with
  | nil => rfl
  | cons address addresses =>
    have hrest := flatMap_zipIdx_addresses addresses 0
    rw [writeAddresses, List.zipIdx_cons, List.flatMap_cons, hrest]
    rfl

/-- Two lists made of the same items. -/
theorem forall₂_map_same {β γ : Type} {R : β → γ → Prop} {f : α → β} {g : α → γ}
    (h : ∀ item ∈ items, R (f item) (g item)) :
    List.Forall₂ R (items.map f) (items.map g) := by
  rw [List.forall₂_map_left_iff, List.forall₂_map_right_iff, List.forall₂_same]
  exact h

theorem writes_array_lines {json : α → Json} (h : ∀ item ∈ items, Writes (row item) (json item)) :
    Writes (ascii "[\n" ++ writeRows row items ++ ascii "  ]") (.array (items.map json)) := by
  rw [writeRows_eq, List.append_assoc]
  exact .array_rows (by decide) (by decide) (by decide) (by decide) (forall₂_map_same h)

theorem writes_object_lines {json : α → List Char × Json}
    (h : ∀ item ∈ items, WritesMember (row item) (json item)) :
    Writes (ascii "\x7b\n" ++ writeRows row items ++ ascii "  \x7d")
      (.object (items.map json)) := by
  rw [writeRows_eq, List.append_assoc]
  exact .object_rows (by decide) (by decide) (by decide) (by decide) (forall₂_map_same h)

theorem writes_addresses (addresses : List GuestAddress) : Writes
    (ascii "[" ++ writeAddresses addresses ++ ascii "]") (.array (addresses.map hexJson)) := by
  rw [writeAddresses_eq, List.append_assoc]
  exact .array_rows (by decide) (by decide) (by decide) (by decide)
    (forall₂_map_same fun address _ => writes_hex32 address)

theorem writes_helper (helpers : XexHelpers) (index : Fin 8) :
    WritesMember (helperText helpers index) (helperJson helpers index) := by
  obtain ⟨q, hq, hquoted⟩ := quoted_jsonString (helperNames.get index).toList
  refine ⟨"    ".toList, q, ": ".toList, _, by decide, hquoted, by decide,
    writes_addresses (helpers.get index), ?_⟩
  unfold helperText
  rw [utf8_append, utf8_append, hq]
  simp only [List.append_assoc]
  rfl

end

/-! ## The document -/

/-- The names of the inspection are UTF-8. -/
structure NamesInUtf8 (inspection : XexInspection) : Prop where
  sections : ∀ s ∈ inspection.image.sections, IsUtf8 s.name
  libraries : ∀ imported ∈ inspection.imports, IsUtf8 imported.library
  imports : ∀ imported ∈ inspection.imports, IsUtf8 imported.name

/-- The document is a JSON text in UTF-8 with the value that the inspection has. -/
theorem document_encodes (xex : List UInt8) {inspection : XexInspection}
    (h : NamesInUtf8 inspection) :
    Encodes (document xex inspection) (documentJson xex inspection) := by
  have hsections : Writes (sectionsText inspection.image.sections)
      (.array (inspection.image.sections.map sectionJson)) :=
    writes_array_lines fun s hs => writes_section (h.sections s hs)
  have himports : Writes (importsText inspection.imports)
      (.array (inspection.imports.map importJson)) :=
    writes_array_lines fun imported himp =>
      writes_import (h.libraries imported himp) (h.imports imported himp)
  have hhelpers : Writes (helpersText inspection.helpers)
      (.object ((List.finRange 8).map (helperJson inspection.helpers))) :=
    writes_object_lines fun index _ => writes_helper inspection.helpers index
  have hformat : Writes (ascii "\"XEX2\"") (.string "XEX2".toList) := writes_text "XEX2".toList
  have hvalue : Writes (inspectionText xex inspection) (documentJson xex inspection) := by
    unfold inspectionText
    simp only [List.append_assoc]
    exact .object (.literal (by decide)) (writes_decimal 1) <|
      .more (.literal (by decide)) hformat <|
      .more (.literal (by decide)) (writes_file xex) <|
      .more (.literal (by decide)) (writes_execution inspection.execution) <|
      .more (.literal (by decide)) (writes_image inspection) <|
      .more (.literal (by decide)) hsections <|
      .more (.literal (by decide)) himports <|
      .more (.literal (by decide)) hhelpers <| .literal (by decide)
  obtain ⟨t, ht, hv⟩ := hvalue
  refine ⟨[] ++ (t ++ "\n".toList), ?_, [], t, _, .nil, hv, by decide, rfl⟩
  rw [List.nil_append, utf8_append, ht]
  rfl

end X360Port
