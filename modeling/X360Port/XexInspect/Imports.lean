import X360Port.Library.EarlyExit
import X360Port.XexImports

/-!
# The imports of a loaded image

`parseImports` walks the import descriptor in the header, library by library.
All record words of one library are read from the image first. Then each
record word is rewritten in little-endian order, and a function thunk behind
its record becomes the canonical stub. The state of the walk is kept when a
library is refused, since its rewrites stay in the image.
-/

namespace X360Port

open Library

structure XexImport where
  kind : ImportKind := .function
  library : StringView
  ordinal : UInt32 := 0
  name : StringView
  address : GuestAddress := 0
  recordAddress : GuestAddress := 0
  deriving DecidableEq, Repr

structure ImageBounds where
  base : GuestAddress := 0
  size : Nat := 0
  deriving DecidableEq, Repr

structure ImportContext where
  header : HeaderGeometry
  image : ImageBounds
  deriving DecidableEq, Repr

def hexDigit (nibble : UInt32) : UInt8 :=
  if nibble < 10 then 0x30 + nibble.toUInt8 else 0x57 + nibble.toUInt8

/-- `ordinal_` and eight hexadecimal digits. -/
def ordinalName (ordinal : UInt32) : StringView :=
  let text : List UInt8 := [0x6f, 0x72, 0x64, 0x69, 0x6e, 0x61, 0x6c, 0x5f]
  let shifts : List UInt32 := [28, 24, 20, 16, 12, 8, 4, 0]
  text ++ shifts.map fun shift => hexDigit ((ordinal >>> shift) &&& 0xF)

def inImage (address : GuestAddress) (image : ImageBounds) (bytes : Nat) : Checked String Bool :=
  if address < image.base then return false
  else do
    let offset ← sub address.toNat image.base.toNat
    if offset ≤ image.size then
      return decide (bytes ≤ (← sub image.size offset))
    else return false

/-- A word in little-endian order. -/
def littleWordBytes (value : UInt32) : List UInt8 :=
  [value.toUInt8, (value >>> 8).toUInt8, (value >>> 16).toUInt8, (value >>> 24).toUInt8]

def writeU32Le (bytes : List UInt8) (offset : Nat) (value : UInt32) :
    Checked String (List UInt8) := writeCells bytes offset (littleWordBytes value)

/-- Three `nop`s and a `blr`. -/
def kFunctionStub : List UInt8 :=
  [0x60, 0x00, 0x00, 0x00, 0x60, 0x00, 0x00, 0x00,
    0x60, 0x00, 0x00, 0x00, 0x4e, 0x80, 0x00, 0x20]

def normalizeFunctionStub (image : List UInt8) (offset : Nat) : Checked String (List UInt8) :=
  writeCells image offset kFunctionStub

/-- One import record of a library and the image word it names. -/
structure RawImport where
  ordinal : UInt32 := 0
  address : GuestAddress := 0
  value : UInt32 := 0
  type : UInt32 := 0
  deriving DecidableEq, Repr

/-- The record of an address whose image word is `value`. -/
def RawImport.ofWord (address : GuestAddress) (value : UInt32) : RawImport :=
  ⟨value &&& 0xFFFF, address, value, value >>> 24⟩

/-! ## The descriptor -/

/-- What the walk over the libraries needs of the descriptor's head. -/
structure ImportTable where
  offset : Nat
  optionSize : Nat
  libraryOffset : Nat
  libraryCount : Nat
  names : List StringView
  deriving DecidableEq, Repr

/-- One past the descriptor's last byte. -/
def ImportTable.limit (table : ImportTable) : Nat := table.offset + table.optionSize

def parseImportTable (header : List UInt8) (geometry : HeaderGeometry) :
    Checked String ImportTable := do
  match ← findOptional header 0x000103FF geometry with
  | none => throw (.refused "XEX has no complete import-library descriptor")
  | some importHeader =>
    refuseIf importHeader.inlineValue "XEX has no complete import-library descriptor"
    requireBytes header importHeader.offset kImportHeaderMinimum
      "XEX has no complete import-library descriptor"
    let offset := importHeader.offset
    let optionSize := (← readU32Be header offset).toNat
    let stringSize ← readU32Be header (offset + 4)
    let libraryCount ← readU32Be header (offset + 8)
    let error := "XEX import-library string table is invalid"
    refuseIf (optionSize < kImportHeaderMinimum) error
    refuseIf (optionSize > (← sub geometry.size offset)) error
    refuseIf (stringSize.toNat > (← sub optionSize kImportHeaderMinimum)) error
    refuseIf (libraryCount = 0) error
    let stringOffset := offset + kImportHeaderMinimum
    let libraryOffset := stringOffset + stringSize.toNat
    refuseIf (libraryOffset > offset + optionSize)
      "XEX import-library table starts outside its descriptor"
    let names ← parseImportLibraryNames header ⟨stringOffset, stringSize, libraryCount⟩
    return ⟨offset, optionSize, libraryOffset, libraryCount.toNat, names⟩

/-- The records of a library from an index on. -/
def readRawImports (header image : List UInt8) (bounds : ImageBounds) (cursor : Nat) :
    Nat → Nat → Checked String (List RawImport)
  | 0, _ => return []
  | rounds + 1, index => do
    let record ← readU32Be header (cursor + 0x28 + index * 4)
    let error := "XEX import record points outside the loaded image"
    refuseIf (record = 0) error
    refuseIf (record &&& 3 ≠ 0) error
    refuseIf (¬ (← inImage record bounds 4)) error
    let recordOffset ← sub record.toNat bounds.base.toNat
    let value ← readU32Be image recordOffset
    let raw := RawImport.ofWord record value
    refuseIf (raw.type ≠ 0 ∧ raw.type ≠ 1)
      "XEX import records have an unsupported or unpaired type"
    let rest ← readRawImports header image bounds cursor rounds (index + 1)
    return raw :: rest

/-- A library record with the image words of its imports. -/
structure LibraryRecord where
  size : Nat
  library : StringView
  rawImports : List RawImport
  deriving DecidableEq, Repr

def readLibrary (header image : List UInt8) (bounds : ImageBounds) (table : ImportTable)
    (cursor : Nat) : Checked String LibraryRecord := do
  requireBytes header cursor kImportLibraryMinimum "XEX import-library record is truncated"
  refuseIf (cursor + kImportLibraryMinimum > table.limit) "XEX import-library record is truncated"
  let librarySize := (← readU32Be header cursor).toNat
  let nameIndex := (← readU16Be header (cursor + 0x24)).toNat
  let importCount := (← readU16Be header (cursor + 0x26)).toNat
  let tableBytes := importCount * 4
  let error := "XEX import-library record has invalid bounds"
  refuseIf (librarySize < kImportLibraryMinimum) error
  refuseIf (tableBytes > (← sub librarySize 0x28)) error
  refuseIf (librarySize > (← sub table.limit cursor)) error
  refuseIf (nameIndex ≥ table.names.length) error
  let library ← readAt table.names nameIndex
  let rawImports ← readRawImports header image bounds cursor importCount 0
  return ⟨librarySize, library, rawImports⟩

/-! ## Rewriting the image -/

/-- The walk over the libraries. -/
structure ImportParse where
  cursor : Nat := 0
  image : List UInt8
  imports : List XexImport := []
  deriving DecidableEq, Repr

/-- Write the record word of an import back in little-endian order. -/
def rewriteRecord (bounds : ImageBounds) (image : List UInt8) (record : RawImport) :
    Checked String (List UInt8) := do
  let offset ← sub record.address.toNat bounds.base.toNat
  writeU32Le image offset record.value

/-- Replace the thunk of a function import. -/
def rewriteThunk (bounds : ImageBounds) (image : List UInt8) (record thunk : RawImport) :
    Checked String (List UInt8) := do
  refuseIf (thunk.ordinal ≠ record.ordinal)
    "XEX adjacent import record and function thunk disagree"
  refuseIf (¬ (← inImage thunk.address bounds 16))
    "XEX adjacent import record and function thunk disagree"
  let offset ← sub thunk.address.toNat bounds.base.toNat
  normalizeFunctionStub image offset

def functionImport (library : StringView) (record thunk : RawImport) : XexImport :=
  ⟨.function, library, thunk.ordinal, ordinalName thunk.ordinal, thunk.address, record.address⟩

def variableImport (library : StringView) (record : RawImport) : XexImport :=
  ⟨ImportKind.variable, library, record.ordinal, ordinalName record.ordinal, record.address,
    record.address⟩

def ImportParse.push (s : ImportParse) (imp : XexImport) : ImportParse :=
  { s with imports := s.imports ++ [imp] }

/-- The records of one library, from the first one on. -/
def normalizeImports (bounds : ImageBounds) (library : StringView) :
    List RawImport → ImportParse → ImportParse × Option (Stop String)
  | [], s => (s, none)
  | record :: rest, s =>
    if record.type ≠ 0 then
      (s, some (.refused "XEX function thunk lacks an adjacent variable record"))
    else
      match rewriteRecord bounds s.image record with
      | .error stop => (s, some stop)
      | .ok image =>
        let s := { s with image }
        match rest with
        | [] => (s.push (variableImport library record), none)
        | thunk :: others =>
          if thunk.type = 1 then
            match rewriteThunk bounds s.image record thunk with
            | .error stop => (s, some stop)
            | .ok image =>
              normalizeImports bounds library others
                ({ s with image }.push (functionImport library record thunk))
          else
            normalizeImports bounds library (thunk :: others)
              (s.push (variableImport library record))

/-- One turn of the library loop. -/
def parseLibrary (header : List UInt8) (bounds : ImageBounds) (table : ImportTable)
    (s : ImportParse) (_ : Nat) : ImportParse × Option (Stop String) :=
  match readLibrary header s.image bounds table s.cursor with
  | .error stop => (s, some stop)
  | .ok record =>
    let (s, exit) := normalizeImports bounds record.library record.rawImports s
    match exit with
    | some stop => (s, some stop)
    | none => ({ s with cursor := s.cursor + record.size }, none)

def parseImports (header image : List UInt8) (context : ImportContext) :
    ImportParse × Option (Stop String) :=
  match parseImportTable header context.header with
  | .error stop => ({ image }, some stop)
  | .ok table =>
    let (s, exit) := forEach (parseLibrary header context.image table)
      (List.range table.libraryCount) { cursor := table.libraryOffset, image }
    match exit with
    | some stop => (s, some stop)
    | none =>
      if s.cursor ≠ table.limit then
        (s, some (.refused "XEX import-library descriptor has trailing or overlapping bytes"))
      else (s, none)

end X360Port
