import X360Port.Digest
import X360Port.Library.Utf8
import X360Port.XexInspect.Inspect

/-!
# The inspection document

`document` is the text that the inspector prints for an accepted file. It is put
together by hand: literals, numbers, and strings through `jsonString`, which escapes
the bytes of a string one by one. The lists are written row by row with a separator
behind each row but the last.

The literals of one row of the source stand here cut where a value begins or ends,
with their braces as hex escapes.
-/

namespace X360Port

open Library

/-- `std::hex` with `std::setfill('0')` and `std::setw(width)`. -/
def hexPadded (width n : Nat) : List UInt8 := utf8 ((Nat.toDigits 16 n).leftpad width '0')

def decimal (n : Nat) : List UInt8 := utf8 (Nat.toDigits 10 n)

def hex32 (value : UInt32) : List UInt8 := hexPadded 8 value.toNat

/-- What `JsonString` writes for one byte. -/
def jsonCharacter (character : UInt8) : List UInt8 :=
  if character = 0x22 then ascii "\\\""
  else if character = 0x5c then ascii "\\\\"
  else if character = 0x0a then ascii "\\n"
  else if character = 0x0d then ascii "\\r"
  else if character = 0x09 then ascii "\\t"
  else if character < 0x20 then ascii "\\u" ++ hexPadded 4 character.toNat
  else [character]

def jsonString (value : StringView) : List UInt8 :=
  ascii "\"" ++ (value.flatMap jsonCharacter ++ ascii "\"")

def sha256Hex (digest : Sha256Digest) : List UInt8 :=
  digest.toList.flatMap fun byte => hexPadded 2 byte.toNat

/-- The loop over a list, with a comma behind each row but the last. -/
def writeRows {α : Type} (row : α → List UInt8) (items : List α) : List UInt8 :=
  items.zipIdx.flatMap fun (item, index) =>
    row item ++ if index + 1 = items.length then ascii "\n" else ascii ",\n"

/-- The loop over addresses, with a comma before each but the first. -/
def writeAddresses (addresses : List GuestAddress) : List UInt8 :=
  addresses.zipIdx.flatMap fun (address, index) =>
    (if index ≠ 0 then ascii ", " else []) ++ jsonString (hex32 address)

def fileText (xex : List UInt8) : List UInt8 :=
  ascii "\x7b\"sha256\": " ++ jsonString (sha256Hex (hashBytes xex)) ++
    ascii ", \"size\": " ++ decimal xex.length ++ ascii "\x7d"

def executionText (execution : XexExecutionInfo) : List UInt8 :=
  ascii "\x7b\n    \"title_id\": " ++ jsonString (hex32 execution.titleId) ++
    ascii ",\n    \"media_id\": " ++ jsonString (hex32 execution.mediaId) ++
    ascii ",\n    \"version\": " ++ jsonString (hex32 execution.version) ++
    ascii ",\n    \"base_version\": " ++ jsonString (hex32 execution.baseVersion) ++
    ascii ",\n    \"platform\": " ++ decimal execution.platform.toNat ++
    ascii ",\n    \"executable_table\": " ++ decimal execution.executableTable.toNat ++
    ascii ",\n    \"disc_number\": " ++ decimal execution.discNumber.toNat ++
    ascii ",\n    \"disc_count\": " ++ decimal execution.discCount.toNat ++
    ascii ",\n    \"savegame_id\": " ++ jsonString (hex32 execution.savegameId) ++ ascii "\n  \x7d"

def imageText (inspection : XexInspection) : List UInt8 :=
  ascii "\x7b\"sha256\": " ++ jsonString (sha256Hex (hashBytes inspection.loadedImage)) ++
    ascii ", \"base\": " ++ jsonString (hex32 inspection.image.identity.base) ++
    ascii ", \"size\": " ++ decimal inspection.loadedImage.length ++
    ascii ", \"entry\": " ++ jsonString (hex32 inspection.image.identity.entryPoint) ++ ascii "\x7d"

def sectionText (s : PeSection) : List UInt8 :=
  ascii "    \x7b\"name\": " ++ jsonString s.name ++
    ascii ", \"base\": " ++ jsonString (hex32 s.base) ++
    ascii ", \"size\": " ++ decimal s.size.toNat ++
    ascii ", \"code\": " ++ (if s.code then ascii "true" else ascii "false") ++ ascii "\x7d"

/-- The text of a kind. -/
def kindText (kind : ImportKind) : StringView :=
  if kind = .function then ascii "function" else ascii "variable"

def importText (imported : XexImport) : List UInt8 :=
  ascii "    \x7b\"kind\": " ++ jsonString (kindText imported.kind) ++
    ascii ", \"library\": " ++ jsonString imported.library ++
    ascii ", \"ordinal\": " ++ decimal imported.ordinal.toNat ++
    ascii ", \"name\": " ++ jsonString imported.name ++
    ascii ", \"address\": " ++ jsonString (hex32 imported.address) ++
    ascii ", \"record_address\": " ++ jsonString (hex32 imported.recordAddress) ++ ascii "\x7d"

def helperNames : Vector String 8 :=
  #v["restgprlr_14", "savegprlr_14", "restfpr_14", "savefpr_14", "restvmx_14", "savevmx_14",
    "restvmx_64", "savevmx_64"]

def helperText (helpers : XexHelpers) (index : Fin 8) : List UInt8 :=
  ascii "    " ++ jsonString (ascii (helperNames.get index)) ++ ascii ": " ++
    (ascii "[" ++ writeAddresses (helpers.get index) ++ ascii "]")

def sectionsText (sections : List PeSection) : List UInt8 :=
  ascii "[\n" ++ writeRows sectionText sections ++ ascii "  ]"

def importsText (imports : List XexImport) : List UInt8 :=
  ascii "[\n" ++ writeRows importText imports ++ ascii "  ]"

def helpersText (helpers : XexHelpers) : List UInt8 :=
  ascii "\x7b\n" ++ writeRows (helperText helpers) (List.finRange 8) ++ ascii "  \x7d"

/-- The document up to its last line end. -/
def inspectionText (xex : List UInt8) (inspection : XexInspection) : List UInt8 :=
  ascii "\x7b\n  \"schema\": " ++ ascii "1" ++
    ascii ",\n  \"format\": " ++ ascii "\"XEX2\"" ++
    ascii ",\n  \"xex\": " ++ fileText xex ++
    ascii ",\n  \"execution\": " ++ executionText inspection.execution ++
    ascii ",\n  \"image\": " ++ imageText inspection ++
    ascii ",\n  \"sections\": " ++ sectionsText inspection.image.sections ++
    ascii ",\n  \"imports\": " ++ importsText inspection.imports ++
    ascii ",\n  \"helpers\": " ++ helpersText inspection.helpers ++ ascii "\n\x7d"

def document (xex : List UInt8) (inspection : XexInspection) : List UInt8 :=
  inspectionText xex inspection ++ ascii "\n"

end X360Port
