import X360Port.Digest.Blocks
import X360Port.Library.Readers
import X360Port.Validation.WellFormed

/-!
# The manifest digest

`manifestStream` is the byte string that `hashImportManifest` hashes: six
fields for each import, every string behind its length. There is no count of
the imports and nothing between them, and still `decodeManifest` reads the
manifest back. So two manifests can share a digest only where SHA-256 has two
messages with one digest.
-/

namespace X360Port

open Library

/-! ## The stream -/

def stringBytes (value : StringView) : List UInt8 :=
  guestWordBytes (.ofNat value.length) ++ value

def importBytes (imp : ImportRequirement) : List UInt8 :=
  guestWordBytes imp.kind.code ++ (stringBytes imp.library ++ (guestWordBytes imp.ordinal ++
    (stringBytes imp.name ++ (guestWordBytes imp.address ++ guestWordBytes imp.recordAddress))))

def manifestStream (imports : List ImportRequirement) : List UInt8 := imports.flatMap importBytes

section

open Sha256Stream

variable {message : List UInt8} {s : Sha256Stream}

theorem updateU32_fed (h : Fed message s) (value : UInt32) :
    Fed (message ++ guestWordBytes value) (s.updateU32 value) := update_fed h _

theorem updateString_fed (h : Fed message s) (value : StringView) :
    Fed (message ++ stringBytes value) (s.updateString value) := by
  have hboth := update_fed (updateU32_fed h (.ofNat value.length)) value
  rw [List.append_assoc] at hboth
  exact hboth

/-- One import is fed as its bytes. -/
theorem import_fed (h : Fed message s) (imp : ImportRequirement) :
    Fed (message ++ importBytes imp) ((((((s.updateU32 imp.kind.code).updateString
      imp.library).updateU32 imp.ordinal).updateString imp.name).updateU32 imp.address).updateU32
      imp.recordAddress) := by
  have hall := updateU32_fed (updateU32_fed (updateString_fed (updateU32_fed (updateString_fed
    (updateU32_fed h imp.kind.code) imp.library) imp.ordinal) imp.name) imp.address)
    imp.recordAddress
  simp only [List.append_assoc] at hall
  exact hall

/-- The imports are fed one after another. -/
theorem imports_fed (imports : List ImportRequirement) (h : Fed message s) :
    Fed (message ++ manifestStream imports) (imports.foldl (fun stream imp =>
      ((((((stream.updateU32 imp.kind.code).updateString imp.library).updateU32
        imp.ordinal).updateString imp.name).updateU32 imp.address).updateU32
        imp.recordAddress)) s) := by
  induction imports generalizing message s with
  | nil =>
    rw [manifestStream, List.flatMap_nil, List.append_nil]
    exact h
  | cons imp imports ih =>
    have hrest := ih (import_fed h imp)
    rw [List.append_assoc] at hrest
    rw [manifestStream, List.flatMap_cons, List.foldl_cons]
    exact hrest

theorem toList_hashImportManifest (imports : List ImportRequirement) :
    (hashImportManifest imports).toList = Sha256.digest (manifestStream imports) := by
  have hall := imports_fed imports fed_empty
  rw [List.nil_append] at hall
  rw [hashImportManifest, finish_eq_digest hall]

end

/-! ## Reading it back -/

def readWord : Reader UInt8 UInt32
  | b0 :: b1 :: b2 :: b3 :: rest => some (loadGuestWord b0 b1 b2 b3, rest)
  | _ => none

def readString : Reader UInt8 StringView := do
  let length ← readWord
  takeCells length.toNat

def readKind : Reader UInt8 ImportKind := do
  let code ← readWord
  if code = 0 then return .function
  else if code = 1 then return ImportKind.variable
  else failure

def readImport : Reader UInt8 ImportRequirement := do
  let kind ← readKind
  let library ← readString
  let ordinal ← readWord
  let name ← readString
  let address ← readWord
  let recordAddress ← readWord
  return { kind, library, ordinal, name, address, recordAddress }

/-- The manifest of a stream. -/
def decodeManifest (stream : List UInt8) : Option (List ImportRequirement) :=
  readAll readImport stream

theorem reads_word (value : UInt32) : Reads readWord (guestWordBytes value) value := by
  intro rest
  show some (loadGuestWord _ _ _ _, rest) = _
  rw [(loadGuestWord_eq_iff _ _ _ _ value).2 rfl]

theorem reads_string {value : StringView} (h : value.length < 2 ^ 32) :
    Reads readString (stringBytes value) value := by
  refine reads_bind (reads_word _) ?_
  rw [UInt32.toNat_ofNat_of_lt' h]
  exact reads_takeCells value

theorem reads_kind (kind : ImportKind) : Reads readKind (guestWordBytes kind.code) kind := by
  have hbind : Reads readKind (guestWordBytes kind.code ++ []) kind := by
    refine reads_bind (reads_word _) ?_
    cases kind with
    | function => exact reads_pure _
    | «variable» => exact reads_pure _
  rwa [List.append_nil] at hbind

theorem reads_import {imp : ImportRequirement} (hlibrary : imp.library.length < 2 ^ 32)
    (hname : imp.name.length < 2 ^ 32) : Reads readImport (importBytes imp) imp := by
  refine reads_bind (reads_kind imp.kind) ?_
  refine reads_bind (reads_string hlibrary) (reads_bind (reads_word imp.ordinal) ?_)
  refine reads_bind (reads_string hname) (reads_bind (reads_word imp.address) ?_)
  exact reads_map (reads_word imp.recordAddress)

/-- The stream of a manifest with short strings is decoded. -/
theorem decodeManifest_stream {imports : List ImportRequirement} (h : ShortStrings imports) :
    decodeManifest (manifestStream imports) = some imports := by
  refine readAll_flatMap (fun imp himp => ?_) fun imp _ => ?_
  · exact reads_import (h imp himp).1 (h imp himp).2
  · exact List.cons_ne_nil _ _

theorem manifestStream_injective {imports other : List ImportRequirement} (h : ShortStrings imports)
    (hother : ShortStrings other) (heq : manifestStream imports = manifestStream other) :
    imports = other := by
  have hdecode := decodeManifest_stream h
  rw [heq, decodeManifest_stream hother] at hdecode
  exact (Option.some.inj hdecode).symm

/-- **The manifest digest.** The stream determines the manifest and the digest is its SHA-256. So
accepted modules with different manifests have different streams, and share a digest exactly when
these two streams do. -/
theorem hashImportManifest_determines :
    (∀ imports, ShortStrings imports →
      decodeManifest (manifestStream imports) = some imports) ∧
    (∀ imports other, ShortStrings imports → ShortStrings other → imports ≠ other →
      manifestStream imports ≠ manifestStream other) ∧
    (∀ imports, (hashImportManifest imports).toList = Sha256.digest (manifestStream imports)) ∧
    ∀ module other : GuestModule, (validateModule module).Ok → (validateModule other).Ok →
      module.importManifest ≠ other.importManifest →
      manifestStream module.importManifest ≠ manifestStream other.importManifest ∧
        (module.descriptor.importManifestSha256 = other.descriptor.importManifestSha256 ↔
          Sha256.digest (manifestStream module.importManifest) =
            Sha256.digest (manifestStream other.importManifest)) := by
  refine ⟨fun _ => decodeManifest_stream, fun _ _ h hother hne heq => ?_,
    toList_hashImportManifest, fun module other hmodule hother hne => ⟨fun heq => ?_, ?_⟩⟩
  · exact hne (manifestStream_injective h hother heq)
  · exact hne (manifestStream_injective ((validateModule_accepts_iff module).1 hmodule).2
      ((validateModule_accepts_iff other).1 hother).2 heq)
  · rw [← (wellFormed_of_ok hmodule).manifest_digest, ← (wellFormed_of_ok hother).manifest_digest,
      ← toList_hashImportManifest, ← toList_hashImportManifest, Vector.toList_inj]

theorem hashImportManifest_determines_synthetic :
    decodeManifest (manifestStream syntheticImports) = some syntheticImports ∧
      manifestStream syntheticImports ≠ manifestStream [] ∧
      (hashImportManifest syntheticImports = hashImportManifest [] ↔
        Sha256.digest (manifestStream syntheticImports) = Sha256.digest (manifestStream [])) := by
  obtain ⟨hdecode, hdiffer, -, hmodules⟩ := hashImportManifest_determines
  have hempty : (validateModule (syntheticModule [])).Ok := syntheticModule_accepted (by decide)
  exact ⟨hdecode _ (by decide), hdiffer _ _ (by decide) (by decide) (by decide),
    (hmodules _ _ syntheticImports_accepted hempty (by decide)).2⟩

end X360Port
