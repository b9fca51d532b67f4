import X360Port.XexInspect.HeaderExtent
import X360Port.XexInspect.Original

/-!
# Import descriptors and their bytes

An `ImportDescriptor` is what the import section of a header says: the paths of
the libraries and a record for each library. `encode` lays it out: a head of
twelve bytes, the string table and the library records, one behind the other.

`parseImports_decodes_encoding` is the decode law: over an image that suits the
descriptor the walk succeeds and reports the imports the descriptor describes.
Conversely a header whose imports are accepted is tiled exactly by its string
table and its library records.
-/

namespace X360Port

open Library

/-! ## Half words -/

/-- The two bytes of a half word, in address order. -/
def guestHalfBytes (value : UInt16) : List UInt8 := [(value >>> 8).toUInt8, value.toUInt8]

theorem halfAt_eq_of_heldBy {bytes : List UInt8} {offset : Nat} {value : UInt16}
    (h : (Patch.mk offset (guestHalfBytes value)).HeldBy (contents bytes)) :
    halfAt bytes offset = value := by
  rw [Patch.heldBy_iff_getElem?] at h
  have h0 : contents bytes offset = (value >>> 8).toUInt8 := h 0 _ rfl
  have h1 : contents bytes (offset + 1) = value.toUInt8 := h 1 _ rfl
  have hv := value.toNat_lt
  rw [halfAt, h0, h1, ← UInt16.toNat_inj, UInt16.toNat_or, UInt16.toNat_shiftLeft,
    UInt8.toNat_toUInt16, UInt8.toNat_toUInt16, UInt16.toNat_toUInt8, UInt16.toNat_toUInt8,
    UInt16.toNat_shiftRight]
  simp only [UInt16.reduceToNat, Nat.reduceMod, Nat.shiftRight_eq_div_pow, Nat.shiftLeft_eq]
  rw [Nat.mod_eq_of_lt (show value.toNat / 2 ^ 8 % 2 ^ 8 * 2 ^ 8 < 2 ^ 16 by omega), Nat.mul_comm,
    ← Nat.two_pow_add_eq_or_of_lt (by omega)]
  omega

theorem wordAt_eq_of_heldBy {bytes : List UInt8} {offset : Nat} {value : UInt32}
    (h : (Patch.mk offset (guestWordBytes value)).HeldBy (contents bytes)) :
    wordAt bytes offset = value := heldBy_wordPatch_iff.1 h

/-! ## Descriptors -/

/-- A library record: the name it takes, its record addresses, and bytes that nothing reads. -/
structure LibraryEncoding where
  identity : Vector UInt8 32
  nameIndex : UInt16
  records : List GuestAddress
  padding : List UInt8
  records_fit : records.length < 2 ^ 16

namespace LibraryEncoding

def size (lib : LibraryEncoding) : Nat :=
  kImportLibraryMinimum + lib.records.length * 4 + lib.padding.length

def encode (lib : LibraryEncoding) : List UInt8 :=
  guestWordBytes (.ofNat lib.size) ++ (lib.identity.toList ++ (guestHalfBytes lib.nameIndex ++
    (guestHalfBytes (.ofNat lib.records.length) ++
      (lib.records.flatMap guestWordBytes ++ lib.padding))))

def toLibrary (lib : LibraryEncoding) : ImportLibrary :=
  ⟨lib.size, lib.nameIndex.toNat, lib.records⟩

end LibraryEncoding

/-- A name with its NUL, padded to a multiple of four bytes. -/
def encodeName (name : StringView) : List UInt8 :=
  name ++ [0] ++ List.replicate (alignToWord (name.length + 1) - (name.length + 1)) 0

def encodeNames (names : List StringView) : List UInt8 := names.flatMap encodeName

/-- A descriptor whose names are texts, one for each library, and that fits 32-bit sizes. -/
structure ImportDescriptor where
  names : List StringView
  libraries : List LibraryEncoding
  nonempty : names ≠ []
  texts : ∀ name ∈ names, name ≠ [] ∧ ∀ c ∈ name, c ≠ 0
  library_each : libraries.length = names.length
  named : ∀ lib ∈ libraries, lib.nameIndex.toNat < names.length
  size_fits : kImportHeaderMinimum + (encodeNames names).length +
    (libraries.map LibraryEncoding.size).sum < 2 ^ 32

namespace ImportDescriptor

def size (d : ImportDescriptor) : Nat :=
  kImportHeaderMinimum + (encodeNames d.names).length + (d.libraries.map LibraryEncoding.size).sum

def encode (d : ImportDescriptor) : List UInt8 :=
  guestWordBytes (.ofNat d.size) ++ (guestWordBytes (.ofNat (encodeNames d.names).length) ++
    (guestWordBytes (.ofNat d.names.length) ++
      (encodeNames d.names ++ d.libraries.flatMap LibraryEncoding.encode)))

/-- The library records without their bytes. -/
def importLibraries (d : ImportDescriptor) : List ImportLibrary :=
  d.libraries.map LibraryEncoding.toLibrary

/-- The names the imports are reported under. -/
def baseNames (d : ImportDescriptor) : List StringView := d.names.map baseLibraryName

/-- The imports a descriptor describes over an image. -/
def imports (d : ImportDescriptor) (bounds : ImageBounds) (m : Memory UInt8) : List XexImport :=
  originalImports bounds d.baseNames m d.importLibraries

/-- An image over which a descriptor makes sense. -/
structure SuitedBy (d : ImportDescriptor) (bounds : ImageBounds) (m : Memory UInt8) : Prop where
  valid : ∀ lib ∈ d.importLibraries, ∀ a ∈ lib.records, ValidRecord bounds a
  pairs : ∀ lib ∈ d.importLibraries, ∃ entries, Pairs (lib.records.map (rawAt bounds m)) entries
  stubs : ∀ lib ∈ d.importLibraries, ∀ e ∈ entriesOf bounds m lib, e.StubInImage bounds
  apart : (d.importLibraries.flatMap (rewritesOf bounds m)).Pairwise Patch.Apart

end ImportDescriptor

/-! ## Lengths -/

@[simp] theorem length_guestHalfBytes (value : UInt16) : (guestHalfBytes value).length = 2 := rfl

theorem length_flatMap_guestWordBytes (words : List UInt32) :
    (words.flatMap guestWordBytes).length = words.length * 4 := by
  induction words with
  | nil => rfl
  | cons word words ih =>
    rw [List.flatMap_cons, List.length_append, length_guestWordBytes, ih, List.length_cons]
    omega

theorem LibraryEncoding.length_encode (lib : LibraryEncoding) : lib.encode.length = lib.size := by
  unfold encode size
  simp only [List.length_append, length_guestWordBytes, length_guestHalfBytes,
    Vector.length_toList, length_flatMap_guestWordBytes]
  rw [show kImportLibraryMinimum = 0x28 from rfl]
  omega

theorem length_encodeName (name : StringView) :
    (encodeName name).length = alignToWord (name.length + 1) := by
  have h := le_alignToWord (name.length + 1)
  unfold encodeName
  simp only [List.length_append, List.length_singleton, List.length_replicate]
  omega

theorem length_flatMap_encode (libs : List LibraryEncoding) :
    (libs.flatMap LibraryEncoding.encode).length = (libs.map LibraryEncoding.size).sum := by
  rw [List.length_flatMap]
  exact congrArg List.sum (List.map_congr_left fun lib _ => lib.length_encode)

theorem ImportDescriptor.length_encode (d : ImportDescriptor) : d.encode.length = d.size := by
  unfold encode size
  simp only [List.length_append, length_guestWordBytes, length_flatMap_encode]
  rw [show kImportHeaderMinimum = 12 from rfl]
  omega

/-! ## Reading the bytes back -/

section

variable {header : List UInt8}

/-- Words that are held one after another are read one after another. -/
theorem map_wordAt_of_heldBy (words : List UInt32) (base start : Nat)
    (h : (Patch.mk (base + start * 4) (words.flatMap guestWordBytes)).HeldBy (contents header)) :
    (List.range' start words.length).map (fun i => wordAt header (base + i * 4)) = words := by
  induction words generalizing start with
  | nil => rfl
  | cons word words ih =>
    rw [List.flatMap_cons, Patch.heldBy_append_iff, length_guestWordBytes,
      show base + start * 4 + 4 = base + (start + 1) * 4 by omega] at h
    rw [List.length_cons, List.range'_succ, List.map_cons, wordAt_eq_of_heldBy h.1, ih _ h.2]

theorem toNat_ofNat_half {n : Nat} (h : n < 2 ^ 16) : (UInt16.ofNat n).toNat = n :=
  UInt16.toNat_ofNat_of_lt' h

theorem toNat_ofNat_word {n : Nat} (h : n < 2 ^ 32) : (UInt32.ofNat n).toNat = n :=
  UInt32.toNat_ofNat_of_lt' h

theorem libraryAt_of_heldBy {lib : LibraryEncoding} {cursor : Nat} (hsize : lib.size < 2 ^ 32)
    (h : (Patch.mk cursor lib.encode).HeldBy (contents header)) :
    libraryAt header cursor = lib.toLibrary := by
  unfold LibraryEncoding.encode at h
  simp only [Patch.heldBy_append_iff, length_guestWordBytes, length_guestHalfBytes,
    Vector.length_toList, Nat.add_assoc, Nat.reduceAdd] at h
  obtain ⟨hword, -, hname, hcount, hrecords, -⟩ := h
  have hcount := halfAt_eq_of_heldBy hcount
  have hlen := toNat_ofNat_half lib.records_fit
  have hmap := map_wordAt_of_heldBy lib.records (cursor + 40) 0
    (by rw [Nat.zero_mul, Nat.add_zero]; exact hrecords)
  unfold libraryAt LibraryEncoding.toLibrary
  rw [wordAt_eq_of_heldBy hword, halfAt_eq_of_heldBy hname, hcount, toNat_ofNat_word hsize, hlen]
  exact congrArg (ImportLibrary.mk _ _) hmap

theorem librariesFrom_of_heldBy {libs : List LibraryEncoding} {cursor : Nat}
    (hsize : ∀ lib ∈ libs, lib.size < 2 ^ 32)
    (h : (Patch.mk cursor (libs.flatMap LibraryEncoding.encode)).HeldBy (contents header)) :
    librariesFrom header libs.length cursor = libs.map LibraryEncoding.toLibrary := by
  induction libs generalizing cursor with
  | nil => rfl
  | cons lib libs ih =>
    rw [List.forall_mem_cons] at hsize
    rw [List.flatMap_cons, Patch.heldBy_append_iff, LibraryEncoding.length_encode] at h
    rw [List.length_cons, librariesFrom, libraryAt_of_heldBy hsize.1 h.1, List.map_cons]
    exact congrArg (lib.toLibrary :: ·) (ih hsize.2 h.2)

theorem namesAt_of_heldBy {names : List StringView} {cursor limit : Nat}
    (htexts : ∀ name ∈ names, name ≠ [] ∧ ∀ c ∈ name, c ≠ 0)
    (h : (Patch.mk cursor (encodeNames names)).HeldBy (contents header))
    (hlimit : cursor + (encodeNames names).length ≤ limit) :
    NamesAt header limit cursor names := by
  induction names generalizing cursor with
  | nil => exact trivial
  | cons name names ih =>
    unfold encodeNames at h hlimit
    rw [List.forall_mem_cons] at htexts
    rw [List.flatMap_cons, Patch.heldBy_append_iff, length_encodeName] at h
    rw [List.flatMap_cons, List.length_append, length_encodeName] at hlimit
    have hname := h.1
    unfold encodeName at hname
    refine ⟨htexts.1.1, htexts.1.2, (Patch.heldBy_append_iff.1 hname).1, by omega, ?_⟩
    exact ih htexts.2 h.2 (by unfold encodeNames; omega)

/-- Library records that tile the bytes up to the limit fit there. -/
theorem librariesFit_of_sum {bounds : ImageBounds} {table : ImportTable} {cursor : Nat}
    {libs : List LibraryEncoding} (hnamed : ∀ lib ∈ libs, lib.nameIndex.toNat < table.names.length)
    (hvalid : ∀ lib ∈ libs, ∀ a ∈ lib.records, ValidRecord bounds a)
    (hsum : cursor + (libs.map LibraryEncoding.size).sum = table.limit) :
    LibrariesFit bounds table cursor (libs.map LibraryEncoding.toLibrary) := by
  induction libs generalizing cursor with
  | nil => exact trivial
  | cons lib libs ih =>
    rw [List.forall_mem_cons] at hnamed hvalid
    rw [List.map_cons, List.sum_cons] at hsum
    refine ⟨⟨?_, ?_, hnamed.1, hvalid.1⟩, ih hnamed.2 hvalid.2 ?_⟩
    · show kImportLibraryMinimum + lib.records.length * 4 ≤
        kImportLibraryMinimum + lib.records.length * 4 + lib.padding.length
      omega
    · show cursor + lib.size ≤ table.limit
      omega
    · show cursor + lib.size + (libs.map LibraryEncoding.size).sum = table.limit
      omega

/-! ## The decode law -/

namespace ImportDescriptor

/-- What the walk reads of the head of a descriptor at an offset. -/
def table (d : ImportDescriptor) (offset : Nat) : ImportTable :=
  ⟨offset, d.size, offset + kImportHeaderMinimum + (encodeNames d.names).length, d.names.length,
    d.baseNames⟩

variable {d : ImportDescriptor} {before after : List UInt8} {geometry : HeaderGeometry}
  {bounds : ImageBounds} {m : Memory UInt8}

theorem heldBy_encode (d : ImportDescriptor) (before after : List UInt8) :
    (Patch.mk before.length d.encode).HeldBy (contents (before ++ (d.encode ++ after))) := by
  rw [heldBy_contents_iff (by simp only [List.length_append]; omega), List.drop_left,
    List.take_left]

theorem length_names_le (names : List StringView) : names.length ≤ (encodeNames names).length := by
  unfold encodeNames
  induction names with
  | nil => exact Nat.le_refl _
  | cons name names ih =>
    have h := le_alignToWord (name.length + 1)
    rw [List.flatMap_cons, List.length_append, length_encodeName, List.length_cons]
    omega

theorem libraryCount_fits (d : ImportDescriptor) : d.names.length < 2 ^ 32 := by
  have hsize := d.size_fits
  have hnames := length_names_le d.names
  omega

theorem library_size_fits (d : ImportDescriptor) :
    ∀ lib ∈ d.libraries, lib.size < 2 ^ 32 := by
  intro lib hlib
  have hsize := d.size_fits
  obtain ⟨before, after, hsplit⟩ := List.append_of_mem hlib
  rw [hsplit, List.map_append, List.map_cons, List.sum_append, List.sum_cons] at hsize
  omega

/-- The head, the string table and the records of an encoded descriptor. -/
theorem heldBy_parts (d : ImportDescriptor) (before after : List UInt8) :
    let header := before ++ (d.encode ++ after)
    (wordAt header before.length).toNat = d.size ∧
      (wordAt header (before.length + 4)).toNat = (encodeNames d.names).length ∧
      (wordAt header (before.length + 8)).toNat = d.names.length ∧
      (Patch.mk (before.length + kImportHeaderMinimum) (encodeNames d.names)).HeldBy
        (contents header) ∧
      (Patch.mk (before.length + kImportHeaderMinimum + (encodeNames d.names).length)
        (d.libraries.flatMap LibraryEncoding.encode)).HeldBy (contents header) := by
  have h := d.heldBy_encode before after
  generalize before ++ (d.encode ++ after) = header at h ⊢
  unfold encode at h
  simp only [Patch.heldBy_append_iff, length_guestWordBytes, Nat.add_assoc, Nat.reduceAdd] at h
  obtain ⟨hsize, hstrings, hcount, hnames, hlibraries⟩ := h
  have hfits := d.size_fits
  refine ⟨?_, ?_, ?_, hnames, ?_⟩
  · rw [wordAt_eq_of_heldBy hsize]
    exact toNat_ofNat_word hfits
  · rw [wordAt_eq_of_heldBy hstrings]
    exact toNat_ofNat_word (by omega)
  · rw [wordAt_eq_of_heldBy hcount]
    exact toNat_ofNat_word d.libraryCount_fits
  · rw [Nat.add_assoc]
    exact hlibraries

theorem tableAccepted (hfound : findOptional (before ++ (d.encode ++ after)) 0x000103FF geometry =
      .ok (some ⟨0x000103FF, .ofNat before.length, before.length, false⟩)) :
    TableAccepted (before ++ (d.encode ++ after)) geometry (d.table before.length) := by
  obtain ⟨hsize, hstrings, hcount, hnames, -⟩ := d.heldBy_parts before after
  refine ⟨⟨_, hfound, rfl, rfl⟩, hsize.symm, ?_, hcount.symm, ?_, ?_, ?_, d.names, rfl, ?_, rfl⟩
  · rw [show (d.table before.length).offset = before.length from rfl, hstrings]
    rfl
  · show before.length + d.size ≤ _
    rw [List.length_append, List.length_append, d.length_encode]
    omega
  · show before.length + kImportHeaderMinimum + (encodeNames d.names).length ≤
      before.length + d.size
    unfold size
    omega
  · exact List.length_pos_iff.2 d.nonempty
  · exact namesAt_of_heldBy d.texts hnames (Nat.le_refl _)

theorem importLibraries_eq
    (hfound : findOptional (before ++ (d.encode ++ after)) 0x000103FF geometry =
      .ok (some ⟨0x000103FF, .ofNat before.length, before.length, false⟩)) :
    X360Port.importLibraries (before ++ (d.encode ++ after)) geometry = d.importLibraries := by
  obtain ⟨-, -, -, -, hlibraries⟩ := d.heldBy_parts before after
  rw [(d.tableAccepted hfound).importLibraries_eq]
  show librariesFrom _ d.names.length _ = _
  rw [← d.library_each]
  exact librariesFrom_of_heldBy d.library_size_fits hlibraries

theorem librariesFit (h : d.SuitedBy bounds m) (offset : Nat) :
    LibrariesFit bounds (d.table offset) (d.table offset).libraryOffset d.importLibraries := by
  refine librariesFit_of_sum (fun lib hlib => ?_) (fun lib hlib => ?_) ?_
  · show lib.nameIndex.toNat < (d.names.map baseLibraryName).length
    rw [List.length_map]
    exact d.named lib hlib
  · exact h.valid _ (List.mem_map_of_mem hlib)
  · show offset + kImportHeaderMinimum + (encodeNames d.names).length + _ = offset + d.size
    unfold size
    omega

theorem SuitedBy.entries (h : d.SuitedBy bounds m) :
    ∀ lib ∈ d.importLibraries, Pairs (lib.records.map (rawAt bounds m)) (entriesOf bounds m lib) :=
  by
  intro lib hlib
  obtain ⟨entries, hpairs⟩ := h.pairs lib hlib
  rw [entriesOf_eq hpairs]
  exact hpairs

theorem SuitedBy.reads (h : d.SuitedBy bounds m) : ReadsOriginal bounds m [] d.importLibraries :=
  readsOriginal_of_apart h.entries h.apart

/-- The walk over the libraries of a descriptor exists. -/
theorem SuitedBy.normalizes (h : d.SuitedBy bounds m) : ∃ m',
    Normalizes bounds d.baseNames m d.importLibraries (d.imports bounds m) m' := by
  refine ⟨_, normalizes_original [] h.reads (fun lib hlib => ?_) h.entries h.stubs⟩
  obtain ⟨encoding, hencoding, rfl⟩ := List.mem_map.1 hlib
  show encoding.nameIndex.toNat < (d.names.map baseLibraryName).length
  rw [List.length_map]
  exact d.named encoding hencoding

/-- An encoded descriptor is decoded. -/
theorem parseImports_encode {image : List UInt8} {base : GuestAddress}
    (hheader : (before ++ (d.encode ++ after)).length = geometry.size)
    (hfound : findOptional (before ++ (d.encode ++ after)) 0x000103FF geometry =
      .ok (some ⟨0x000103FF, .ofNat before.length, before.length, false⟩))
    (hsuited : d.SuitedBy ⟨base, image.length⟩ (contents image)) :
    ∃ s, parseImports (before ++ (d.encode ++ after)) image ⟨geometry, ⟨base, image.length⟩⟩ =
        (s, none) ∧ s.imports = d.imports ⟨base, image.length⟩ (contents image) := by
  have haccepted := d.tableAccepted hfound
  have hended := parseImports_ended ⟨geometry, ⟨base, image.length⟩⟩ hheader rfl
  dsimp only at hended
  rw [d.importLibraries_eq hfound] at hended
  rcases hparse : parseImports (before ++ (d.encode ++ after)) image
    ⟨geometry, ⟨base, image.length⟩⟩ with ⟨s, _ | stop⟩
  · obtain ⟨table, htable, hnormal, -⟩ := hended.of_done hparse
    refine ⟨s, rfl, ?_⟩
    -- the head is read in one way only
    have hsame := (parseImportTable_eq hheader htable).symm.trans
      (parseImportTable_eq hheader haccepted)
    cases Except.ok.inj hsame
    obtain ⟨imports, himports, hrun⟩ := hnormal.run
    rw [himports, List.nil_append]
    exact (Normalizes.original [] hrun hsuited.reads).2.1
  · obtain ⟨m', hrun⟩ := hsuited.normalizes
    refine ((hended.of_exit hparse).2.1 _ haccepted (d.librariesFit hsuited _) ?_ _ m' hrun).elim
    show before.length + kImportHeaderMinimum + (encodeNames d.names).length +
      ((d.libraries.map LibraryEncoding.toLibrary).map ImportLibrary.size).sum =
        before.length + d.size
    rw [List.map_map, show ImportLibrary.size ∘ LibraryEncoding.toLibrary = LibraryEncoding.size
      from rfl]
    unfold size
    omega

end ImportDescriptor

/-! ## Accepted descriptors -/

/-- Library records from a cursor on, each around its own addresses, that end at the limit. -/
def LibrariesTile (header : List UInt8) (limit : Nat) : Nat → List ImportLibrary → Prop
  | cursor, [] => cursor = limit
  | cursor, lib :: libs =>
    lib = libraryAt header cursor ∧ kImportLibraryMinimum + lib.records.length * 4 ≤ lib.size ∧
      LibrariesTile header limit (cursor + lib.size) libs

/-- The head at an offset is followed by its string table, and that by the library records. -/
structure DescriptorTiled (header : List UInt8) (offset : Nat) : Prop where
  in_header : offset + (wordAt header offset).toNat ≤ header.length
  strings : ∃ names, names.length = (wordAt header (offset + 8)).toNat ∧
    NamesAt header (offset + kImportHeaderMinimum + (wordAt header (offset + 4)).toNat)
      (offset + kImportHeaderMinimum) names
  libraries : ∃ libs, libs.length = (wordAt header (offset + 8)).toNat ∧
    LibrariesTile header (offset + (wordAt header offset).toNat)
      (offset + kImportHeaderMinimum + (wordAt header (offset + 4)).toNat) libs

theorem length_librariesFrom (header : List UInt8) (count cursor : Nat) :
    (librariesFrom header count cursor).length = count := by
  induction count generalizing cursor with
  | zero => rfl
  | succ count ih => rw [librariesFrom, List.length_cons, ih]

theorem librariesTile_of_fit {bounds : ImageBounds} {table : ImportTable} {header : List UInt8}
    {count cursor : Nat} (hfit : LibrariesFit bounds table cursor
      (librariesFrom header count cursor))
    (hsum : cursor + ((librariesFrom header count cursor).map ImportLibrary.size).sum =
      table.limit) :
    LibrariesTile header table.limit cursor (librariesFrom header count cursor) := by
  induction count generalizing cursor with
  | zero => exact hsum
  | succ count ih =>
    rw [librariesFrom] at hfit hsum ⊢
    rw [List.map_cons, List.sum_cons, ← Nat.add_assoc] at hsum
    exact ⟨rfl, hfit.1.records_inside, ih hfit.2 hsum⟩

/-- An accepted descriptor is tiled. -/
theorem parseImports_tiled {header image : List UInt8} {geometry : HeaderGeometry}
    {base : GuestAddress} {s : ImportParse} (hheader : header.length = geometry.size)
    (hparse : parseImports header image ⟨geometry, ⟨base, image.length⟩⟩ = (s, none)) :
    ∃ o, findOptional header 0x000103FF geometry = .ok (some o) ∧
      DescriptorTiled header o.offset := by
  have hended := parseImports_ended ⟨geometry, ⟨base, image.length⟩⟩ hheader rfl
  obtain ⟨table, haccepted, hnormal, hcursor⟩ := hended.of_done hparse
  obtain ⟨o, hfound, -, hoffset⟩ := haccepted.found
  obtain ⟨names, hcount, hnames, -⟩ := haccepted.names
  have hlimit : table.limit = o.offset + (wordAt header o.offset).toNat := by
    unfold ImportTable.limit
    rw [haccepted.size_word, hoffset]
  have hfit := hnormal.fit
  have hsum := hnormal.cursor.symm.trans hcursor
  dsimp only at hfit hsum
  rw [haccepted.importLibraries_eq] at hfit hsum
  have htile := librariesTile_of_fit hfit hsum
  rw [haccepted.library_offset, hoffset] at hnames
  rw [haccepted.count_word, hoffset] at hcount
  refine ⟨o, hfound, hlimit ▸ haccepted.limit_in_header, ⟨names, hcount, hnames⟩, _, ?_,
    hlimit ▸ haccepted.library_offset.trans (by rw [hoffset]) ▸ htile⟩
  rw [length_librariesFrom, haccepted.count_word, hoffset]

/-- **Descriptors and bytes.** An encoded descriptor is decoded to the imports it describes, and
an accepted one is tiled exactly by its string table and its library records. -/
theorem parseImports_decodes_encoding :
    (∀ (d : ImportDescriptor) (before after image : List UInt8) (geometry : HeaderGeometry)
      (base : GuestAddress), (before ++ (d.encode ++ after)).length = geometry.size →
      findOptional (before ++ (d.encode ++ after)) 0x000103FF geometry =
        .ok (some ⟨0x000103FF, .ofNat before.length, before.length, false⟩) →
      d.SuitedBy ⟨base, image.length⟩ (contents image) →
      ∃ s, parseImports (before ++ (d.encode ++ after)) image ⟨geometry, ⟨base, image.length⟩⟩ =
          (s, none) ∧ s.imports = d.imports ⟨base, image.length⟩ (contents image)) ∧
    (∀ (header image : List UInt8) (geometry : HeaderGeometry) (base : GuestAddress)
      (s : ImportParse), header.length = geometry.size →
      parseImports header image ⟨geometry, ⟨base, image.length⟩⟩ = (s, none) →
      ∃ o, findOptional header 0x000103FF geometry = .ok (some o) ∧
        DescriptorTiled header o.offset) := by
  refine ⟨fun d before after image geometry base hheader hfound hsuited => ?_,
    fun header image geometry base s hheader hparse => ?_⟩
  · exact ImportDescriptor.parseImports_encode hheader hfound hsuited
  · exact parseImports_tiled hheader hparse

end

section Files

/-- The bytes before an import descriptor at 0x1c0: a header of the given size with a plain file
format and a plain security header. -/
def importFilePrefix (headerSize : UInt32) : List UInt8 :=
  [kXex2, 0, headerSize, 0, 0x3c, 2, 0x3FF, 0x28, 0x103FF, 0x1c0, 0x14, 0, 0, 0, 0].flatMap
    guestWordBytes ++ plainSecurity

/-- A file with an import descriptor at the end of its header, and a word of payload. -/
def fileWithImports (d : ImportDescriptor) : List UInt8 :=
  importFilePrefix (.ofNat (0x1c0 + d.size)) ++ (d.encode ++ [0, 0, 0, 0])

/-- A library record without identity or padding. -/
def plainLibrary (nameIndex : UInt16) (records : List GuestAddress)
    (h : records.length < 2 ^ 16) : LibraryEncoding :=
  ⟨.replicate 32 0, nameIndex, records, [], h⟩

/-- The paths `a/b` and `c`; a variable and a function of the one, a variable of the other. -/
def pairDescriptor : ImportDescriptor where
  names := [[0x61, 0x2f, 0x62], [0x63]]
  libraries := [plainLibrary 0 [0x82000000, 0x82000008, 0x82000010] (by decide),
    plainLibrary 1 [0x82000004] (by decide)]
  nonempty := by decide
  texts := by simp
  library_each := rfl
  named := by decide
  size_fits := by decide

def pairHeader : List UInt8 := importFilePrefix 0x234 ++ (pairDescriptor.encode ++ [])

def pairImage : List UInt8 :=
  [5, 9, 7, 0, 0x01000007, 0, 0, 0].flatMap guestWordBytes

def pairBounds : ImageBounds := ⟨0x82000000, pairImage.length⟩

theorem pairDescriptor_suited : pairDescriptor.SuitedBy pairBounds (contents pairImage) where
  valid := by
    have hall : (pairDescriptor.importLibraries.all fun lib => lib.records.all fun a =>
        a ≠ 0 ∧ a &&& 3 = 0 ∧ pairBounds.Holds a 4) = true := by decide +kernel
    intro lib hlib a ha
    have hrecords := List.all_eq_true.1 hall lib hlib
    exact validRecord_iff.2 (of_decide_eq_true (List.all_eq_true.1 hrecords a ha))
  pairs := by
    intro lib hlib
    have hpairs : ∀ lib ∈ pairDescriptor.importLibraries, (pairImports
        (lib.records.map (rawAt pairBounds (contents pairImage)))).isSome := by decide +kernel
    obtain ⟨entries, hentries⟩ := Option.isSome_iff_exists.1 (hpairs lib hlib)
    exact ⟨entries, pairs_of_pairImports hentries⟩
  stubs := by decide +kernel
  apart := by decide +kernel

theorem parseImports_decodes_pair : ∃ s,
    parseImports pairHeader pairImage ⟨⟨0x234, 2⟩, pairBounds⟩ = (s, none) ∧
      s.imports = pairDescriptor.imports pairBounds (contents pairImage) ∧
      ∃ o, findOptional pairHeader 0x000103FF ⟨0x234, 2⟩ = .ok (some o) ∧
        DescriptorTiled pairHeader o.offset := by
  obtain ⟨s, hparse, himports⟩ := parseImports_decodes_encoding.1 pairDescriptor
    (importFilePrefix 0x234) [] pairImage ⟨0x234, 2⟩ 0x82000000 (by decide +kernel)
    (by decide +kernel) pairDescriptor_suited
  exact ⟨s, hparse, himports,
    parseImports_decodes_encoding.2 _ _ _ _ s (by decide +kernel) hparse⟩

theorem pairFile_accepted :
    validateHeader (fileWithImports pairDescriptor) = .ok (⟨0x234, 2⟩, 0x3c) := by
  decide +kernel

end Files

end X360Port
