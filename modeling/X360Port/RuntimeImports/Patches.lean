import X360Port.Library.Memory
import X360Port.RuntimeImports.Tables

/-!
# What attaching writes

A successful `attach` writes the words of every export, in table order, and
nothing else: `attach_frame` bounds the writes for every behaviour of Xenia,
`attach_attached` gives the exact memory when the resolver and the
declarations succeed.
-/

namespace X360Port

open Library

/-- The words of an import thunk, in address order. -/
def thunkWords : List UInt32 := [0x44000042, 0x4E800020, 0x60000000, 0x60000000]

/-- The writes of a thunk. -/
def thunkPatches (a : Nat) : List (Patch UInt8) :=
  [wordPatch a 0x44000042, wordPatch (a + 4) 0x4E800020, wordPatch (a + 8) 0x60000000,
   wordPatch (a + 12) 0x60000000]

/-- The writes of an export whose variable word is `value`. -/
def exportPatches (owned : OwnedExport) (value : UInt32) : List (Patch UInt8) :=
  match owned.kind with
  | .function => thunkPatches owned.address.toNat
  | ImportKind.variable => [wordPatch owned.recordAddress.toNat value]

/-- The bytes an export owns: its thunk or its record. -/
def OwnedExport.Owns (owned : OwnedExport) (x : Nat) : Prop :=
  match owned.kind with
  | .function => owned.address.toNat ≤ x ∧ x < owned.address.toNat + 16
  | ImportKind.variable => owned.recordAddress.toNat ≤ x ∧ x < owned.recordAddress.toNat + 4

def functionAddresses (exports : List OwnedExport) : List GuestAddress :=
  (exports.filter fun owned => owned.kind = .function).map (·.address)

/-- Once a table is registered, its exports are found by library and ordinal. -/
def ResolverFinds (xenia : XeniaSymbols) (tables : List OwnedTable) : Prop :=
  ∀ (index : Nat) table, tables[index]? = some table → ∀ (ordinal : UInt16) (owned : Nat),
    table.exportsByOrdinal[ordinal.toNat]? = some (some owned) →
      xenia.exportFor (tables.take (index + 1)) table.library ordinal = some ⟨index, owned⟩

/-- An address is declared as a new guest function unless it was declared before. -/
def DeclareSucceeds (xenia : XeniaSymbols) : Prop :=
  ∀ declared address, address ∉ declared →
    xenia.declareFunction declared address = .declared true (some true)

theorem storeThunk_eq (m : Memory UInt8) (a : Nat) :
    RuntimeImports.storeThunk m a = writeAll (thunkPatches a) m := rfl

theorem mem_thunkPatches_covers {a x : Nat} {p : Patch UInt8} (hp : p ∈ thunkPatches a)
    (hx : p.Covers x) : a ≤ x ∧ x < a + 16 := by
  simp only [thunkPatches, List.mem_cons, List.not_mem_nil, or_false] at hp
  rcases hp with rfl | rfl | rfl | rfl <;> rw [wordPatch_covers_iff] at hx <;> omega

theorem exportPatches_covers {owned : OwnedExport} {value : UInt32} {p : Patch UInt8} {x : Nat}
    (hp : p ∈ exportPatches owned value) (hx : p.Covers x) : owned.Owns x := by
  unfold exportPatches at hp
  unfold OwnedExport.Owns
  cases hk : owned.kind with
  | function => rw [hk] at hp; exact mem_thunkPatches_covers hp hx
  | «variable» =>
    rw [hk, List.mem_singleton] at hp
    rw [hp, wordPatch_covers_iff] at hx
    exact hx

section Attach

variable {xenia : XeniaSymbols} {library : StringView} {table : Nat}

/-! ## The frame -/

/-- Outside the bytes the exports own, `s'` has the memory of `s`. -/
def Framed (exports : List OwnedExport) (s s' : Attachment) : Prop :=
  ∀ x, (∀ owned ∈ exports, ¬ owned.Owns x) → s'.memory x = s.memory x

theorem attachExport_memory (s : Attachment) (turn : OwnedExport × Nat) :
    (RuntimeImports.attachExport xenia library table s turn).1.memory = s.memory ∨
      ∃ value, (RuntimeImports.attachExport xenia library table s turn).1.memory =
        writeAll (exportPatches turn.1 value) s.memory := by
  obtain ⟨owned, index⟩ := turn
  unfold RuntimeImports.attachExport exportPatches
  cases hk : owned.kind with
  | function =>
    simp only [hk, RuntimeImports.setFunctionMapping_declared,
      RuntimeImports.setFunctionMapping_memory, storeThunk_eq]
    rcases xenia.declareFunction s.declared owned.address with ⟨_ | _, _ | _ | _⟩ | _
    · exact .inl rfl
    · exact .inl rfl
    · exact .inl rfl
    · exact .inl rfl
    · exact .inl rfl
    · exact .inr ⟨0, rfl⟩
    · exact .inl rfl
  | «variable» =>
    simp only [hk]
    exact .inr ⟨_, rfl⟩

theorem attachExport_framed {exports : List OwnedExport} {s s0 : Attachment}
    {turn : OwnedExport × Nat} (hm : turn.1 ∈ exports) (h : Framed exports s0 s) :
    Framed exports s0 (RuntimeImports.attachExport xenia library table s turn).1 := by
  intro x hx
  rcases attachExport_memory s turn with he | ⟨value, he⟩
  · rw [he]; exact h x hx
  · rw [he, writeAll_frame fun p hp hc => hx turn.1 hm (exportPatches_covers hp hc)]
    exact h x hx

/-- Attaching writes no byte that no export owns, however it ends. -/
theorem attach_frame (imports : RuntimeImports) (xenia : XeniaSymbols) (s : Attachment) :
    Framed (imports.tables.flatMap (·.ownedExports)) s (imports.attach xenia s).1 := by
  have houter := forEach_ended (RuntimeImports.attachTable xenia) imports.tables.zipIdx s
    (fun _ s' => Framed (imports.tables.flatMap (·.ownedExports)) s s')
    (fun s' _ => Framed (imports.tables.flatMap (·.ownedExports)) s s') (fun _ _ => rfl)
    fun done turn rest s1 hx h1 => by
      obtain ⟨hi, rfl⟩ := turn_of_zipIdx hx
      refine forEach_ended _ _ _ (fun _ s' => Framed _ s s') _ h1
        fun done' turn rest' s2 hx' h2 => ?_
      refine Ended.of_state (attachExport_framed ?_ h2)
      obtain ⟨hi', rfl⟩ := turn_of_zipIdx hx'
      exact List.mem_flatMap.2 ⟨_, List.getElem_mem hi, List.getElem_mem hi'⟩
  unfold RuntimeImports.attach
  rcases hrun : forEach (RuntimeImports.attachTable xenia) imports.tables.zipIdx s with
    ⟨s', _ | exit⟩ <;> rw [hrun] at houter <;> exact houter

/-! ## Success -/

/-- `s'` is `s` with the exports attached. -/
structure Attached (exports : List OwnedExport) (s s' : Attachment) : Prop where
  declared : s'.declared = s.declared ++ functionAddresses exports
  memory : s'.memory =
    writeAll (exports.flatMap fun owned => exportPatches owned owned.resolvedVariable) s.memory

theorem Attached.refl (s : Attachment) : Attached [] s s :=
  ⟨(List.append_nil _).symm, rfl⟩

theorem functionAddresses_append (exports more : List OwnedExport) :
    functionAddresses (exports ++ more) = functionAddresses exports ++ functionAddresses more := by
  simp only [functionAddresses, List.filter_append, List.map_append]

theorem Attached.trans {exports more : List OwnedExport} {s s' s'' : Attachment}
    (h : Attached exports s s') (h' : Attached more s' s'') : Attached (exports ++ more) s s'' where
  declared := by
    rw [h'.declared, h.declared, functionAddresses_append, List.append_assoc]
  memory := by
    rw [h'.memory, h.memory, List.flatMap_append, writeAll_append]

/-- One export is attached when the resolver finds it and its address is new. -/
theorem attachExport_attached (library : StringView) (table : Nat) (hd : DeclareSucceeds xenia)
    {s : Attachment} {owned : OwnedExport} {index : Nat}
    (hfound : xenia.exportFor s.registered library owned.ordinal = some ⟨table, index⟩)
    (hnew : owned.kind = .function → owned.address ∉ s.declared) :
    ∃ s', RuntimeImports.attachExport xenia library table s (owned, index) = (s', none) ∧
      s'.registered = s.registered ∧ Attached [owned] s s' := by
  unfold RuntimeImports.attachExport
  cases hk : owned.kind with
  | function =>
    simp only [hk, RuntimeImports.setFunctionMapping_declared, hd _ _ (hnew hk)]
    refine ⟨_, rfl, rfl, ?_, ?_⟩
    · simp [functionAddresses, hk]
    · simp [exportPatches, hk, storeThunk_eq]
  | «variable» =>
    simp only [hk]
    refine ⟨_, rfl, rfl, ?_, ?_⟩
    · simp [functionAddresses, hk]
    · simp only [RuntimeImports.setVariableMapping, hfound, if_true, exportPatches, hk,
        List.flatMap_cons, List.flatMap_nil, List.append_nil]
      rfl

/-- One table is attached. -/
theorem attachTable_attached (table : Nat) (t : OwnedTable) (hd : DeclareSucceeds xenia)
    {s : Attachment}
    (hfound : ∀ (index : Nat) owned, t.ownedExports[index]? = some owned →
      xenia.exportFor (s.registered ++ [t]) t.library owned.ordinal = some ⟨table, index⟩)
    (hnew : (s.declared ++ functionAddresses t.ownedExports).Nodup) :
    ∃ s', RuntimeImports.attachTable xenia s (t, table) = (s', none) ∧
      s'.registered = s.registered ++ [t] ∧ Attached t.ownedExports s s' := by
  have hloop := forEach_ended (RuntimeImports.attachExport xenia t.library table)
    t.ownedExports.zipIdx { s with registered := s.registered ++ [t] }
    (fun done s' => s'.registered = s.registered ++ [t] ∧ Attached (done.map (·.1)) s s')
    (fun _ _ => False) ⟨rfl, (List.append_nil _).symm, rfl⟩
    fun done turn rest s1 hx ⟨hreg, hatt⟩ => by
      obtain ⟨hi, rfl⟩ := turn_of_zipIdx hx
      have hexports : t.ownedExports = done.map (·.1) ++ t.ownedExports[done.length] ::
          rest.map (·.1) := by
        conv_lhs => rw [← List.zipIdx_map_fst 0 t.ownedExports, hx, List.map_append, List.map_cons]
      obtain ⟨s2, hturn, hreg2, hatt2⟩ := attachExport_attached t.library table hd
        (hreg ▸ hfound _ _ (List.getElem?_eq_getElem hi)) fun hk => by
          rw [hatt.declared]
          rw [hexports, functionAddresses_append, ← List.append_assoc] at hnew
          refine fun hm => (List.nodup_append.1 hnew).2.2 _ hm _ ?_ rfl
          simp [functionAddresses, hk]
      rw [hturn]
      refine ⟨hreg2.trans hreg, ?_⟩
      rw [List.map_append]
      exact hatt.trans hatt2
  unfold RuntimeImports.attachTable
  rcases hrun : forEach (RuntimeImports.attachExport xenia t.library table) t.ownedExports.zipIdx
    { s with registered := s.registered ++ [t] } with ⟨s', _ | exit⟩
  · rw [hrun] at hloop
    obtain ⟨hreg, hatt⟩ := hloop
    rw [List.zipIdx_map_fst] at hatt
    exact ⟨s', rfl, hreg, hatt⟩
  · rw [hrun] at hloop
    exact hloop.elim

end Attach

/-- **Attaching succeeds** for tables whose exports the resolver finds and whose
thunks have distinct addresses, and writes the words of every export in order. -/
theorem attach_attached (imports : RuntimeImports) {xenia : XeniaSymbols} (memory : Memory UInt8)
    (hslots : ∀ t ∈ imports.tables, ∀ (index : Nat) owned, t.ownedExports[index]? = some owned →
      t.exportsByOrdinal[owned.ordinal.toNat]? = some (some index))
    (hnodup : (functionAddresses (imports.tables.flatMap (·.ownedExports))).Nodup)
    (hr : ResolverFinds xenia imports.tables) (hd : DeclareSucceeds xenia) :
    ∃ s', imports.attach xenia { memory := memory } = (s', .returned {}) ∧
      s'.memory = writeAll (imports.tables.flatMap (·.ownedExports) |>.flatMap
        fun owned => exportPatches owned owned.resolvedVariable) memory := by
  have hloop := forEach_ended (RuntimeImports.attachTable xenia) imports.tables.zipIdx
    { memory := memory }
    (fun done s' => s'.registered = done.map (·.1) ∧
      Attached ((done.map (·.1)).flatMap (·.ownedExports)) { memory := memory } s')
    (fun _ _ => False) ⟨rfl, Attached.refl _⟩
    fun done turn rest s1 hx ⟨hreg, hatt⟩ => by
      obtain ⟨hi, rfl⟩ := turn_of_zipIdx hx
      have htables : imports.tables = done.map (·.1) ++ imports.tables[done.length] ::
          rest.map (·.1) := by
        conv_lhs => rw [← List.zipIdx_map_fst 0 imports.tables, hx, List.map_append, List.map_cons]
      have htake : imports.tables.take (done.length + 1) =
          done.map (·.1) ++ [imports.tables[done.length]] := by
        conv_lhs => rw [htables]
        rw [List.take_append, List.length_map, List.take_of_length_le (by simp)]
        simp
      obtain ⟨s2, hturn, hreg2, hatt2⟩ := attachTable_attached done.length
        imports.tables[done.length] hd (fun index owned ho => by
          rw [hreg, ← htake]
          exact hr _ _ (List.getElem?_eq_getElem hi) _ _
            (hslots _ (List.getElem_mem hi) _ _ ho)) <| by
          rw [hatt.declared, List.nil_append, ← functionAddresses_append]
          rw [htables, List.flatMap_append, List.flatMap_cons, ← List.append_assoc,
            functionAddresses_append] at hnodup
          exact (List.nodup_append.1 hnodup).1
      rw [hturn]
      refine ⟨by rw [hreg2, hreg, List.map_append]; rfl, ?_⟩
      rw [List.map_append, List.flatMap_append]
      simpa using hatt.trans hatt2
  unfold RuntimeImports.attach
  rcases hrun : forEach (RuntimeImports.attachTable xenia) imports.tables.zipIdx
    { memory := memory } with ⟨s', _ | exit⟩
  · rw [hrun] at hloop
    obtain ⟨-, hatt⟩ := hloop
    rw [List.zipIdx_map_fst] at hatt
    exact ⟨s', rfl, hatt.memory⟩
  · rw [hrun] at hloop
    exact hloop.elim

end X360Port
