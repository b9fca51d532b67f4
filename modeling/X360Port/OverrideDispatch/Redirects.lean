import Mathlib.Data.List.Nodup
import X360Port.Library.Machine
import X360Port.OverrideDispatch

/-!
# The two tables of overrides

The entries are the dispatch's, the redirects are Xenia's, and a redirect holds
a pointer to the map node of its entry. `Linked` says that the redirects are
those of the entries, one for each. Every call keeps it, whichever redirect
operations Xenia refuses, so in every run a host entry and a guest call at an
address reach the same entry (`play_tablesAgree`).
-/

namespace X360Port

open Library

/-- What a handler is called with. -/
structure HandlerCall where
  handler : NativeOverrideHandler
  address : GuestAddress
  arguments : List UInt64
  context : Pointer
  deriving DecidableEq, Repr

inductive DispatchCall where
  | bind
  | install (address : GuestAddress) (handler : Option NativeOverrideHandler) (context : Pointer)
      (code : CodeRange) (accepted : Bool)
  | remove (address : GuestAddress) (accepted : Bool)
  deriving DecidableEq, Repr

namespace OverrideDispatch

/-- The entry that a redirect's callback data points to. -/
def entryAt (s : OverrideDispatch) (node : Nat) : Option OverrideEntry :=
  s.entries.find? (·.node = node)

/-- `DispatchGuest`, where Xenia redirects a guest call at the address. -/
def dispatchGuest (s : OverrideDispatch) (address : GuestAddress) (arguments : List UInt64) :
    Option HandlerCall :=
  (s.redirects.lookup address).bind fun node => (s.entryAt node).map fun entry =>
    ⟨entry.handler, entry.address, arguments, entry.context⟩

/-- `Execute`, where an override answers a host entry at the address. -/
def dispatchHost (s : OverrideDispatch) (address : GuestAddress) (arguments : List UInt64) :
    Option HandlerCall :=
  (s.find address).map fun entry => ⟨entry.handler, address, arguments, entry.context⟩

def call (s : OverrideDispatch) : DispatchCall → OverrideDispatch × RuntimeFailure
  | .bind => (s.bind, {})
  | .install address handler context code accepted =>
    s.install address handler context code accepted
  | .remove address accepted => s.remove address accepted

def step (s : OverrideDispatch) (c : DispatchCall) : Option OverrideDispatch := some (s.call c).1

/-- The redirects are those of the entries, and the entries have addresses and nodes of their
own. -/
structure Linked (s : OverrideDispatch) : Prop where
  redirects : s.redirects = s.entries.map fun e => (e.address, e.node)
  addresses : (s.entries.map (·.address)).Nodup
  nodes : (s.entries.map (·.node)).Nodup
  issued : ∀ e ∈ s.entries, e.node < s.nextNode

/-- What the tables are for. -/
structure TablesAgree (s : OverrideDispatch) : Prop where
  answered : ∀ address, (s.find address).isSome ↔ ∃ node, (address, node) ∈ s.redirects
  /-- A live redirect points to the entry that `Find` returns, and no removed one. -/
  pointed : ∀ address node, (address, node) ∈ s.redirects →
    s.entryAt node = s.find address ∧ (s.entryAt node).isSome
  single : ∀ address node node', (address, node) ∈ s.redirects → (address, node') ∈ s.redirects →
    node = node'
  same : ∀ address arguments, s.dispatchGuest address arguments = s.dispatchHost address arguments
  /-- A refused call changes neither table. -/
  refused : ∀ c, ¬ (s.call c).2.Ok →
    (s.call c).1.entries = s.entries ∧ (s.call c).1.redirects = s.redirects

/-! ## One call -/

section

variable {s : OverrideDispatch}

theorem find_eq_none_iff {address : GuestAddress} :
    s.find address = none ↔ ∀ e ∈ s.entries, e.address ≠ address := by
  simp [find]

/-- An installation is refused, or it adds one entry and its redirect. -/
theorem install_cases (s : OverrideDispatch) (address : GuestAddress)
    (handler : Option NativeOverrideHandler) (context : Pointer) (code : CodeRange)
    (accepted : Bool) :
    (¬ (s.install address handler context code accepted).2.Ok ∧
      ∃ nextNode, s.nextNode ≤ nextNode ∧
        (s.install address handler context code accepted).1 = { s with nextNode := nextNode }) ∨
    (s.find address = none ∧ ∃ target,
      s.install address handler context code accepted =
        ({ s with
            nextNode := s.nextNode + 1
            entries := ⟨s.nextNode, address, target, context⟩ :: s.entries
            redirects := (address, s.nextNode) :: s.redirects }, {})) := by
  unfold install
  split
  · exact .inl ⟨RuntimeError.noConfusion, s.nextNode, Nat.le_refl _, rfl⟩
  · cases handler with
    | none => exact .inl ⟨RuntimeError.noConfusion, s.nextNode, Nat.le_refl _, rfl⟩
    | some target =>
      simp only
      split
      · exact .inl ⟨RuntimeError.noConfusion, s.nextNode, Nat.le_refl _, rfl⟩
      · split
        · exact .inl ⟨RuntimeError.noConfusion, s.nextNode, Nat.le_refl _, rfl⟩
        · next hfind =>
          split
          · exact .inl ⟨RuntimeError.noConfusion, s.nextNode + 1, Nat.le_succ _, rfl⟩
          · exact .inr ⟨by simpa using hfind, target, rfl⟩

/-- A removal is refused, or it drops the entry and the redirect of its address. -/
theorem remove_cases (s : OverrideDispatch) (address : GuestAddress) (accepted : Bool) :
    (¬ (s.remove address accepted).2.Ok ∧ (s.remove address accepted).1 = s) ∨
    s.remove address accepted =
      ({ s with
          entries := s.entries.filter (·.address ≠ address)
          redirects := s.redirects.filter (·.1 ≠ address) }, {}) := by
  unfold remove
  split
  · exact .inl ⟨RuntimeError.noConfusion, rfl⟩
  · split
    · exact .inl ⟨RuntimeError.noConfusion, rfl⟩
    · exact .inr rfl

/-- A refused call changes neither table. -/
theorem call_refused (c : DispatchCall) (h : ¬ (s.call c).2.Ok) :
    (s.call c).1.entries = s.entries ∧ (s.call c).1.redirects = s.redirects := by
  cases c with
  | bind => exact absurd RuntimeFailure.ok_empty h
  | install address handler context code accepted =>
    rcases s.install_cases address handler context code accepted with
      ⟨-, nextNode, -, hkept⟩ | ⟨-, target, hadded⟩
    · simp only [call, hkept, and_self]
    · simp only [call, hadded] at h
      exact absurd RuntimeFailure.ok_empty h
  | remove address accepted =>
    rcases s.remove_cases address accepted with ⟨-, hkept⟩ | hdropped
    · simp only [call, hkept, and_self]
    · simp only [call, hdropped] at h
      exact absurd RuntimeFailure.ok_empty h

theorem Linked.install (h : Linked s) (address : GuestAddress)
    (handler : Option NativeOverrideHandler) (context : Pointer) (code : CodeRange)
    (accepted : Bool) : Linked (s.install address handler context code accepted).1 := by
  rcases s.install_cases address handler context code accepted with
    ⟨-, nextNode, hle, hkept⟩ | ⟨hfind, target, hadded⟩
  · rw [hkept]
    exact ⟨h.redirects, h.addresses, h.nodes, fun e he => Nat.lt_of_lt_of_le (h.issued e he) hle⟩
  · rw [hadded]
    refine ⟨congrArg _ h.redirects, ?_, ?_, ?_⟩
    · refine List.nodup_cons.2 ⟨fun hmem => ?_, h.addresses⟩
      obtain ⟨e, he, haddress⟩ := List.mem_map.1 hmem
      exact find_eq_none_iff.1 hfind e he haddress
    · refine List.nodup_cons.2 ⟨fun hmem => ?_, h.nodes⟩
      obtain ⟨e, he, hnode⟩ := List.mem_map.1 hmem
      exact Nat.ne_of_lt (h.issued e he) hnode
    · intro e he
      rcases List.mem_cons.1 he with rfl | he
      · exact Nat.lt_succ_self _
      · exact Nat.lt_succ_of_lt (h.issued e he)

theorem Linked.remove (h : Linked s) (address : GuestAddress) (accepted : Bool) :
    Linked (s.remove address accepted).1 := by
  rcases s.remove_cases address accepted with ⟨-, hkept⟩ | hdropped
  · rwa [hkept]
  · rw [hdropped]
    have hsublist : (s.entries.filter (·.address ≠ address)).Sublist s.entries :=
      List.filter_sublist
    refine ⟨?_, (hsublist.map _).nodup h.addresses, (hsublist.map _).nodup h.nodes,
      fun e he => h.issued e (hsublist.subset he)⟩
    simp only [h.redirects, List.filter_map]
    rfl

theorem Linked.call (h : Linked s) (c : DispatchCall) : Linked (s.call c).1 := by
  cases c with
  | bind => exact ⟨h.redirects, h.addresses, h.nodes, h.issued⟩
  | install address handler context code accepted =>
    exact h.install address handler context code accepted
  | remove address accepted => exact h.remove address accepted

/-! ## Runs -/

theorem Linked.find_of_mem (h : Linked s) {e : OverrideEntry} (he : e ∈ s.entries) :
    s.find e.address = some e := by
  cases hfind : s.find e.address with
  | none => exact absurd rfl (find_eq_none_iff.1 hfind e he)
  | some e' =>
    have hmem := List.mem_of_find?_eq_some hfind
    have haddress : e'.address = e.address := by simpa using List.find?_some hfind
    rw [List.inj_on_of_nodup_map h.addresses hmem he haddress]

theorem Linked.entryAt_of_mem (h : Linked s) {e : OverrideEntry} (he : e ∈ s.entries) :
    s.entryAt e.node = some e := by
  cases hentry : s.entryAt e.node with
  | none =>
    rw [entryAt, List.find?_eq_none] at hentry
    simpa using hentry e he
  | some e' =>
    have hmem := List.mem_of_find?_eq_some hentry
    have hnode : e'.node = e.node := by simpa using List.find?_some hentry
    rw [List.inj_on_of_nodup_map h.nodes hmem he hnode]

/-- A redirect is an entry's. -/
theorem Linked.mem_redirects (h : Linked s) {address : GuestAddress} {node : Nat} :
    (address, node) ∈ s.redirects ↔ ∃ e ∈ s.entries, e.address = address ∧ e.node = node := by
  rw [h.redirects, List.mem_map]
  simp only [Prod.mk.injEq]

theorem Linked.dispatchGuest_eq (h : Linked s) (address : GuestAddress) (arguments : List UInt64) :
    s.dispatchGuest address arguments = s.dispatchHost address arguments := by
  rw [dispatchGuest, dispatchHost]
  cases hfind : s.find address with
  | none =>
    have hlookup : s.redirects.lookup address = none := by
      rw [List.lookup_eq_none_iff]
      rintro ⟨address', node⟩ hmem
      obtain ⟨e, he, rfl, -⟩ := h.mem_redirects.1 hmem
      simpa using (find_eq_none_iff.1 hfind e he).symm
    rw [hlookup]
    rfl
  | some e =>
    have hmem := List.mem_of_find?_eq_some hfind
    have haddress : e.address = address := by simpa using List.find?_some hfind
    cases hlookup : s.redirects.lookup address with
    | none =>
      rw [List.lookup_eq_none_iff] at hlookup
      have hredirect := hlookup _ (h.mem_redirects.2 ⟨e, hmem, haddress, rfl⟩)
      simp at hredirect
    | some node =>
      obtain ⟨before, after, hsplit, -⟩ := List.lookup_eq_some_iff.1 hlookup
      have hredirect : (address, node) ∈ s.redirects := by
        rw [hsplit]
        simp
      obtain ⟨e', he', haddress', rfl⟩ := h.mem_redirects.1 hredirect
      have hsame := h.find_of_mem he'
      rw [haddress', hfind, Option.some.injEq] at hsame
      subst hsame
      simp only [Option.bind_some, h.entryAt_of_mem hmem, Option.map_some, haddress]

theorem Linked.tablesAgree (h : Linked s) : TablesAgree s where
  answered address := by
    constructor
    · intro hfind
      obtain ⟨e, he⟩ := Option.isSome_iff_exists.1 hfind
      have haddress : e.address = address := by simpa using List.find?_some he
      exact ⟨e.node, h.mem_redirects.2 ⟨e, List.mem_of_find?_eq_some he, haddress, rfl⟩⟩
    · rintro ⟨node, hmem⟩
      obtain ⟨e, he, rfl, -⟩ := h.mem_redirects.1 hmem
      rw [h.find_of_mem he]
      rfl
  pointed address node hmem := by
    obtain ⟨e, he, rfl, rfl⟩ := h.mem_redirects.1 hmem
    rw [h.find_of_mem he, h.entryAt_of_mem he]
    exact ⟨rfl, rfl⟩
  single address node node' hmem hmem' := by
    obtain ⟨e, he, rfl, rfl⟩ := h.mem_redirects.1 hmem
    obtain ⟨e', he', haddress, rfl⟩ := h.mem_redirects.1 hmem'
    have hfind := h.find_of_mem he'
    rw [haddress, h.find_of_mem he, Option.some.injEq] at hfind
    rw [hfind]
  same := h.dispatchGuest_eq
  refused := call_refused

theorem linked_fresh (bound : Bool) : Linked { bound } where
  redirects := rfl
  addresses := .nil
  nodes := .nil
  issued _ h := nomatch h

/-- **The tables agree** after any calls, whichever operations Xenia refused. -/
theorem play_tablesAgree (bound : Bool) (calls : List DispatchCall) :
    ∃ s, play step { bound } calls = some s ∧ TablesAgree s := by
  have htotal : ∀ s c, ∃ s', step s c = some s' := fun s c => ⟨(s.call c).1, rfl⟩
  obtain ⟨s, hs⟩ := exists_play htotal { bound } calls
  refine ⟨s, hs, Linked.tablesAgree ?_⟩
  refine play_invariant (P := Linked) (fun s c s' h hstep => ?_) (linked_fresh bound) hs
  cases hstep
  exact h.call c

end

end OverrideDispatch

end X360Port
