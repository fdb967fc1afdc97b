import LooseData.Layer.Assign
import LooseData.Proofs.Outcome
import LooseData.Proofs.Table
import Mathlib.Data.List.Basic

set_option autoImplicit false

/-! # Where contents come from

The operations on a level make no contents of their own, atoms apart. What is found in a level is
one of its contents or an atom (`Layer.Forall.access`), and so are the values of its entries
(`Layer.Forall.entries`). After a write every content is one from before, the one that was written,
or an atom (`Layer.Forall.assign`). So a property that atoms have, such as to lie in a part of a
store, passes from the contents of a level to all that is found there.
-/

namespace LooseData

variable {α β : Type}

/-! ## Tables and maps -/

theorem Table.mem_of_get? {t : Table α} {key : Key} {v : α} (h : get? t key = some v) :
    v ∈ t.map Prod.snd := by
  obtain ⟨front, k, back, rfl, -, -⟩ := exists_split_of_get? h
  simp

theorem Table.mem_of_mem_set {t : Table α} {key : Key} {v c : α}
    (h : c ∈ (set t key v).map Prod.snd) : c = v ∨ c ∈ t.map Prod.snd := by
  cases hget : get? t key with
  | none =>
      rw [set_of_get?_eq_none hget, List.map_append, List.mem_append] at h
      rcases h with h | h
      · exact .inr h
      · exact .inl (List.mem_singleton.mp h)
  | some w =>
      obtain ⟨front, k, back, rfl, hk, hfront⟩ := exists_split_of_get? hget
      rw [set_append_cons hk hfront] at h
      simp only [List.map_append, List.map_cons, List.mem_append, List.mem_cons] at h ⊢
      rcases h with h | h | h
      · exact .inr (.inl h)
      · exact .inl h
      · exact .inr (.inr (.inr h))

theorem CaselessMap.mem_of_get? {m : CaselessMap α} {label : Label} {v : α}
    (h : m.get? label = some v) : v ∈ m.entries.map Prod.snd := by
  obtain ⟨i, -, hi⟩ := Option.bind_eq_some_iff.mp h
  obtain ⟨e, he, rfl⟩ := Option.map_eq_some_iff.mp hi
  exact List.mem_map_of_mem (List.mem_of_getElem? he)

theorem CaselessMap.mem_of_mem_set {m : CaselessMap α} {label : Label} {v c : α}
    (h : c ∈ (m.set label v).entries.map Prod.snd) : c = v ∨ c ∈ m.entries.map Prod.snd := by
  obtain ⟨e, he, rfl⟩ := List.mem_map.mp h
  unfold set at he
  split at he
  · rcases List.mem_append.mp he with he | he
    · exact .inr (List.mem_map_of_mem he)
    · exact .inl (congrArg Prod.snd (List.mem_singleton.mp he))
  · rcases List.mem_or_eq_of_mem_set he with he | rfl
    · exact .inr (List.mem_map_of_mem he)
    · exact .inl rfl

theorem mem_of_mem_setAttribute {attributes : List (String × α)} {name : String} {v c : α}
    (h : c ∈ (setAttribute attributes name v).map Prod.snd) :
    c = v ∨ c ∈ attributes.map Prod.snd := by
  induction attributes with
  | nil => exact .inl (List.mem_singleton.mp h)
  | cons e rest ih =>
      obtain ⟨n, w⟩ := e
      rw [setAttribute] at h
      split at h
      · rcases List.mem_cons.mp h with h | h
        · exact .inl h
        · exact .inr (List.mem_cons_of_mem _ h)
      · rcases List.mem_cons.mp h with h | h
        · exact .inr (List.mem_cons.mpr (.inl h))
        · exact (ih h).imp_right (List.mem_cons_of_mem _)

theorem mem_of_mem_writeAt {items : List α} {i : Nat} {v filler c : α}
    (h : c ∈ writeAt items i v filler) : c = v ∨ c ∈ items ∨ c = filler := by
  unfold writeAt at h
  split at h
  · rcases List.mem_or_eq_of_mem_set h with h | h
    · exact .inr (.inl h)
    · exact .inl h
  · simp only [List.mem_append, List.mem_replicate, List.mem_singleton] at h
    rcases h with (h | ⟨-, h⟩) | h
    · exact .inr (.inl h)
    · exact .inr (.inr h)
    · exact .inl h

theorem Value.mustBeIndex_eq_ok_iff {key : Value} {i : Nat} :
    key.mustBeIndex = .ok i ↔ key.index? = .ok (some i) := by
  constructor
  · intro h
    obtain ⟨index, hindex, h⟩ := Except.bind_eq_ok_iff.mp h
    cases index with
    | none =>
        obtain ⟨_, -, h⟩ := Except.bind_eq_ok_iff.mp h
        cases h
    | some index =>
        obtain rfl := Except.ok.inj h
        exact hindex
  · intro h
    rw [mustBeIndex, h]
    rfl

/-- What stands at an index that has been written. -/
theorem getElem?_writeAt_self (items : List α) (i : Nat) (v filler : α) :
    (writeAt items i v filler)[i]? = some v := by
  unfold writeAt
  split
  · rename_i hlt
    rw [List.getElem?_set_self hlt]
  · rename_i hle
    have hlength : (items ++ List.replicate (i - items.length) filler).length = i := by
      rw [List.length_append, List.length_replicate]
      omega
    rw [List.getElem?_append_right (Nat.le_of_eq hlength), hlength, Nat.sub_self]
    rfl

theorem Node.mem_of_item? {n : Node α} {key : Key} {v : α} (h : n.item? key = some v) :
    v ∈ n.children := by
  unfold item? at h
  split at h
  · exact Table.mem_of_get? h
  · exact Table.mem_of_get? h
  · split at h
    · exact CaselessMap.mem_of_get? h
    · cases h
  · exact List.mem_append_right _ (Table.mem_of_get? h)
  · exact List.mem_append_left _ (Table.mem_of_get? h)
  · cases h

/-! ## Levels -/

namespace Layer

/-- Every content of a level has a property. -/
def Forall (P : α → Prop) : Layer α → Prop
  | .atom _ => True
  | .node n => ∀ c ∈ n.children, P c

variable {P : α → Prop}

theorem Forall.lookupEntry {n : Node α} (h : ∀ c ∈ n.children, P c) {key : Value} {v : α}
    (hv : Layer.lookupEntry n key = .ok (some v)) : P v := by
  unfold Layer.lookupEntry at hv
  split at hv
  · cases hv
  · split at hv
    · rename_i hitem
      obtain rfl := Option.some.inj (Except.ok.inj hv)
      exact h _ (Node.mem_of_item? hitem)
    · obtain ⟨number, -, hnumber⟩ := Except.map_eq_ok_iff.mp hv
      obtain ⟨i, -, hitem⟩ := Option.bind_eq_some_iff.mp hnumber
      exact h _ (Node.mem_of_item? hitem)

variable [HoldsAtoms α] {l : Layer α}

theorem Forall.sequence? (h : l.Forall P) (hatom : ∀ a, P (HoldsAtoms.ofAtom a)) {items : List α}
    (hitems : l.sequence? = some items) : ∀ c ∈ items, P c := by
  have hatoms {γ : Type} (f : γ → Atom) (cs : List γ) :
      ∀ c ∈ cs.map fun x => (HoldsAtoms.ofAtom (f x) : α), P c :=
    List.forall_mem_map.mpr fun x _ => hatom (f x)
  unfold Layer.sequence? at hitems
  split at hitems
  · obtain rfl := Option.some.inj hitems
    exact hatoms (fun c => .text (String.singleton c)) _
  · obtain rfl := Option.some.inj hitems
    exact hatoms (fun b : UInt8 => .int b.toNat) _
  · obtain rfl := Option.some.inj hitems
    exact h
  · obtain rfl := Option.some.inj hitems
    exact h
  · obtain rfl := Option.some.inj hitems
    exact hatoms (fun b : UInt8 => .int b.toNat) _
  · cases hitems

/-- **What a level holds under a key** is one of its contents or an atom. -/
theorem Forall.lookup (h : l.Forall P) (hatom : ∀ a, P (HoldsAtoms.ofAtom a)) {key : Value} {v : α}
    (hv : l.lookup key = .ok (some v)) : P v := by
  unfold Layer.lookup at hv
  split at hv
  · rename_i items hitems
    obtain ⟨i, -, hi⟩ := Except.map_eq_ok_iff.mp hv
    obtain ⟨i, -, hi⟩ := Option.bind_eq_some_iff.mp hi
    exact h.sequence? hatom hitems v (List.mem_of_getElem? hi)
  · split at hv
    · obtain ⟨a, -, rfl⟩ := Option.map_eq_some_iff.mp (Except.ok.inj hv)
      exact hatom a
    · rename_i attributes
      obtain ⟨name, -, hname⟩ := Option.bind_eq_some_iff.mp (Except.ok.inj hv)
      obtain ⟨before, after, hsplit, -⟩ := List.lookup_eq_some_iff.mp hname
      exact h v (by simp [Node.children, hsplit])
    · split at hv
      · exact Forall.lookupEntry h hv
      · cases hv

theorem Forall.access (h : l.Forall P) (hatom : ∀ a, P (HoldsAtoms.ofAtom a)) {key : Value} {v : α}
    (hv : l.access key = .ok v) : P v := by
  unfold Layer.access at hv
  dsimp only at hv
  split at hv
  · obtain rfl := Except.ok.inj hv
    exact hatom .null
  · obtain ⟨found, hfound, rfl⟩ := Except.map_eq_ok_iff.mp hv
    cases found with
    | none => exact hatom .null
    | some v => exact h.lookup hatom hfound

theorem Forall.entries (h : l.Forall P) (hatom : ∀ a, P (HoldsAtoms.ofAtom a))
    {entries : List (Value × α)} (hentries : l.entries = .ok entries) :
    ∀ e ∈ entries, P e.2 := by
  unfold Layer.entries at hentries
  generalize l.ownKeys = keys at hentries
  induction keys generalizing entries with
  | nil =>
      obtain rfl := Except.ok.inj hentries
      exact nofun
  | cons key rest ih =>
      rw [List.mapM_cons] at hentries
      obtain ⟨e, he, hrest⟩ := Except.bind_eq_ok_iff.mp hentries
      obtain ⟨es, hes, hentries⟩ := Except.bind_eq_ok_iff.mp hrest
      obtain rfl := Except.ok.inj hentries
      obtain ⟨v, hv, rfl⟩ := Except.map_eq_ok_iff.mp he
      exact List.forall_mem_cons.mpr ⟨h.access hatom hv, ih hes⟩

/-- What a write of a value under a key makes of a level. -/
inductive Assigned [Memory] (key : Value) (v : α) : Layer α → Node α → Prop where
  | dict {entries : Table α} {k : Key} (hkey : key.mustBeKey = .ok k) :
      Assigned key v (.node (.dict entries)) (.dict (Table.set entries k v))
  | world {w : World α} {k : Key} (hkey : key.mustBeKey = .ok k) :
      Assigned key v (.node (.world w)) (.world { w with state := Table.set w.state k v })
  | caseless {m : CaselessMap α} {label : Label} (hkey : key.label? = .ok label) :
      Assigned key v (.node (.caseless m)) (.caseless (m.set label v))
  | list {items : List α} {i : Nat} (hkey : key.mustBeIndex = .ok i)
      (hgap : checkGap (i - items.length) = .ok ()) :
      Assigned key v (.node (.list items))
        (.list (writeAt items i v (HoldsAtoms.ofAtom .null)))
  | buffer {bytes bytes' : List UInt8} {i : Nat} (hkey : key.mustBeIndex = .ok i)
      (hbytes : writeByte bytes i (HoldsAtoms.atom? v) = .ok bytes') :
      Assigned key v (.node (.buffer bytes)) (.buffer bytes')
  | object {attributes : List (String × α)} {name : String} (hkey : key.mustBeName = .ok name)
      (hname : fixedAttribute? name = none) :
      Assigned key v (.node (.object attributes)) (.object (setAttribute attributes name v))

/-- An atom cannot be written to. -/
theorem assign_atom_ne_ok [Memory] (a : Atom) (key : Value) (v : α) (n : Node α) :
    ((Layer.atom a : Layer α).assign key v).result ≠ .ok n := by
  intro h
  cases a with
  | text _ => cases h
  | bytes _ => cases h
  | _ =>
      obtain ⟨_, -, h⟩ := Logged.bind_eq_ok_iff.mp h
      obtain ⟨_, -, h⟩ := Logged.bind_eq_ok_iff.mp h
      cases h

theorem fixedAttribute?_of_checkAttribute {name : String} {u : Unit}
    (h : checkAttribute name = .ok u) : fixedAttribute? name = none := by
  unfold checkAttribute at h
  split at h
  · cases h
  · assumption

/-- **All that a write can do.** -/
theorem assigned_of_assign [Memory] {key : Value} {v : α} {n : Node α}
    (h : (l.assign key v).result = .ok n) : l.Assigned key v n := by
  cases l with
  | atom a => exact absurd h (assign_atom_ne_ok a key v n)
  | node m =>
      cases m with
      | dict entries =>
          obtain ⟨k, hk, h⟩ := Logged.bind_eq_ok_iff.mp h
          obtain rfl := Except.ok.inj h
          exact .dict hk
      | world w =>
          obtain ⟨k, hk, h⟩ := Logged.bind_eq_ok_iff.mp h
          obtain rfl := Except.ok.inj h
          exact .world hk
      | caseless m =>
          obtain ⟨label, hlabel, h⟩ := Logged.bind_eq_ok_iff.mp h
          obtain ⟨m', hset, h⟩ := Logged.bind_eq_ok_iff.mp h
          obtain rfl := Except.ok.inj h
          obtain ⟨_, -, hset⟩ := Logged.bind_eq_ok_iff.mp hset
          obtain rfl := Except.ok.inj hset
          exact .caseless hlabel
      | list items =>
          obtain ⟨i, hi, h⟩ := Logged.bind_eq_ok_iff.mp h
          obtain ⟨_, hgap, h⟩ := Logged.bind_eq_ok_iff.mp h
          obtain rfl := Except.ok.inj h
          exact .list hi hgap
      | buffer bytes =>
          obtain ⟨i, hi, h⟩ := Logged.bind_eq_ok_iff.mp h
          obtain ⟨_, -, h⟩ := Logged.bind_eq_ok_iff.mp h
          obtain ⟨bytes', hbytes, h⟩ := Logged.bind_eq_ok_iff.mp h
          obtain rfl := Except.ok.inj h
          exact .buffer hi hbytes
      | object attributes =>
          obtain ⟨name, hname, h⟩ := Logged.bind_eq_ok_iff.mp h
          obtain ⟨_, hcheck, h⟩ := Logged.bind_eq_ok_iff.mp h
          obtain rfl := Except.ok.inj h
          exact .object hname (fixedAttribute?_of_checkAttribute hcheck)
      | _ => cases h

/-- **After a write** every content is one from before, the one that was written, or an atom. -/
theorem Forall.assign [Memory] (h : l.Forall P) (hatom : ∀ a, P (HoldsAtoms.ofAtom a)) {key : Value}
    {v : α}
    (hv : P v) {n : Node α} (hn : (l.assign key v).result = .ok n) : (Layer.node n).Forall P := by
  cases assigned_of_assign hn with
  | dict _ => exact fun c hc => (Table.mem_of_mem_set hc).elim (· ▸ hv) (h c)
  | world _ =>
      intro c hc
      rcases List.mem_append.mp hc with hc | hc
      · exact h c (List.mem_append_left _ hc)
      · exact (Table.mem_of_mem_set hc).elim (· ▸ hv) fun hc => h c (List.mem_append_right _ hc)
  | caseless _ => exact fun c hc => (CaselessMap.mem_of_mem_set hc).elim (· ▸ hv) (h c)
  | list _ _ =>
      intro c hc
      rcases mem_of_mem_writeAt hc with rfl | hc | rfl
      · exact hv
      · exact h c hc
      · exact hatom .null
  | buffer _ _ => exact nofun
  | object _ _ => exact fun c hc => (mem_of_mem_setAttribute hc).elim (· ▸ hv) (h c)

end Layer

/-! ## What does not depend on contents -/

namespace Layer

/-- The level with its contents replaced by their images. -/
def map (f : α → β) : Layer α → Layer β
  | .atom a => .atom a
  | .node n => .node (n.map f)

theorem isNested_map (f : α → β) (l : Layer α) : (l.map f).isNested = l.isNested := by
  cases l with
  | atom a => rfl
  | node n => cases n <;> rfl

theorem acceptsKeys_map (f : α → β) (l : Layer α) (keys : List Value) :
    (l.map f).acceptsKeys keys = l.acceptsKeys keys := by
  cases l with
  | atom a => rfl
  | node n => cases n <;> rfl

variable [HoldsAtoms α] [HoldsAtoms β] {f : α → β}
  (hf : ∀ a, f (HoldsAtoms.ofAtom a) = HoldsAtoms.ofAtom a)

include hf

theorem sequence?_map (l : Layer α) :
    (l.map f).sequence? = l.sequence?.map (List.map f) := by
  have hatoms {γ : Type} (g : γ → Atom) (cs : List γ) :
      cs.map (fun x => (HoldsAtoms.ofAtom (g x) : β)) =
        (cs.map fun x => (HoldsAtoms.ofAtom (g x) : α)).map f := by
    rw [List.map_map]
    exact List.map_congr_left fun x _ => (hf (g x)).symm
  cases l with
  | atom a =>
      cases a with
      | text s => exact congrArg some (hatoms (fun c => .text (String.singleton c)) _)
      | bytes bs => exact congrArg some (hatoms (fun b : UInt8 => .int b.toNat) _)
      | _ => rfl
  | node n =>
      cases n with
      | buffer bs => exact congrArg some (hatoms (fun b : UInt8 => .int b.toNat) _)
      | _ => rfl

theorem ownKeys_map (l : Layer α) : (l.map f).ownKeys = l.ownKeys := by
  unfold ownKeys
  rw [sequence?_map hf]
  cases l.sequence? with
  | some items => simp
  | none =>
      cases l with
      | atom a => cases a <;> rfl
      | node n =>
          cases n with
          | object attributes => simp [map, Node.map, List.filter_map, Function.comp_def]
          | _ => simp [map, Node.map, Node.contents, CaselessMap.mapValues]

end Layer

namespace Node

theorem contents_map (f : α → β) (n : Node α) :
    (n.map f).contents = n.contents.map fun e => (e.1, f e.2) := by
  cases n <;> simp [map, contents, CaselessMap.mapValues]

/-- The entries that a mapping shows are among its contents, in the same order. -/
theorem contents_sublist {n : Node α} (h : n.isMapping = true) :
    (n.contents.map Prod.snd).Sublist n.children := by
  cases n with
  | dict entries => exact List.Sublist.refl _
  | frozen entries => exact List.Sublist.refl _
  | world w => exact List.sublist_append_right _ _
  | view selected fallback => exact List.sublist_append_left _ _
  | caseless m =>
      show ((m.entries.map fun e => (labelKey e.1, e.2)).map Prod.snd).Sublist _
      rw [List.map_map]
      exact List.Sublist.refl _
  | _ => cases h

end Node

end LooseData
