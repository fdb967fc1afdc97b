import LooseData.Proofs.Layer.Enumeration
import LooseData.Proofs.Layer.Faults
import LooseData.Proofs.Layer.Writing

set_option autoImplicit false

/-! # What the guard of a write lets through

`acceptsKeys` is asked once, before any key of a collection is written, and looks at no more than
the kind of the target and, for a list, at whether the keys are indices. A write can then still
find no room (`Layer.HasRoom`): a caseless map has none for a key without letter case, and a list
has none for an index that is more than `maxGap` behind its end.

A list becomes longer with each write, so whether there is room depends on what has been written
before. The writes of keys that the guard has let through, in any order and of any values, succeed
exactly if each of them finds room (`Layer.writeAll_ok_iff_hasRoom`). There always is for the
indices of a sequence that is not longer than the gap (`Layer.hasRoomForAll_of_sequence?`).
-/

namespace LooseData

variable {α β : Type}

namespace Layer

/-- The level after the given writes, one after another. -/
def writeAll [Memory] [HoldsAtoms α] (l : Layer α) : List (Value × α) → Logged (Layer α)
  | [] => pure l
  | (key, v) :: rest => do
    let n ← l.assign key v
    (Layer.node n).writeAll rest

/-- There is room for writes under the given keys, one after another. -/
def HasRoomForAll [Memory] (l : Layer α) (keys : List Value) : Prop :=
  ∀ front key back, keys = front ++ key :: back → l.HasRoom front key

theorem hasRoomForAll_cons_iff [Memory] {l : Layer α} {key : Value} {keys : List Value} :
    l.HasRoomForAll (key :: keys) ↔
      l.HasRoom [] key ∧
        ∀ front next back, keys = front ++ next :: back → l.HasRoom (key :: front) next := by
  constructor
  · intro h
    refine ⟨h [] key keys rfl, fun front next back hkeys => ?_⟩
    exact h (key :: front) next back (congrArg (key :: ·) hkeys)
  · rintro ⟨hfirst, hrest⟩ front next back hsplit
    cases front with
    | nil =>
        obtain ⟨rfl, -⟩ := List.cons.inj hsplit
        exact hfirst
    | cons first front =>
        obtain ⟨rfl, hkeys⟩ := List.cons.inj hsplit
        exact hrest front next back hkeys

section

variable [HoldsAtoms β] {source : Layer β}

/-- The keys of any level can be put into a mapping. -/
theorem exists_key?_of_mem_ownKeys {key : Value} (h : key ∈ source.ownKeys) :
    ∃ k, key.key? = some k := by
  rw [ownKeys_eq_stored] at h
  obtain ⟨e, -, rfl⟩ := List.mem_map.mp h
  exact ⟨e.1, Value.key?_ofKey e.1⟩

/-- There is room for the indices of a sequence that is not too long, in any order. -/
theorem hasRoomForAll_of_sequence? [Memory] {l : Layer α} {items : List β} {keys : List Value}
    (hsource : source.sequence? = some items) (hshort : items.length ≤ maxGap)
    (hkeys : ∀ key ∈ keys, key ∈ source.ownKeys) : l.HasRoomForAll keys := by
  rw [ownKeys_of_sequence? hsource] at hkeys
  rintro front key back rfl
  obtain ⟨i, hi, rfl⟩ := List.mem_map.mp (hkeys key (by simp))
  have hlt := List.mem_range.mp hi
  unfold HasRoom
  split
  · exact ⟨_, rfl⟩
  · intro j hj
    obtain rfl : j = i := Option.some.inj ((numeral?_toString i).2 _ hj)
    exact .inl (by omega)
  · trivial

end

section

variable [HoldsAtoms α] {l : Layer α} {key : Value} {k : Key} {v : α}

/-! ## One write -/

/-- Whether there is room after a write is whether there is room with one more key written. -/
theorem hasRoom_of_assign [Memory] {n : Node α} {earlier : List Value} {next : Value}
    (h : (l.assign key v).result = .ok n) (htakes : l.Takes key) :
    (Layer.node n).HasRoom earlier next ↔ l.HasRoom (key :: earlier) next := by
  cases l with
  | atom a => exact htakes.elim
  | node m =>
      cases m with
      | dict _ | world _ =>
          obtain ⟨_, -, h⟩ := Logged.bind_eq_ok_iff.mp h
          obtain rfl := Except.ok.inj h
          exact Iff.rfl
      | caseless _ =>
          obtain ⟨_, -, h⟩ := Logged.bind_eq_ok_iff.mp h
          obtain ⟨_, -, h⟩ := Logged.bind_eq_ok_iff.mp h
          obtain rfl := Except.ok.inj h
          exact Iff.rfl
      | list items =>
          obtain ⟨j, hj, h⟩ := Logged.bind_eq_ok_iff.mp h
          obtain ⟨_, -, h⟩ := Logged.bind_eq_ok_iff.mp h
          obtain rfl := Except.ok.inj h
          have hindex := Value.mustBeIndex_eq_ok_iff.mp hj
          -- The list is as long as it was or as the index needs, whichever is more.
          refine forall₂_congr fun i _ => ?_
          rw [length_writeAt, List.exists_mem_cons_iff, ← or_assoc]
          refine or_congr_left ?_
          constructor
          · intro hle
            by_cases hlist : i ≤ items.length + maxGap
            · exact .inl hlist
            · exact .inr ⟨j, hindex, by omega⟩
          · rintro (hle | ⟨j', hj', hle⟩)
            · omega
            · obtain rfl := Option.some.inj (Except.ok.inj (hindex.symm.trans hj'))
              omega
      | _ => exact htakes.elim

/-- What a level takes it takes after a write as well. -/
theorem Takes.of_assign [Memory] {n : Node α} {next : Value} (hnext : l.Takes next)
    (h : (l.assign key v).result = .ok n) : (Layer.node n).Takes next := by
  cases l with
  | atom a => exact hnext.elim
  | node m => exact hnext.of_kind (kind_of_assign h)

/-- A caseless map comes from a caseless map. -/
theorem exists_caseless_of_assign [Memory] {n : Node α} (htakes : l.Takes key)
    (h : (l.assign key v).result = .ok n) (hcaseless : ∃ m, Layer.node n = .node (.caseless m)) :
    ∃ m, l = .node (.caseless m) := by
  cases l with
  | atom a => exact htakes.elim
  | node before =>
      obtain ⟨m, hm⟩ := hcaseless
      obtain rfl := Layer.node.inj hm
      have hkind : "CaselessMap" = before.kind := kind_of_assign h
      cases before with
      | caseless m => exact ⟨m, rfl⟩
      | _ => simp [Node.kind] at hkind

/-! ## A run of writes -/

/-- **A run of writes under keys that the level takes** ends as its writes do: it succeeds if there
is room for all of them, and fails at one of its keys if there is not. -/
theorem writeAll_cases [Memory] {writes : List (Value × α)}
    (hkeys : ∀ w ∈ writes, l.Takes w.1 ∧ ∃ k, w.1.key? = some k) :
    (l.HasRoomForAll (writes.map Prod.fst) ∧ ∃ after, (l.writeAll writes).result = .ok after) ∨
      (¬ l.HasRoomForAll (writes.map Prod.fst) ∧
        ∃ fault, (l.writeAll writes).result = .error fault ∧
          ∃ w ∈ writes, w.1.Obstructs (∃ m, l = .node (.caseless m)) fault) := by
  -- The keys that are still to come are taken by the level that each write leaves.
  induction writes generalizing l with
  | nil =>
      refine .inl ⟨?_, l, rfl⟩
      intro front key back hnil
      cases front <;> cases hnil
  | cons w rest ih =>
      obtain ⟨key, v⟩ := w
      obtain ⟨⟨htakes, k, hkey⟩, hrest⟩ := List.forall_mem_cons.mp hkeys
      rw [List.map_cons, hasRoomForAll_cons_iff]
      rcases assign_cases hkey htakes v with ⟨hroom, n, hn⟩ | ⟨hroom, fault, hfault, hobstructs⟩
      · have hafter : (Layer.node n).HasRoomForAll (rest.map Prod.fst) ↔
            ∀ front next back, rest.map Prod.fst = front ++ next :: back →
              l.HasRoom (key :: front) next :=
          forall_congr' fun _ => forall_congr' fun _ => forall₂_congr fun _ _ =>
            hasRoom_of_assign hn htakes
        rw [and_iff_right hroom, ← hafter]
        rcases ih fun w hw => (hrest w hw).imp_left (·.of_assign hn) with
          ⟨hall, after, hrun⟩ | ⟨hall, fault, hrun, w, hw, hobstructs⟩
        · exact .inl ⟨hall, after, Logged.bind_eq_ok_iff.mpr ⟨n, hn, hrun⟩⟩
        · refine .inr ⟨hall, fault, Logged.bind_eq_error_iff.mpr (.inr ⟨n, hn, hrun⟩), w,
            List.mem_cons_of_mem _ hw, hobstructs.mono (exists_caseless_of_assign htakes hn)⟩
      · refine .inr ⟨fun h => hroom h.1, fault, Logged.bind_eq_error_iff.mpr (.inl hfault), _,
          List.mem_cons_self, hobstructs⟩

/-! ## The guard -/

/-- **Writes that the guard has let through**, under keys of a source in any order and any number,
succeed exactly if each of them finds room, and otherwise fail at a key that stands in the way: one
without letter case for a caseless map, or an index that is too far behind the end of a list. -/
theorem writeAll_ok_iff_hasRoom [Memory] [HoldsAtoms β] {target : Layer α} {source : Layer β}
    {writes : List (Value × α)}
    (hnested : target.isNested = true)
    (haccepts : target.acceptsKeys source.ownKeys = .ok true)
    (hown : ∀ w ∈ writes, w.1 ∈ source.ownKeys) :
    ((∃ after, (target.writeAll writes).result = .ok after) ↔
        target.HasRoomForAll (writes.map Prod.fst)) ∧
      ∀ fault, (target.writeAll writes).result = .error fault →
        ∃ w ∈ writes, w.1.Obstructs (∃ m, target = .node (.caseless m)) fault := by
  have htakes := takes_of_acceptsKeys hnested haccepts
  rcases writeAll_cases fun w hw => ⟨htakes w.1 (hown w hw), exists_key?_of_mem_ownKeys (hown w hw)⟩
    with ⟨hall, after, hrun⟩ | ⟨hall, fault, hrun, hobstructs⟩
  · refine ⟨⟨fun _ => hall, fun _ => ⟨after, hrun⟩⟩, fun fault hfault => ?_⟩
    cases hrun.symm.trans hfault
  · refine ⟨⟨fun ⟨after, hafter⟩ => ?_, fun h => absurd h hall⟩, fun fault' hfault' => ?_⟩
    · cases hrun.symm.trans hafter
    · obtain rfl := Except.error.inj (hrun.symm.trans hfault')
      exact hobstructs

section

open scoped Memory

theorem writeAll_ok_of_pair : ∃ after,
    ((Layer.node (.list [])).writeAll [(.text "1", Value.text "b"), (.text "0", Value.text "a"),
      (.text "1", Value.text "c")]).result = .ok after := by
  let pair : Layer Value := .node (.tuple [.null, .null])
  have hpair : pair.sequence? = some [.null, .null] := rfl
  have hkeys : pair.ownKeys = [.text "0", .text "1"] := rfl
  have haccepts : (Layer.node (.list ([] : List Value))).acceptsKeys pair.ownKeys = .ok true := rfl
  have hroom : (Layer.node (.list ([] : List Value))).HasRoomForAll
      [.text "1", .text "0", .text "1"] :=
    hasRoomForAll_of_sequence? hpair (by decide) (by simp [hkeys])
  exact (writeAll_ok_iff_hasRoom rfl haccepts (by simp [hkeys])).1.mpr hroom

/-- The guard lets a number through for a caseless map, which then finds no letter case in it. -/
theorem exists_acceptsKeys_assign_fault : ∃ target source : Layer Value,
    target.isNested = true ∧ source.isMapping = true ∧
      target.acceptsKeys source.ownKeys = .ok true ∧
      ∃ key ∈ source.ownKeys, ∀ v, (target.assign key v).result = .error .noLetterCase :=
  ⟨.node (.caseless .empty), .node (.dict [(.int 1, .text "x")]), rfl, rfl, rfl, .int 1,
    List.mem_singleton.mpr rfl, fun _ => rfl⟩

end

end

end Layer

end LooseData
