import LooseData.Proofs.Layer.Default
import LooseData.Proofs.Merge.Places

set_option autoImplicit false

/-! # What a write changes

Writing under a key changes the entry of the key and no other: the entries of other keys stay, each
at its place (`Layer.KeepsOthers`). In a list the items at other indices stay, and where the list
has to grow, nulls fill the gap. What has been written is found again under the key
(`Layer.WellMade.access_of_assign`), though the writer and the reader of a level read the key each
in its own way: the writer of a caseless map takes byte strings as labels, the reader does not.
-/

namespace LooseData

variable {α κ : Type}

/-! ## Other entries -/

/-- The entries that are not of one's own are the same in both lists, each at the same place. -/
def OthersKept (own : κ → Bool) (before after : List (κ × α)) : Prop :=
  ∀ (i : Nat) (e : κ × α), own e.1 = false → (after[i]? = some e ↔ before[i]? = some e)

namespace OthersKept

variable {own : κ → Bool} {before after : List (κ × α)} {e e' : κ × α}

theorem cons (h : OthersKept own before after) (e : κ × α) :
    OthersKept own (e :: before) (e :: after) := by
  intro i d hd
  cases i with
  | zero => rfl
  | succ i => exact h i d hd

/-- An entry of one's own is replaced. -/
theorem replace (he : own e.1 = true) (he' : own e'.1 = true) (rest : List (κ × α)) :
    OthersKept own (e :: rest) (e' :: rest) := by
  intro i d hd
  cases i with
  | zero =>
      have hne : e ≠ d := by
        rintro rfl
        exact Bool.noConfusion (he.symm.trans hd)
      have hne' : e' ≠ d := by
        rintro rfl
        exact Bool.noConfusion (he'.symm.trans hd)
      simp [hne, hne']
  | succ i => rfl

/-- An entry of one's own is appended. -/
theorem append_nil (he : own e.1 = true) : OthersKept own [] [e] := by
  intro i d hd
  cases i with
  | zero =>
      have hne : e ≠ d := by
        rintro rfl
        exact Bool.noConfusion (he.symm.trans hd)
      simp [hne]
  | succ i => rfl

end OthersKept

theorem Table.othersKept_set (t : Table α) (key : Key) (v : α) :
    OthersKept (fun k => k.same key) t (set t key v) := by
  induction t with
  | nil => exact .append_nil (Key.same_refl key)
  | cons e rest ih =>
      rw [set]
      split
      · rename_i hsame
        exact .replace hsame hsame rest
      · exact ih.cons e

theorem CaselessMap.othersKept_setEntry (entries : List (Label × α)) (label : Label) (v : α) :
    OthersKept (fun l => l.fold == label.fold) entries (setEntry entries label v) := by
  induction entries with
  | nil => exact .append_nil (beq_self_eq_true _)
  | cons e rest ih =>
      rw [setEntry]
      split
      · rename_i hfold
        refine .replace ?_ ?_ rest
        · exact beq_iff_eq.mpr hfold
        · exact beq_self_eq_true _
      · exact ih.cons e

theorem CaselessMap.silent_set (m : CaselessMap α) (label : Label) (v : α) :
    (m.set label v).silent = m.silent := by
  unfold set
  split <;> rfl

theorem othersKept_setAttribute (attributes : List (String × α)) (name : String) (v : α) :
    OthersKept (fun n => n == name) attributes (setAttribute attributes name v) := by
  induction attributes with
  | nil => exact .append_nil (beq_self_eq_true _)
  | cons e rest ih =>
      rw [setAttribute]
      split
      · rename_i hname
        refine .replace ?_ ?_ rest
        · exact beq_iff_eq.mpr hname
        · exact beq_iff_eq.mpr hname
      · exact ih.cons e

/-! ## Other items -/

/-- A list that is written to becomes as long as the index needs. -/
theorem length_writeAt (items : List α) (i : Nat) (v filler : α) :
    (writeAt items i v filler).length = max items.length (i + 1) := by
  unfold writeAt
  split
  · rw [List.length_set]
    omega
  · rw [List.length_append, List.length_append, List.length_replicate, List.length_singleton]
    omega

variable {items : List α} {i j : Nat}

/-- At another index there is afterwards the item that was there, or the filler past the old end. -/
theorem getElem?_writeAt_eq_getD (hne : j ≠ i) (hj : j < max items.length (i + 1)) (v filler : α) :
    (writeAt items i v filler)[j]? = some (items[j]?.getD filler) := by
  have hlt : j < (writeAt items i v filler).length := by
    rw [length_writeAt]
    exact hj
  have hvalue := getElem?_writeAt_of_ne items hne.symm v filler
  rw [List.getElem?_eq_getElem hlt, Option.getD_some] at hvalue
  rw [List.getElem?_eq_getElem hlt, hvalue]

/-- An item at another index is kept. -/
theorem getElem?_writeAt_of_lt (hne : j ≠ i) (hj : j < items.length) (v filler : α) :
    (writeAt items i v filler)[j]? = items[j]? := by
  rw [getElem?_writeAt_eq_getD hne (by omega), List.getElem?_eq_getElem hj, Option.getD_some]

/-- The gap between the old end and the index is filled. -/
theorem getElem?_writeAt_gap (hle : items.length ≤ j) (hj : j < i) (v filler : α) :
    (writeAt items i v filler)[j]? = some filler := by
  rw [getElem?_writeAt_eq_getD (by omega) (by omega), List.getElem?_eq_none hle, Option.getD_none]

namespace Layer

/-- The collections that change when they are written to. -/
def TakesWrites : Layer α → Prop
  | .node (.list _) => True
  | l => l.TakesDefaults

/-- The keys under which what has been written is looked for: all but null, and in an object the
names of attributes that are not hidden. -/
def LooksUp (l : Layer α) (key : Value) : Prop :=
  match l with
  | .node (.object _) => ∃ name, key = .text name ∧ hiddenName name = false
  | _ => key.isNull = false

variable [HoldsAtoms α]

/-- A collection of the same kind that differs in nothing but what it holds under a key. The
entries of other keys stand where they stood, and so do the attributes of other names. A list is as
long as its old items and the index need, its items at other indices are the old ones, and nulls
fill the gap behind them. -/
inductive KeepsOthers (key : Value) : Layer α → Node α → Prop where
  | dict {before after : Table α} {k : Key} (hkey : key.key? = some k)
      (hothers : OthersKept (fun k' => k'.same k) before after) :
      KeepsOthers key (.node (.dict before)) (.dict after)
  | world {w : World α} {after : Table α} {k : Key} (hkey : key.key? = some k)
      (hothers : OthersKept (fun k' => k'.same k) w.state after) :
      KeepsOthers key (.node (.world w)) (.world { w with state := after })
  | caseless {before after : CaselessMap α} {label : Label} (hlabel : key.label? = .ok label)
      (hothers : OthersKept (fun l => l.fold == label.fold) before.entries after.entries)
      (hsilent : after.silent = before.silent) :
      KeepsOthers key (.node (.caseless before)) (.caseless after)
  | object {before after : List (String × α)} {name : String} (hname : key = .text name)
      (hothers : OthersKept (fun n => n == name) before after) :
      KeepsOthers key (.node (.object before)) (.object after)
  | list {before after : List α} {i : Nat} (hindex : key.index? = .ok (some i))
      (hlength : after.length = max before.length (i + 1))
      (hothers : ∀ j < before.length, j ≠ i → after[j]? = before[j]?)
      (hgap : ∀ j < i, before.length ≤ j → after[j]? = some (HoldsAtoms.ofAtom .null)) :
      KeepsOthers key (.node (.list before)) (.list after)

variable {l : Layer α} {n : Node α} {key : Value} {v : α}

/-! ## One write -/

/-- **What a write does**: an entry is set in a mapping or an object, or an item in a list. -/
theorem written_or_writeAt_of_assign [Memory] (hl : l.TakesWrites)
    (h : (l.assign key v).result = .ok n) :
    l.Written key v n ∨ ∃ items i, l = .node (.list items) ∧ key.index? = .ok (some i) ∧
      n = .list (writeAt items i v (HoldsAtoms.ofAtom .null)) := by
  by_cases hlist : ∃ items, l = .node (.list items)
  · obtain ⟨items, rfl⟩ := hlist
    obtain ⟨i, hi, h⟩ := Logged.bind_eq_ok_iff.mp h
    obtain ⟨_, -, h⟩ := Logged.bind_eq_ok_iff.mp h
    obtain rfl := Except.ok.inj h
    exact .inr ⟨items, i, rfl, Value.mustBeIndex_eq_ok_iff.mp hi, rfl⟩
  · have htakes : l.TakesDefaults := by
      unfold TakesWrites at hl
      split at hl
      · exact absurd ⟨_, rfl⟩ hlist
      · exact hl
    exact .inl (written_of_assign htakes h)

/-- A level that a value has been written to is as it is made. -/
theorem WellMade.of_assign [Memory] (hmade : l.WellMade) (hl : l.TakesWrites)
    (h : (l.assign key v).result = .ok n) : (Layer.node n).WellMade := by
  rcases written_or_writeAt_of_assign hl h with hwritten | ⟨items, i, -, -, rfl⟩
  · exact hmade.of_written hwritten
  · intro m hm hmapping
    obtain rfl := Layer.node.inj hm
    cases hmapping

/-- **A write leaves everything else alone.** -/
theorem WellMade.keepsOthers_of_assign [Memory] (hmade : l.WellMade) (hl : l.TakesWrites)
    (h : (l.assign key v).result = .ok n) : l.KeepsOthers key n := by
  rcases written_or_writeAt_of_assign hl h with hwritten | ⟨items, i, rfl, hindex, rfl⟩
  · cases hwritten with
    | dict hkey => exact .dict hkey (Table.othersKept_set _ _ v)
    | world hkey => exact .world hkey (Table.othersKept_set _ _ v)
    | @caseless m label hlabel =>
        have hcoherent : m.Coherent := hmade _ rfl rfl
        refine .caseless hlabel ?_ (CaselessMap.silent_set m label v)
        rw [hcoherent.entries_set]
        exact CaselessMap.othersKept_setEntry _ _ v
    | object hname => exact .object hname (othersKept_setAttribute _ _ v)
  · refine .list hindex (length_writeAt items i v _) ?_ ?_
    · intro j hj hne
      exact getElem?_writeAt_of_lt hne hj v _
    · intro j hj hle
      exact getElem?_writeAt_gap hle hj v _

/-- Where a key is looked up, it finds all that belongs to the level. -/
theorem LooksUp.lookup_eq_own? {m : Node α} (h : (Layer.node m).LooksUp key) :
    (Layer.node m).lookup key = (Layer.node m).own? key := by
  cases m with
  | object attributes =>
      obtain ⟨name, rfl, hshown⟩ := h
      rw [lookup_text_eq, if_neg]
      intro hhides
      cases hhides.symm.trans hshown
  | _ => rfl

/-- **What has been written is found** under its key, except in a caseless map under a byte
string. -/
theorem WellMade.access_of_assign [Memory] (hmade : l.WellMade) (hl : l.TakesWrites)
    (hkey : l.LooksUp key)
    (h : (l.assign key v).result = .ok n) :
    (Layer.node n).access key =
      .ok (if l.overlooks key then HoldsAtoms.ofAtom .null else v) := by
  have hfound (hnull : key.isNull = false) (hlookup : (Layer.node n).lookup key = .ok (some v)) :
      (Layer.node n).access key = .ok v := by
    rw [access, hnull, hlookup]
    rfl
  rcases written_or_writeAt_of_assign hl h with hwritten | ⟨items, i, rfl, hindex, rfl⟩
  · -- An own entry is found under each key but an overlooked one and, in an object, a hidden one.
    by_cases hoverlooks : l.overlooks key = true
    · obtain ⟨m, bytes, rfl, rfl⟩ := exists_bytes_of_overlooks hoverlooks
      cases hwritten
      rfl
    · rw [if_neg hoverlooks]
      have hown := hmade.own?_self_of_written hwritten (by simpa using hoverlooks)
      cases hwritten with
      | @object attributes name hname =>
          subst hname
          have hlooks : (Layer.node (.object (setAttribute attributes name v))).LooksUp
              (.text name) := hkey
          exact hfound rfl (hlooks.lookup_eq_own?.trans hown)
      | _ => exact hfound hkey hown
  · refine hfound hkey ?_
    show key.index?.map _ = _
    rw [hindex]
    show Except.ok ((writeAt items i v _)[i]?) = _
    rw [getElem?_writeAt_self]

end Layer

end LooseData
