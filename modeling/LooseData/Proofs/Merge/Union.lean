import LooseData.Proofs.Layer.Contents
import LooseData.Proofs.Merge.Overlay

set_option autoImplicit false

/-! # The key-by-key union and the overlay

The **union** of two values merges dictionaries key by key and takes everything else from the upper
value (`Value.unitedWith`). The overlay of a merge does the same for two dictionaries, but it also
mixes other pairs of collections (`Value.Mix`): two lists, a list over a dictionary, and a
dictionary of indices over a list.

So the overlay holds what the upper value holds under a path as long as the lower value gives way on
the path (`below?_laidOver`), and the two are equal exactly if the lower value gives way everywhere
(`laidOver_eq_unitedWith_iff`). A lower value that is mixed with the upper one only gives way where
both are lists and the upper one covers the other (`Mix.laidOver_eq_iff`).
-/

namespace LooseData

namespace Value

/-! ## The union -/

mutual

/-- **The union**: the entries of two dictionaries key by key, and otherwise the upper value. -/
def unitedWith (lower : Value) : (upper : Value) → Value
  | .node (.dict entries) =>
    match lower with
    | .node (.dict held) => .dict (overlaidEntries held (entryUnions entries))
    | _ => .node (.dict entries)
  | upper => upper
termination_by structural upper => upper

/-- The entries of an upper dictionary, each with the change that its value makes to the one below
it. -/
def entryUnions : (entries : Table Value) → Table (Value → Value)
  | [] => []
  | (k, upper) :: rest => (k, fun lower => unitedWith lower upper) :: entryUnions rest
termination_by structural entries => entries

end

theorem entryUnions_eq (entries : Table Value) :
    entryUnions entries = entries.map fun e => (e.1, fun lower => unitedWith lower e.2) := by
  induction entries with
  | nil => rfl
  | cons e rest ih =>
      rw [entryUnions, ih]
      rfl

theorem unitedWith_dict_dict (d e : Table Value) :
    unitedWith (.dict d) (.dict e) =
      .dict (overlaidEntries d (e.map fun x => (x.1, fun lower => unitedWith lower x.2))) := by
  show Value.dict (overlaidEntries d (entryUnions e)) = _
  rw [entryUnions_eq]

/-- Whatever is not a pair of dictionaries is replaced. -/
theorem unitedWith_of_not_dicts {lower upper : Value}
    (h : ∀ d e, lower = .dict d → upper ≠ .dict e) : lower.unitedWith upper = upper := by
  cases upper with
  | atom a => rfl
  | node n =>
      cases n with
      | dict e =>
          cases lower with
          | atom a => rfl
          | node m =>
              cases m with
              | dict d => exact absurd rfl (h d e rfl)
              | _ => rfl
      | _ => rfl

@[simp] theorem unitedWith_null (upper : Value) : unitedWith .null upper = upper :=
  unitedWith_of_not_dicts nofun

/-- A dictionary over a dictionary, as changes of the entries. -/
theorem laidOver_dict_dict (d e : Table Value) :
    laidOver (.dict e) (.dict d) =
      .dict (overlaidEntries d (e.map fun x => (x.1, laidOver x.2))) := by
  show Value.dict (overlaidEntries d (entryChanges e)) = _
  rw [entryChanges_eq]

/-- What a dictionary holds under a key after changes have been made to it. -/
theorem get?_overlaidEntries (target : Table Value) (changes : Table (Value → Value)) (key : Key) :
    Table.get? (overlaidEntries target changes) key =
      match Table.get? target key, Table.get? changes key with
      | some current, some change => some (change current)
      | none, some change => some (change .null)
      | current, none => current := by
  -- The entries of the target stay under their keys.
  have hkept : Table.get? (target.map (changed changes)) key =
      (Table.get? target key).map fun current => (changed changes (key, current)).2 := by
    induction target with
    | nil => rfl
    | cons e rest ih =>
        obtain ⟨k, v⟩ := e
        rw [List.map_cons, changed]
        cases hsame : k.same key with
        | true =>
            rw [Table.get?, Table.get?, if_pos hsame, if_pos hsame, Table.get?_congr hsame]
            rfl
        | false =>
            rw [Table.get?, Table.get?, if_neg (by simp [hsame]), if_neg (by simp [hsame]), ih]
  have hadded := Table.get?_map (fun change : Value → Value => change .null)
    (changes.filter fun e => !Table.has target e.1) key
  rw [overlaidEntries, Table.get?_append, hkept, hadded]
  cases htarget : Table.get? target key with
  | some current =>
      rw [Option.map_some, Option.some_or, changed]
      cases Table.get? changes key <;> rfl
  | none =>
      -- A new entry is not left out, since the target has none for its key.
      have hnew : Table.get? (changes.filter fun e => !Table.has target e.1) key =
          Table.get? changes key := by
        refine Table.get?_filter fun e _ hsame => ?_
        rw [Table.has, Table.get?_congr hsame, htarget]
        rfl
      rw [hnew]
      cases Table.get? changes key <;> rfl

/-! ## Collections that get mixed -/

/-- Two values are dictionaries both. -/
def BothDicts (v w : Value) : Prop := ∃ d e, v = .dict d ∧ w = .dict e

/-- A merge goes on into two values that are not both dictionaries: both are collections, and the
lower one takes the keys of the upper one. -/
def Mix (current value : Value) : Prop :=
  ¬ BothDicts current value ∧ current.joins value = true

variable {current value : Value}

/-- What is neither mixed nor a pair of dictionaries is replaced. -/
theorem laidOver_of_not_mix (hdicts : ¬ BothDicts current value) (h : ¬ Mix current value) :
    value.laidOver current = value :=
  if_neg fun hjoins => h ⟨hdicts, hjoins⟩

theorem Mix.laidOver_eq (h : Mix current value) :
    value.laidOver current = current.overlaidBy value :=
  if_pos h.2

/-- **The pairs that get mixed**: two lists, a list over a dictionary, and a dictionary whose keys
consist of digits over a list. -/
theorem mix_iff (hc : current.Plain) (hv : value.Plain) :
    Mix current value ↔
      (∃ l m, current = .list l ∧ value = .list m) ∨
      (∃ d m, current = .dict d ∧ value = .list m) ∨
      ∃ l e, current = .list l ∧ value = .dict e ∧ ∀ x ∈ e, x.1.digitsOnly = true := by
  constructor
  · rintro ⟨hdicts, hjoins⟩
    rw [joins, Bool.and_eq_true, Bool.and_eq_true] at hjoins
    cases hc with
    | atom a => cases hjoins.1.1
    | node hn _ =>
        cases hv with
        | atom a => cases hjoins.1.2
        | node hm _ =>
            rcases hn.dict_or_list with ⟨d, rfl⟩ | ⟨l, rfl⟩ <;>
              rcases hm.dict_or_list with ⟨e, rfl⟩ | ⟨items, rfl⟩
            · exact absurd ⟨d, e, rfl, rfl⟩ hdicts
            · exact .inr (.inl ⟨d, items, rfl, rfl⟩)
            · exact .inr (.inr ⟨l, e, rfl, rfl, List.all_eq_true.mp hjoins.2⟩)
            · exact .inl ⟨l, items, rfl, rfl⟩
  · rintro (⟨l, m, rfl, rfl⟩ | ⟨d, m, rfl, rfl⟩ | ⟨l, e, rfl, rfl, hdigits⟩)
    · refine ⟨nofun, List.all_eq_true.mpr fun e he => ?_⟩
      obtain ⟨s, hs, htakes, -⟩ := Node.Plain.of_mem_fields (n := .list m) trivial he
      rw [hs]
      exact htakes
    · exact ⟨nofun, rfl⟩
    · exact ⟨nofun, List.all_eq_true.mpr hdigits⟩

/-- Whatever is written into a list, it stays a list. -/
theorem exists_overlaidBy_list_dict (l : List Value) (e : Table Value) :
    ∃ items, overlaidBy (.list l) (.dict e) = .list items := by
  have hlist : ∃ items, e.foldl (fun n y => Node.revise n y.1 y.2.laidOver) (.list l) =
      .list items := by
    refine List.foldlRecOn (motive := fun n => ∃ items, n = Node.list items) e _ ⟨l, rfl⟩ ?_
    rintro _ ⟨items, rfl⟩ y -
    exact ⟨_, Node.revise_list items y.1 y.2.laidOver⟩
  obtain ⟨items, hitems⟩ := hlist
  exact ⟨items, (overlaidBy_list_dict l e).trans (congrArg Value.node hitems)⟩

/-- **When a mix is the upper value**: only if both are lists, and each item of the lower one gives
way to the item of the upper one at its index. -/
theorem Mix.laidOver_eq_iff (h : Mix current value) (hc : current.Plain) (hv : value.Plain) :
    value.laidOver current = value ↔
      ∃ l m, current = .list l ∧ value = .list m ∧
        ∀ (i : Nat) (c : Value), l[i]? = some c → ∃ v, m[i]? = some v ∧ v.laidOver c = v := by
  rw [h.laidOver_eq]
  rcases (mix_iff hc hv).mp h with ⟨l, m, rfl, rfl⟩ | ⟨d, m, rfl, rfl⟩ | ⟨l, e, rfl, rfl, -⟩
  · rw [overlaidBy_list_list]
    constructor
    · intro heq
      refine ⟨l, m, rfl, rfl, fun i c hc => ?_⟩
      have hitem := getElem?_overlaidItems l m i
      rw [Node.list.inj (Value.node.inj heq), hc] at hitem
      cases hv : m[i]? with
      | none => cases hv.symm.trans (hitem.trans (by rw [hv]))
      | some v =>
          rw [hv] at hitem
          exact ⟨v, rfl, (Option.some.inj hitem).symm⟩
    · rintro ⟨_, _, ⟨⟩, ⟨⟩, hitems⟩
      refine congrArg Value.list (List.ext_getElem? fun i => ?_)
      rw [getElem?_overlaidItems]
      cases hc : l[i]? with
      | none => cases m[i]? <;> rfl
      | some c =>
          obtain ⟨v, hv, hlaid⟩ := hitems i c hc
          rw [hv]
          exact congrArg some hlaid
  · exact ⟨nofun, fun ⟨_, _, hd, _⟩ => nomatch hd⟩
  · refine ⟨fun heq => ?_, fun ⟨_, _, _, he, _⟩ => nomatch he⟩
    obtain ⟨items, hitems⟩ := exists_overlaidBy_list_dict l e
    cases hitems.symm.trans heq

/-! ## What is held under a path -/

/-- What a value holds under a path of names, which goes through dictionaries. -/
def below? (v : Value) : (path : List String) → Option Value
  | [] => some v
  | name :: rest =>
    match v with
    | .node (.dict entries) => (Table.get? entries (.text name)).bind fun w => below? w rest
    | _ => none

/-- Under the path, the lower value gives way to the upper one: should a merge mix what the two hold
there, the mix is what the upper one holds. -/
def GivesWay (lower upper : Value) (path : List String) : Prop :=
  ∀ current value, lower.below? path = some current → upper.below? path = some value →
    Mix current value → value.laidOver current = value

theorem GivesWay.laidOver_eq {lower upper : Value} (h : GivesWay lower upper [])
    (hdicts : ¬ BothDicts lower upper) : upper.laidOver lower = upper := by
  by_cases hmix : Mix lower upper
  · exact h lower upper rfl rfl hmix
  · exact laidOver_of_not_mix hdicts hmix

theorem exists_dict_of_below?_cons {v w : Value} {name : String} {rest : List String}
    (h : v.below? (name :: rest) = some w) :
    ∃ entries c, v = .dict entries ∧ Table.get? entries (.text name) = some c ∧
      c.below? rest = some w := by
  cases v with
  | atom a => cases h
  | node n =>
      cases n with
      | dict entries =>
          obtain ⟨c, hc, hrest⟩ := Option.bind_eq_some_iff.mp h
          exact ⟨entries, c, rfl, hc, hrest⟩
      | _ => cases h

theorem below?_cons_dict {entries : Table Value} {name : String} {c : Value}
    (h : Table.get? entries (.text name) = some c) (rest : List String) :
    (Value.dict entries).below? (name :: rest) = c.below? rest := by
  show (Table.get? entries (.text name)).bind _ = _
  rw [h, Option.bind_some]

/-- What two dictionaries give way on is what their values under a name give way on. -/
theorem givesWay_cons {d e : Table Value} {name : String} {current value : Value}
    (hd : Table.get? d (.text name) = some current) (he : Table.get? e (.text name) = some value)
    (rest : List String) :
    GivesWay (.dict d) (.dict e) (name :: rest) ↔ GivesWay current value rest := by
  unfold GivesWay
  rw [below?_cons_dict hd, below?_cons_dict he]

/-- **The union holds what the upper value holds** under every path on which not both values hold a
dictionary. -/
theorem below?_unitedWith {path : List String} {lower upper value : Value}
    (hvalue : upper.below? path = some value)
    (hdicts : ∀ current, lower.below? path = some current → ¬ BothDicts current value) :
    (lower.unitedWith upper).below? path = some value := by
  induction path generalizing lower upper with
  | nil =>
      obtain rfl := Option.some.inj hvalue
      rw [unitedWith_of_not_dicts fun d e hd he => hdicts lower rfl ⟨d, e, hd, he⟩]
      rfl
  | cons name rest ih =>
      obtain ⟨e, v, rfl, hv, hrest⟩ := exists_dict_of_below?_cons hvalue
      by_cases hlower : ∃ d, lower = .dict d
      · obtain ⟨d, rfl⟩ := hlower
        rw [unitedWith_dict_dict]
        have hget := get?_overlaidEntries d (e.map fun x => (x.1, fun lower => unitedWith lower x.2))
          (.text name)
        have hchange := Table.get?_map (fun x : Value => fun lower => unitedWith lower x) e
          (.text name)
        rw [hchange, hv] at hget
        cases hcurrent : Table.get? d (.text name) with
        | none =>
            rw [hcurrent] at hget
            rw [below?_cons_dict hget]
            exact (congrArg (below? · rest) (unitedWith_null v)).trans hrest
        | some c =>
            rw [hcurrent] at hget
            rw [below?_cons_dict hget]
            refine ih hrest fun current hbelow => hdicts current ?_
            rw [below?_cons_dict hcurrent, hbelow]
      · rw [unitedWith_of_not_dicts fun d _ hd _ => hlower ⟨d, hd⟩]
        exact hvalue

/-- **The overlay holds what the upper value holds** under a path on which the lower value gives way
from the start on. -/
theorem below?_laidOver {path : List String} {lower upper value : Value}
    (hvalue : upper.below? path = some value)
    (hdicts : ∀ current, lower.below? path = some current → ¬ BothDicts current value)
    (hgives : ∀ front, front <+: path → GivesWay lower upper front) :
    (upper.laidOver lower).below? path = some value := by
  induction path generalizing lower upper with
  | nil =>
      obtain rfl := Option.some.inj hvalue
      rw [(hgives [] (List.prefix_refl _)).laidOver_eq (hdicts lower rfl)]
      rfl
  | cons name rest ih =>
      obtain ⟨e, v, rfl, hv, hrest⟩ := exists_dict_of_below?_cons hvalue
      by_cases hlower : ∃ d, lower = .dict d
      · obtain ⟨d, rfl⟩ := hlower
        rw [laidOver_dict_dict]
        have hget := get?_overlaidEntries d (e.map fun x => (x.1, laidOver x.2)) (.text name)
        rw [Table.get?_map, hv] at hget
        cases hcurrent : Table.get? d (.text name) with
        | none =>
            rw [hcurrent] at hget
            rw [below?_cons_dict hget]
            exact hrest
        | some c =>
            rw [hcurrent] at hget
            rw [below?_cons_dict hget]
            refine ih hrest (fun current hbelow => hdicts current ?_) fun front hfront => ?_
            · rw [below?_cons_dict hcurrent, hbelow]
            · exact (givesWay_cons hcurrent hv front).mp
                (hgives (name :: front) ((List.prefix_cons_inj name).mpr hfront))
      · -- The lower value is no dictionary, so that it gives way as a whole.
        rw [(hgives [] List.nil_prefix).laidOver_eq fun ⟨d, _, hd, _⟩ => hlower ⟨d, hd⟩]
        exact hvalue

/-- Changes that agree on the values of a dictionary and on null have the same effect. -/
theorem overlaidEntries_congr {d e : Table Value} {f g : Value → Value → Value}
    (hnull : ∀ v, f v .null = g v .null)
    (h : ∀ x ∈ d, ∀ v, Table.get? e x.1 = some v → f v x.2 = g v x.2) :
    overlaidEntries d (e.map fun x => (x.1, f x.2)) =
      overlaidEntries d (e.map fun x => (x.1, g x.2)) := by
  unfold overlaidEntries
  congr 1
  · refine List.map_congr_left fun x hx => ?_
    rw [changed, changed, Table.get?_map, Table.get?_map]
    cases hv : Table.get? e x.1 with
    | none => rfl
    | some v => exact congrArg (Prod.mk x.1) (h x hx v hv)
  · rw [List.filter_map, List.filter_map, List.map_map, List.map_map]
    exact List.map_congr_left fun x _ => congrArg (Prod.mk x.1) (hnull x.2)

/-- **When the overlay is the union**: exactly if the lower value gives way under every path. One
induction over the upper value in one direction, and over the path in the other. -/
theorem laidOver_eq_unitedWith_iff {lower upper : Value} (hlower : lower.Plain)
    (hupper : upper.Plain) :
    upper.laidOver lower = lower.unitedWith upper ↔ ∀ path, GivesWay lower upper path := by
  constructor
  · intro heq path
    induction path generalizing lower upper with
    | nil =>
        rintro current value ⟨⟩ ⟨⟩ hmix
        rw [heq, unitedWith_of_not_dicts fun d e hd he => hmix.1 ⟨d, e, hd, he⟩]
    | cons name rest ih =>
        intro current value hcurrent hvalue
        obtain ⟨d, c, rfl, hc, -⟩ := exists_dict_of_below?_cons hcurrent
        obtain ⟨e, v, rfl, hv, -⟩ := exists_dict_of_below?_cons hvalue
        have hsame : v.laidOver c = c.unitedWith v := by
          rw [laidOver_dict_dict, unitedWith_dict_dict] at heq
          have hentries := congrArg (fun t => Table.get? t (.text name))
            (Node.dict.inj (Value.node.inj heq))
          have hchange := Table.get?_map (fun x : Value => fun lower => unitedWith lower x) e
            (.text name)
          simp only [get?_overlaidEntries, Table.get?_map, hc, hv, hchange] at hentries
          exact Option.some.inj hentries
        cases hlower with
        | node _ hd =>
            cases hupper with
            | node _ he =>
                exact (givesWay_cons hc hv rest).mpr
                  (ih (hd c (Table.mem_of_get? hc)) (he v (Table.mem_of_get? hv)) hsame)
                  current value hcurrent hvalue
  · intro hgives
    induction hupper generalizing lower with
    | atom a =>
        exact (hgives []).laidOver_eq nofun
    | @node m hm hchildren ih =>
        by_cases hdicts : BothDicts lower (.node m)
        · obtain ⟨d, e, rfl, he⟩ := hdicts
          obtain rfl := Value.node.inj he
          show laidOver (.dict e) (.dict d) = unitedWith (.dict d) (.dict e)
          rw [laidOver_dict_dict, unitedWith_dict_dict]
          cases hlower with
          | node hd hvalues =>
              refine congrArg Value.dict (overlaidEntries_congr (g := fun v lower =>
                unitedWith lower v) (fun v => ?_) fun x hx v hv => ?_)
              · exact (laidOver_null v).trans (unitedWith_null v).symm
              · obtain ⟨name, hname⟩ := hd.2 x hx
                have hcurrent : Table.get? d (.text name) = some x.2 := by
                  rw [← hname]
                  exact hd.1.get?_of_mem hx
                rw [hname] at hv
                refine ih v (Table.mem_of_get? hv) (hvalues _ (List.mem_map_of_mem hx)) ?_
                exact fun path => (givesWay_cons hcurrent hv path).mp (hgives (name :: path))
        · rw [(hgives []).laidOver_eq hdicts,
            unitedWith_of_not_dicts fun d e hd he => hdicts ⟨d, e, hd, he⟩]

end Value

end LooseData
