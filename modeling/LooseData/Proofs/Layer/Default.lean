import LooseData.Proofs.CaselessMap.Entries
import LooseData.Proofs.Layer.Unreadable

set_option autoImplicit false

/-! # Setting a key that is not there

A default is written under a key only if the level has nothing there. What a level has is decided by
a lookup, and what belongs to it also counts the attributes of an object that are hidden from
lookups. On these the two disagree: a default for a hidden attribute replaces the value of the
attribute. Everything else that belongs to the level stays as it is, whichever key the default is
for (`Layer.WellMade.own?_of_withDefault?`), since the new key of a mapping is none of those under
which the mapping finds something.
-/

namespace LooseData

variable {α : Type}

/-! ## Attributes -/

theorem lookup_setAttribute (attributes : List (String × α)) (name name' : String) (v : α) :
    (setAttribute attributes name v).lookup name' =
      if name' = name then some v else attributes.lookup name' := by
  induction attributes with
  | nil =>
      by_cases heq : name' = name
      · simp [setAttribute, heq]
      · simp [setAttribute, heq, List.lookup_cons, beq_eq_false_iff_ne.mpr heq]
  | cons e rest ih =>
      obtain ⟨n, w⟩ := e
      rw [setAttribute]
      by_cases hn : n = name
      · subst hn
        by_cases heq : name' = n
        · simp [heq]
        · simp [heq, List.lookup_cons, beq_eq_false_iff_ne.mpr heq]
      · rw [if_neg hn, List.lookup_cons, List.lookup_cons, ih]
        by_cases heq : name' = n
        · have hne : name' ≠ name := fun h => hn (heq.symm.trans h)
          simp [heq, hn]
        · simp [beq_eq_false_iff_ne.mpr heq]

/-! ## Keys that are texts -/

/-- Only the text itself is the same key as a text. -/
theorem Key.eq_text_of_same {k : Key} {s : String} (h : k.same (.text s) = true) :
    k = .text s := by
  rw [Key.same_iff] at h
  cases k with
  | tuple items => cases h
  | atom a =>
      have hcanon : a.canon = Atom.text s := Key.atom.inj h
      unfold Atom.canon at hcanon
      split at hcanon
      · cases hcanon
      · split at hcanon <;> cases hcanon
      · exact congrArg Key.atom hcanon

/-- Only a text is read as the key that it is. -/
theorem Value.eq_text_of_key? {key : Value} {s : String} (h : key.key? = some (.text s)) :
    key = .text s := by
  cases key with
  | atom a =>
      have hatom : Key.atom a = .text s := by simpa [Value.key?] using h
      exact congrArg Value.atom (Key.atom.inj hatom)
  | node n =>
      rw [Value.key?, Value.fold_node] at h
      split at h
      · obtain ⟨items, -, hitems⟩ := Option.map_eq_some_iff.mp h
        cases hitems
      · cases h

/-- Only a text stands for a number besides the key that it is. -/
theorem Value.exists_text_of_numericKey? {key : Value} {i : Nat}
    (h : key.numericKey? = .ok (some i)) : ∃ s, key = .text s := by
  cases key with
  | node n => cases h
  | atom a =>
      cases a with
      | text s => exact ⟨s, rfl⟩
      | _ => cases h

theorem Value.key?_of_mustBeKey {key : Value} {k : Key} (h : key.mustBeKey = .ok k) :
    key.key? = some k := by
  unfold Value.mustBeKey at h
  split at h
  · rename_i hkey
    obtain rfl := Except.ok.inj h
    exact hkey
  · cases h

theorem Value.eq_text_of_mustBeName {key : Value} {name : String}
    (h : key.mustBeName = .ok name) : key = .text name := by
  unfold Value.mustBeName at h
  split at h
  · obtain rfl := Except.ok.inj h
    rfl
  · cases h

theorem Value.eq_text_of_label? {key : Value} {s : String} (h : key.label? = .ok (.text s)) :
    key = .text s := by
  unfold Value.label? at h
  split at h
  · obtain rfl := Label.text.inj (Except.ok.inj h)
    rfl
  · cases h
  · cases h
  · cases h

theorem Value.eq_bytes_of_label? {key : Value} {bytes : List UInt8}
    (h : key.label? = .ok (.bytes bytes)) : key = .atom (.bytes bytes) := by
  unfold Value.label? at h
  split at h
  · cases h
  · obtain rfl := Label.bytes.inj (Except.ok.inj h)
    rfl
  · cases h
  · cases h

namespace Layer

/-! ## New keys of mappings -/

variable {key : Value} {default : α}

/-- A dictionary finds an entry under its key, or under the number that a text stands for. -/
theorem lookupEntry_dict_eq_some_iff {entries : Table α} {v : α} :
    lookupEntry (.dict entries) key = .ok (some v) ↔
      ∃ k, key.key? = some k ∧ (Table.get? entries k = some v ∨
        Table.get? entries k = none ∧
          ∃ i, key.numericKey? = .ok (some i) ∧ Table.get? entries (.int i) = some v) := by
  have hitem (k : Key) : (Node.dict entries).item? k = Table.get? entries k := rfl
  cases hkey : key.key? with
  | none => simp [lookupEntry, hkey]
  | some k =>
      simp only [lookupEntry, hkey, hitem, Option.some.injEq, exists_eq_left']
      cases Table.get? entries k with
      | some w => simp
      | none =>
          simp only [Except.map_eq_ok_iff, Option.bind_eq_some_iff, reduceCtorEq, false_or, true_and]
          constructor
          · rintro ⟨_, hnumber, i, rfl, hi⟩
            exact ⟨i, hnumber, hi⟩
          · rintro ⟨i, hnumber, hi⟩
            exact ⟨some i, hnumber, i, rfl, hi⟩

/-- **A new key of a dictionary** does not change what is found under other keys: were it the same
as one that is looked up, something would have been found under it as well. -/
theorem lookupEntry_dict_set {entries : Table α} {k : Key} {key' : Value} {v : α}
    (hkey : key.key? = some k) (hnone : lookupEntry (.dict entries) key = .ok none)
    (hv : lookupEntry (.dict entries) key' = .ok (some v)) :
    lookupEntry (.dict (Table.set entries k default)) key' = .ok (some v) := by
  have hnot {w : α} (hw : lookupEntry (.dict entries) key = .ok (some w)) : False := by
    cases hnone.symm.trans hw
  have habsent : Table.get? entries k = none := by
    rw [Option.eq_none_iff_forall_ne_some]
    intro w hw
    exact hnot (lookupEntry_dict_eq_some_iff.mpr ⟨k, hkey, .inl hw⟩)
  have hkept {k' : Key} {w : α} (hw : Table.get? entries k' = some w) :
      Table.get? (Table.set entries k default) k' = some w := by
    rw [Table.set_of_get?_eq_none habsent, Table.get?_append, hw]
    rfl
  have hfound := lookupEntry_dict_eq_some_iff.mp hv
  obtain ⟨k', hkey', hget | ⟨hget, i, hi, hnumber⟩⟩ := hfound
  · exact lookupEntry_dict_eq_some_iff.mpr ⟨k', hkey', .inl (hkept hget)⟩
  · -- Only a text is read as a number, and the new key is another text.
    obtain ⟨s, rfl⟩ := Value.exists_text_of_numericKey? hi
    obtain rfl : k' = .text s := (Option.some.inj hkey').symm
    have hother : k.same (.text s) = false := by
      rw [← Bool.not_eq_true]
      intro hsame
      obtain rfl := Key.eq_text_of_same hsame
      obtain rfl := Value.eq_text_of_key? hkey
      exact hnot hv
    refine lookupEntry_dict_eq_some_iff.mpr ⟨.text s, hkey', .inr ⟨?_, i, hi, hkept hnumber⟩⟩
    rw [Table.get?_set_of_same_eq_false hother, hget]

/-- A caseless map finds something only under a text. -/
theorem lookupEntry_caseless_eq_some_iff {m : CaselessMap α} {v : α} :
    lookupEntry (.caseless m) key = .ok (some v) ↔
      ∃ s, key = .text s ∧ m.get? (.text s) = some v := by
  constructor
  · intro h
    unfold lookupEntry at h
    split at h
    · cases h
    · rename_i k hkey
      split at h
      · rename_i w hitem
        obtain rfl := Option.some.inj (Except.ok.inj h)
        cases k with
        | tuple items => cases hitem
        | atom a =>
            cases a with
            | text s => exact ⟨s, Value.eq_text_of_key? hkey, hitem⟩
            | _ => cases hitem
      · obtain ⟨number, -, hnumber⟩ := Except.map_eq_ok_iff.mp h
        obtain ⟨i, -, hi⟩ := Option.bind_eq_some_iff.mp hnumber
        cases hi
  · rintro ⟨s, rfl, hv⟩
    have hkey : (Value.text s).key? = some (.text s) := rfl
    have hitem : (Node.caseless m).item? (.text s) = some v := hv
    simp only [lookupEntry, hkey, hitem]

/-- **A new label of a caseless map** is not that of a text which finds something. -/
theorem lookupEntry_caseless_set {m : CaselessMap α} (hm : m.Coherent) {label : Label}
    {key' : Value} {v : α} (hlabel : key.label? = .ok label)
    (hnone : lookupEntry (.caseless m) key = .ok none)
    (hv : lookupEntry (.caseless m) key' = .ok (some v)) :
    lookupEntry (.caseless (m.set label default)) key' = .ok (some v) := by
  obtain ⟨s, rfl, hs⟩ := lookupEntry_caseless_eq_some_iff.mp hv
  have hfold : label.fold ≠ (Label.text s).fold := by
    intro hfold
    cases label with
    | bytes bs => cases hfold
    | text t =>
        have hsame : m.get? (.text t) = m.get? (.text s) := by
          unfold CaselessMap.get? CaselessMap.position?
          rw [hfold]
        have hfound : lookupEntry (.caseless m) key = .ok (some v) :=
          lookupEntry_caseless_eq_some_iff.mpr
            ⟨t, Value.eq_text_of_label? hlabel, hsame.trans hs⟩
        cases hnone.symm.trans hfound
  refine lookupEntry_caseless_eq_some_iff.mpr ⟨s, rfl, ?_⟩
  rw [hm.get?_set, if_neg hfold, hs]

/-! ## What belongs to a level -/

/-- The level is an object, and the key names one of the attributes that lookups do not see. -/
def hidesAttribute (l : Layer α) (key : Value) : Bool :=
  match l with
  | .node (.object _) => match key with
    | .atom (.text name) => hiddenName name
    | _ => false
  | _ => false

theorem exists_text_of_hidesAttribute {l : Layer α} {key : Value}
    (h : l.hidesAttribute key = true) :
    ∃ attributes name, l = .node (.object attributes) ∧ key = .text name := by
  unfold hidesAttribute at h
  split at h
  · split at h
    · exact ⟨_, _, rfl, rfl⟩
    · cases h
  · cases h

/-- Why an object refuses to have the attribute of a name set, if it does. -/
def refusal? (l : Layer α) (key : Value) : Option Fault :=
  match l with
  | .node (.object _) => match key with
    | .atom (.text name) => fixedAttribute? name
    | _ => none
  | _ => none

/-- A caseless map takes a byte string as a label, but it is asked for texts only. -/
def overlooks (l : Layer α) (key : Value) : Bool :=
  match l, key with
  | .node (.caseless _), .atom (.bytes _) => true
  | _, _ => false

theorem exists_bytes_of_overlooks {l : Layer α} {key : Value} (h : l.overlooks key = true) :
    ∃ m bytes, l = .node (.caseless m) ∧ key = .atom (.bytes bytes) := by
  unfold overlooks at h
  split at h
  · exact ⟨_, _, rfl, rfl⟩
  · cases h

/-- The levels that a default can be written to under a text. -/
def TakesDefaults : Layer α → Prop
  | .node (.dict _) | .node (.world _) | .node (.caseless _) | .node (.object _) => True
  | _ => False

variable [HoldsAtoms α]

/-- What belongs to a level under a key: what a lookup finds there, but of an object every
attribute, and of an enumeration its members. -/
def own? (l : Layer α) (key : Value) : Except Fault (Option α) :=
  match l with
  | .node (.object attributes) => match key with
    | .atom (.text name) => .ok (attributes.lookup name)
    | _ => .ok none
  | .atom (.enumeration e) => match key with
    | .atom (.text name) =>
      .ok ((e.memberName? name).map fun name => HoldsAtoms.ofAtom (.member e name))
    | _ => .ok none
  | .atom (.member ..) => .ok none
  | l => l.lookup key

/-- A key belongs to a level if something belongs to it there. -/
theorem isOwn_eq_map_own? (l : Layer α) (key : Value) :
    l.isOwn key = (l.own? key).map Option.isSome := by
  cases l with
  | atom a =>
      cases a with
      | enumeration e =>
          cases key with
          | node m => rfl
          | atom k =>
              cases k with
              | text name => simp [isOwn, own?, Except.map]
              | _ => rfl
      | _ => rfl
  | node n =>
      cases n with
      | object attributes =>
          cases key with
          | node m => rfl
          | atom k => cases k <;> rfl
      | _ => rfl

/-- A collection is looked up under a text as far as it does not hide the attribute. -/
theorem lookup_text_eq (n : Node α) (name : String) : (Layer.node n).lookup (.text name) =
    if (Layer.node n).hidesAttribute (.text name) then .ok none
    else (Layer.node n).own? (.text name) := by
  cases n with
  | object attributes =>
      show Except.ok ((Value.text name).publicName?.bind _) = if hiddenName name then _ else _
      have hpublic : (Value.text name).publicName? =
          if hiddenName name then none else some name := rfl
      by_cases hhidden : hiddenName name = true
      · simp [hpublic, hhidden]
      · simp only [hpublic, hhidden]
        rfl
  | _ => rfl

theorem lookup_of_hidesAttribute {l : Layer α} {key : Value} (h : l.hidesAttribute key = true) :
    l.lookup key = .ok none := by
  obtain ⟨attributes, name, rfl, rfl⟩ := exists_text_of_hidesAttribute h
  rw [lookup_text_eq, if_pos h]

/-! ## When a default is written -/

variable {l : Layer α} {n : Node α}

theorem lookup_of_hasKey_eq_false (h : l.hasKey key = .ok false) : l.lookup key = .ok none := by
  obtain ⟨found, hfound, hsome⟩ := Except.map_eq_ok_iff.mp h
  cases found with
  | none => exact hfound
  | some v => cases hsome

theorem withDefault?_of_hasKey [Memory] (h : l.hasKey key = .ok true) (default : α) :
    (l.withDefault? key default).result = .ok none := by
  unfold withDefault?
  rw [Logged.result_bind]
  show (l.hasKey key).bind _ = _
  rw [h]
  rfl

theorem withDefault?_of_fault [Memory] {fault : Fault} (h : l.hasKey key = .error fault)
    (default : α) :
    (l.withDefault? key default).result = .error fault := by
  unfold withDefault?
  rw [Logged.result_bind]
  show (l.hasKey key).bind _ = _
  rw [h]
  rfl

/-- A value has been written under a key of a level. -/
inductive Written (key : Value) (v : α) : Layer α → Node α → Prop where
  | dict {entries : Table α} {k : Key} (hkey : key.key? = some k) :
      Written key v (.node (.dict entries)) (.dict (Table.set entries k v))
  | world {w : World α} {k : Key} (hkey : key.key? = some k) :
      Written key v (.node (.world w)) (.world { w with state := Table.set w.state k v })
  | caseless {m : CaselessMap α} {label : Label} (hlabel : key.label? = .ok label) :
      Written key v (.node (.caseless m)) (.caseless (m.set label v))
  | object {attributes : List (String × α)} {name : String} (hname : key = .text name) :
      Written key v (.node (.object attributes)) (.object (setAttribute attributes name v))

theorem written_of_assign [Memory] (hl : l.TakesDefaults)
    (h : (l.assign key default).result = .ok n) :
    l.Written key default n := by
  cases assigned_of_assign h with
  | dict hkey => exact .dict (Value.key?_of_mustBeKey hkey)
  | world hkey => exact .world (Value.key?_of_mustBeKey hkey)
  | caseless hkey => exact .caseless hkey
  | object hkey hname => exact .object (Value.eq_text_of_mustBeName hkey)
  | list _ _ | buffer _ _ => exact hl.elim

/-- **A default that is set** is written to a collection that can change, under a key where the
collection has nothing. -/
theorem written_of_withDefault? [Memory] (h : (l.withDefault? key default).result = .ok (some n)) :
    l.lookup key = .ok none ∧ l.Written key default n := by
  obtain ⟨found, hfound, h⟩ := Logged.bind_eq_ok_iff.mp h
  have hassign (h : (some <$> l.assign key default).result = .ok (some n)) :
      (l.assign key default).result = .ok n := by
    obtain ⟨m, hm, heq⟩ := Logged.bind_eq_ok_iff.mp h
    obtain rfl := Option.some.inj (Except.ok.inj heq)
    exact hm
  cases found with
  | true => cases h
  | false =>
      refine ⟨lookup_of_hasKey_eq_false hfound, ?_⟩
      simp only [Bool.false_eq_true, if_false] at h
      split at h
      · exact written_of_assign trivial (hassign h)
      · exact written_of_assign trivial (hassign h)
      · exact written_of_assign trivial (hassign h)
      · exact written_of_assign trivial (hassign h)
      · cases h
      · cases h
      · cases h
      · exact absurd (hassign h) (assign_atom_ne_ok _ _ _ _)
      · cases h

omit [HoldsAtoms α] in
/-- The names that an object refuses are hidden from lookups. -/
theorem hidesAttribute_of_refusal? {fault : Fault} (h : l.refusal? key = some fault) :
    l.hidesAttribute key = true := by
  unfold refusal? at h
  split at h
  · split at h
    · unfold fixedAttribute? at h
      split at h
      · rename_i hname
        show hiddenName _ = true
        rw [hname]
        cbv
      · split at h
        · rename_i hname
          show hiddenName _ = true
          rw [hname]
          cbv
        · cases h
    · cases h
  · cases h

/-- Writing under a text fails there only where an object refuses the name. -/
theorem exists_assign_of_takesDefaults [Memory] (hl : l.TakesDefaults) {name : String}
    (hname : l.refusal? (.text name) = none) (default : α) :
    ∃ n, (l.assign (.text name) default).result = .ok n := by
  cases l with
  | atom a => exact hl.elim
  | node m =>
      cases m with
      | dict entries => exact ⟨_, rfl⟩
      | world w => exact ⟨_, rfl⟩
      | caseless m =>
          have hset := m.result_setLogged (.text name) default
          exact ⟨_, Logged.bind_eq_ok_iff.mpr
            ⟨.text name, rfl, Logged.bind_eq_ok_iff.mpr ⟨_, hset, rfl⟩⟩⟩
      | object attributes =>
          have hcheck : checkAttribute name = .ok () := by
            have hfixed : fixedAttribute? name = none := hname
            rw [checkAttribute, hfixed]
          exact ⟨_, Logged.bind_eq_ok_iff.mpr
            ⟨name, rfl, Logged.bind_eq_ok_iff.mpr ⟨(), hcheck, rfl⟩⟩⟩
      | _ => exact hl.elim

theorem withDefault?_of_lookup_eq_none [Memory] (hl : l.TakesDefaults) {name : String}
    (h : l.lookup (.text name) = .ok none) (default : α) :
    (l.withDefault? (.text name) default).result =
      (l.assign (.text name) default).result.map some := by
  have hfound : l.hasKey (.text name) = .ok false := by
    rw [hasKey, h]
    rfl
  have hset : (some <$> l.assign (.text name) default).result =
      (l.assign (.text name) default).result.map some := by
    refine (Logged.result_bind _ _).trans ?_
    cases (l.assign (.text name) default).result <;> rfl
  unfold withDefault?
  rw [Logged.result_bind]
  show (l.hasKey (.text name)).bind _ = _
  rw [hfound, ← hset]
  cases l with
  | atom a => exact hl.elim
  | node m =>
      cases m with
      | dict _ | world _ | caseless _ | object _ => rfl
      | _ => exact hl.elim

/-- **A default is set** wherever the level takes it and has nothing under the text, unless an object
refuses the name. -/
theorem exists_withDefault?_eq_some [Memory] (hl : l.TakesDefaults) {name : String}
    (hname : l.refusal? (.text name) = none) (h : l.lookup (.text name) = .ok none) (default : α) :
    ∃ n, (l.withDefault? (.text name) default).result = .ok (some n) := by
  obtain ⟨n, hn⟩ := exists_assign_of_takesDefaults hl hname default
  exact ⟨n, by rw [withDefault?_of_lookup_eq_none hl h, hn]; rfl⟩

/-- A name that an object refuses is refused for every default. -/
theorem withDefault?_of_refusal? [Memory] {name : String} {fault : Fault}
    (h : l.refusal? (.text name) = some fault) (default : α) :
    (l.withDefault? (.text name) default).result = .error fault := by
  have hlookup := lookup_of_hidesAttribute (hidesAttribute_of_refusal? h)
  obtain ⟨attributes, _, rfl, -⟩ := exists_text_of_hidesAttribute (hidesAttribute_of_refusal? h)
  have hcheck : checkAttribute name = .error fault := by
    have hfixed : fixedAttribute? name = some fault := h
    rw [checkAttribute, hfixed]
  have hassign : ((Layer.node (.object attributes)).assign (.text name) default).result =
      .error fault :=
    Logged.bind_eq_error_iff.mpr (.inr ⟨name, rfl, Logged.bind_eq_error_iff.mpr (.inl hcheck)⟩)
  have htakes : (Layer.node (.object attributes)).TakesDefaults := trivial
  rw [withDefault?_of_lookup_eq_none htakes hlookup, hassign]
  rfl

theorem refusal?_of_withDefault? [Memory] {name : String}
    (h : (l.withDefault? (.text name) default).result = .ok (some n)) :
    l.refusal? (.text name) = none := by
  cases hrefusal : l.refusal? (.text name) with
  | none => rfl
  | some fault => cases (withDefault?_of_refusal? hrefusal default).symm.trans h

/-! ## What a default leaves alone -/

/-- **What a default leaves alone**: all that belongs to the level, except a hidden attribute that
the default is for. -/
theorem WellMade.own?_of_withDefault? [Memory] (hl : l.WellMade)
    (h : (l.withDefault? key default).result = .ok (some n)) {key' : Value} {v : α}
    (hv : l.own? key' = .ok (some v)) (hother : l.hidesAttribute key = true → key' ≠ key) :
    (Layer.node n).own? key' = .ok (some v) := by
  obtain ⟨hnone, hwritten⟩ := written_of_withDefault? h
  cases hwritten with
  | dict hkey => exact lookupEntry_dict_set hkey hnone hv
  | world hkey => exact lookupEntry_dict_set hkey hnone hv
  | caseless hlabel => exact lookupEntry_caseless_set (hl _ rfl rfl) hlabel hnone hv
  | @object attributes name hname =>
      subst hname
      cases key' with
      | node m => cases hv
      | atom a =>
          cases a with
          | text name' =>
              have hne : name' ≠ name := by
                rintro rfl
                -- The attribute is there and is not looked up, so it is hidden.
                have hlookup := lookup_text_eq (.object attributes) name'
                rw [hnone] at hlookup
                by_cases hhidden :
                    (Layer.node (.object attributes)).hidesAttribute (.text name') = true
                · exact hother hhidden rfl
                · rw [if_neg hhidden] at hlookup
                  cases hlookup.trans hv
              show Except.ok ((setAttribute attributes name default).lookup name') = _
              rw [lookup_setAttribute, if_neg hne]
              exact hv
          | _ => cases hv

/-- **What has been written belongs to the level** under its key, except in a caseless map under a
byte string. -/
theorem WellMade.own?_self_of_written (hl : l.WellMade) (h : l.Written key default n)
    (hkey : l.overlooks key = false) : (Layer.node n).own? key = .ok (some default) := by
  cases h with
  | dict hk => exact lookupEntry_dict_eq_some_iff.mpr ⟨_, hk, .inl (Table.get?_set_self ..)⟩
  | world hk => exact lookupEntry_dict_eq_some_iff.mpr ⟨_, hk, .inl (Table.get?_set_self ..)⟩
  | @caseless m label hlabel =>
      have hcoherent : m.Coherent := hl _ rfl rfl
      cases label with
      | text s =>
          obtain rfl := Value.eq_text_of_label? hlabel
          have hget : (m.set (.text s) default).get? (.text s) = some default := by
            rw [hcoherent.get?_set, if_pos rfl]
          exact lookupEntry_caseless_eq_some_iff.mpr ⟨s, rfl, hget⟩
      | bytes bs =>
          obtain rfl := Value.eq_bytes_of_label? hlabel
          cases hkey
  | @object attributes name hname =>
      subst hname
      show Except.ok ((setAttribute attributes name default).lookup name) = _
      rw [lookup_setAttribute, if_pos rfl]

/-- **What belongs to the level afterwards** under a text that a default has been set for. -/
theorem WellMade.own?_self_of_withDefault? [Memory] (hl : l.WellMade) {name : String}
    (h : (l.withDefault? (.text name) default).result = .ok (some n)) :
    (Layer.node n).own? (.text name) = .ok (some default) := by
  refine hl.own?_self_of_written (written_of_withDefault? h).2 ?_
  unfold overlooks
  split
  · rename_i heq
    cases heq
  · rfl

omit [HoldsAtoms α] in
/-- A level that a value has been written to is as it is made. -/
theorem WellMade.of_written (hl : l.WellMade) (h : l.Written key default n) :
    (Layer.node n).WellMade := by
  intro m hm hmapping
  obtain rfl := Layer.node.inj hm
  cases h with
  | @dict entries k =>
      have hdistinct : Table.Distinct entries := hl _ rfl rfl
      exact hdistinct.set k default
  | @world w k =>
      have hdistinct : Table.Distinct w.state := hl _ rfl rfl
      exact hdistinct.set k default
  | @caseless m label =>
      have hcoherent : m.Coherent := hl _ rfl rfl
      exact CaselessMap.coherent_set hcoherent label default
  | object => cases hmapping

/-- A level that a default has been written to is as it is made. -/
theorem WellMade.of_withDefault? [Memory] (hl : l.WellMade)
    (h : (l.withDefault? key default).result = .ok (some n)) : (Layer.node n).WellMade :=
  hl.of_written (written_of_withDefault? h).2

/-- A default does not change the kind of a level. -/
theorem hidesAttribute_of_withDefault? [Memory]
    (h : (l.withDefault? key default).result = .ok (some n))
    (key' : Value) : (Layer.node n).hidesAttribute key' = l.hidesAttribute key' := by
  cases (written_of_withDefault? h).2 <;> rfl

theorem refusal?_node_of_withDefault? [Memory]
    (h : (l.withDefault? key default).result = .ok (some n))
    (key' : Value) : (Layer.node n).refusal? key' = l.refusal? key' := by
  cases (written_of_withDefault? h).2 <;> rfl

/-- What is found under a text is found there still: no lookup sees a hidden attribute. -/
theorem WellMade.lookup_of_withDefault? [Memory] (hl : l.WellMade)
    (h : (l.withDefault? key default).result = .ok (some n)) {name : String} {v : α}
    (hv : l.lookup (.text name) = .ok (some v)) :
    (Layer.node n).lookup (.text name) = .ok (some v) := by
  obtain ⟨hnone, hwritten⟩ := written_of_withDefault? h
  have hne : Value.text name ≠ key := by
    rintro rfl
    cases hnone.symm.trans hv
  obtain ⟨m, rfl⟩ : ∃ m, l = .node m := by
    cases hwritten <;> exact ⟨_, rfl⟩
  have hsame := hidesAttribute_of_withDefault? h (.text name)
  rw [lookup_text_eq] at hv ⊢
  rw [hsame]
  by_cases hhidden : (Layer.node m).hidesAttribute (.text name) = true
  · rw [if_pos hhidden] at hv
    cases hv
  · rw [if_neg hhidden] at hv ⊢
    exact hl.own?_of_withDefault? h hv fun _ => hne

end Layer

end LooseData
