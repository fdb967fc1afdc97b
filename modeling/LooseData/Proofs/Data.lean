import LooseData.Number.Coercion
import LooseData.Proofs.Layer.Contents

set_option autoImplicit false

/-! # Data

Data are what documents consist of: null, booleans, numbers and texts, and lists and dictionaries
of data. A value that has a form in JSON (`Value.IsJson`) is data whose dictionaries have different
texts as keys. Numbers have attributes, and some of these are methods, so that looking into data can
end at a method (`Value.OrMethod`), though at nothing else: both are kept by whatever looks into a
value and reads documents in it, because they go over to the contents and hold of what documents hold
(`Value.Hereditary`).
-/

namespace LooseData

/-- A text is read as a whole number or as a double. -/
theorem Numeral.ofTrimmed_eq (cs : List Char) :
    (∃ i, Numeral.ofTrimmed cs = .int i) ∨ ∃ d, Numeral.ofTrimmed cs = .double d := by
  unfold Numeral.ofTrimmed
  dsimp only
  split
  · exact .inr ⟨_, rfl⟩
  · split
    · exact .inl ⟨_, rfl⟩
    · split
      · cases Numeral.literal? cs with
        | none => exact .inr ⟨_, rfl⟩
        | some i => exact .inl ⟨i, rfl⟩
      · split
        · exact .inr ⟨_, rfl⟩
        · exact .inr ⟨_, rfl⟩

namespace Value

/-- A value that consists of dictionaries, lists, texts, numbers, booleans and null. -/
inductive IsData : Value → Prop where
  | null : IsData .null
  | bool (b : Bool) : IsData (.bool b)
  | int (i : Int) : IsData (.int i)
  | double (d : Double) : IsData (.double d)
  | text (s : String) : IsData (.text s)
  | list {items : List Value} (h : ∀ v ∈ items, IsData v) : IsData (.list items)
  | dict {entries : Table Value} (h : ∀ v ∈ entries.map Prod.snd, IsData v) :
      IsData (.dict entries)

/-- A value that has a form in JSON. The infinities and NaNs are among the doubles. -/
inductive IsJson : Value → Prop where
  | null : IsJson .null
  | bool (b : Bool) : IsJson (.bool b)
  | int (i : Int) : IsJson (.int i)
  | double (d : Double) : IsJson (.double d)
  | text (s : String) : IsJson (.text s)
  | list {items : List Value} (h : ∀ v ∈ items, IsJson v) : IsJson (.list items)
  | dict {entries : Table Value} (hdistinct : entries.Distinct)
      (hkeys : ∀ e ∈ entries, ∃ s, e.1 = .text s) (h : ∀ v ∈ entries.map Prod.snd, IsJson v) :
      IsJson (.dict entries)

theorem IsJson.isData {v : Value} (h : v.IsJson) : v.IsData := by
  induction h with
  | null => exact .null
  | bool b => exact .bool b
  | int i => exact .int i
  | double d => exact .double d
  | text s => exact .text s
  | list _ ih => exact .list ih
  | dict _ _ _ ih => exact .dict ih

theorem IsJson.emptyDict : IsJson (.dict []) :=
  .dict .nil (List.forall_mem_nil _) (List.forall_mem_nil _)

/-- A value with a property, or a method. -/
def OrMethod (P : Value → Prop) (v : Value) : Prop := P v ∨ ∃ m, v = .method m

/-- A property of data that texts and numbers have, that goes over to the contents of a value, and
that holds of whatever a document holds. -/
structure Hereditary (P : Value → Prop) : Prop where
  isData : ∀ {v}, P v → v.IsData
  null : P .null
  bool : ∀ b, P (.bool b)
  int : ∀ i, P (.int i)
  double : ∀ d, P (.double d)
  text : ∀ s, P (.text s)
  emptyDict : P (.dict [])
  item : ∀ {items}, P (.list items) → ∀ v ∈ items, P v
  value : ∀ {entries}, P (.dict entries) → ∀ v ∈ entries.map Prod.snd, P v
  document : ∀ {s v}, Json.ofText s = .ok v → P v

variable {P : Value → Prop}

theorem orMethod_of_mem_methods {receiver : Receiver} {names : List String} {e : String × Atom}
    (h : e ∈ Atom.methods receiver names) : OrMethod P (.atom e.2) := by
  obtain ⟨name, -, rfl⟩ := List.mem_map.mp h
  exact .inr ⟨_, rfl⟩

theorem Hereditary.of_mem_intAttributes (hP : Hereditary P) {receiver : Receiver} {kind : String}
    {i : Int} {e : String × Atom} (h : e ∈ Atom.intAttributes receiver kind i) :
    OrMethod P (.atom e.2) := by
  rcases List.mem_append.mp h with h | h
  · rcases List.mem_append.mp h with h | h
    · simp only [List.mem_cons, List.not_mem_nil, or_false] at h
      rcases h with rfl | rfl | rfl | rfl <;> exact .inl (hP.int _)
    · exact orMethod_of_mem_methods h
  · exact orMethod_of_mem_methods h

theorem Hereditary.of_mem_doubleAttributes (hP : Hereditary P) {d : Double} {e : String × Atom}
    (h : e ∈ Atom.doubleAttributes d) : OrMethod P (.atom e.2) := by
  rcases List.mem_append.mp h with h | h
  · rcases List.mem_append.mp h with h | h
    · simp only [List.mem_cons, List.not_mem_nil, or_false] at h
      rcases h with rfl | rfl <;> exact .inl (hP.double _)
    · exact orMethod_of_mem_methods h
  · exact orMethod_of_mem_methods h

/-- The attributes of numbers are numbers and methods, and nothing else among data has any. -/
theorem Hereditary.attribute (hP : Hereditary P) {a b : Atom} (ha : OrMethod P (.atom a))
    {name : String} (h : a.attribute? name = some b) : OrMethod P (.atom b) := by
  have hmem {attributes : List (String × Atom)} (hname : attributes.lookup name = some b) :
      ∃ e ∈ attributes, e.2 = b := by
    obtain ⟨front, back, rfl, -⟩ := List.lookup_eq_some_iff.mp hname
    exact ⟨(name, b), by simp, rfl⟩
  rcases ha with ha | ⟨m, hm⟩
  · cases hP.isData ha with
    | bool _ | int _ =>
        obtain ⟨e, he, rfl⟩ := hmem h
        exact hP.of_mem_intAttributes he
    | double _ =>
        obtain ⟨e, he, rfl⟩ := hmem h
        exact hP.of_mem_doubleAttributes he
    | null | text _ => cases h
  · obtain rfl := Value.atom.inj hm
    cases h

/-- What a lookup finds is a content, a character of a text, or an attribute. -/
theorem Hereditary.access (hP : Hereditary P) {v key w : Value} (h : v.OrMethod P)
    (hw : v.access key = .ok w) : w.OrMethod P := by
  unfold Value.access Layer.access at hw
  dsimp only at hw
  split at hw
  · obtain rfl := Except.ok.inj hw
    exact .inl hP.null
  · obtain ⟨found, hfound, rfl⟩ := Except.map_eq_ok_iff.mp hw
    cases found with
    | none => exact .inl hP.null
    | some w =>
        show w.OrMethod P
        have hattribute {a : Atom} (ha : OrMethod P (.atom a))
            (hfound : Except.ok ((key.publicName?.bind a.attribute?).map HoldsAtoms.ofAtom) =
              (Except.ok (some w) : Except Fault _)) : w.OrMethod P := by
          obtain ⟨b, hb, rfl⟩ := Option.map_eq_some_iff.mp (Except.ok.inj hfound)
          obtain ⟨name, -, hname⟩ := Option.bind_eq_some_iff.mp hb
          exact hP.attribute ha hname
        rcases h with hv | ⟨m, rfl⟩
        · cases hP.isData hv with
          | text s =>
              obtain ⟨i, -, hi⟩ := Except.map_eq_ok_iff.mp hfound
              obtain ⟨i, -, hi⟩ := Option.bind_eq_some_iff.mp hi
              obtain ⟨c, -, rfl⟩ := List.mem_map.mp (List.mem_of_getElem? hi)
              exact .inl (hP.text _)
          | list _ =>
              obtain ⟨i, -, hi⟩ := Except.map_eq_ok_iff.mp hfound
              obtain ⟨i, -, hi⟩ := Option.bind_eq_some_iff.mp hi
              exact .inl (hP.item hv w (List.mem_of_getElem? hi))
          | dict _ => exact .inl (Layer.Forall.lookupEntry (hP.value hv) hfound)
          | _ => exact hattribute (.inl hv) hfound
        · exact hattribute (.inr ⟨m, rfl⟩) hfound

/-- The number that a value counts as is whole or a double. -/
theorem toNumber_eq (v : Value) : (∃ i, v.toNumber = .int i) ∨ ∃ d, v.toNumber = .double d := by
  unfold toNumber
  split
  · exact .inl ⟨_, rfl⟩
  · exact .inl ⟨_, rfl⟩
  · exact .inl ⟨_, rfl⟩
  · exact .inr ⟨_, rfl⟩
  · dsimp only
    split
    · exact .inl ⟨_, rfl⟩
    · exact Numeral.ofTrimmed_eq _
  · exact .inr ⟨_, rfl⟩

theorem Hereditary.toNumber (hP : Hereditary P) (v : Value) : P v.toNumber := by
  rcases v.toNumber_eq with ⟨i, h⟩ | ⟨d, h⟩
  · rw [h]
    exact hP.int i
  · rw [h]
    exact hP.double d

/-- The number that a value counts as can be rounded. -/
theorem exists_roundHalfUp_toNumber (v : Value) :
    ∃ w, v.toNumber.roundHalfUp = .ok w ∧ ((∃ i, w = .int i) ∨ ∃ d, w = .double d) := by
  rcases v.toNumber_eq with ⟨i, h⟩ | ⟨d, h⟩
  · exact ⟨.int i, by rw [h]; rfl, .inl ⟨i, rfl⟩⟩
  · rw [h]
    cases d with
    | finite negative rank => exact ⟨_, rfl, .inl ⟨_, rfl⟩⟩
    | infinite negative => exact ⟨_, rfl, .inr ⟨_, rfl⟩⟩
    | nan payload => exact ⟨_, rfl, .inr ⟨_, rfl⟩⟩

end Value

end LooseData
