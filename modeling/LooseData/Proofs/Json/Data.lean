import LooseData.Json.Reader
import LooseData.Proofs.Data

set_option autoImplicit false

/-! # What JSON documents hold

One induction over the depth goes through the three readers together: what is read as a value has a
form in JSON, and so have the items of an array and the values of the members of an object, which
are set in a table one after another. So what a document holds is data (`isData_ofText`), and data
are kept by reading documents in them (`hereditary_isData`, `hereditary_isJson`).
-/

namespace LooseData.Json

variable {dialect : Dialect} {cs ahead : List Char} {v : Value}

/-- A number with a fraction or an exponent is a double, and one without is whole. -/
theorem isJson_of_readNumber (h : readNumber cs = .ok (v, ahead)) : v.IsJson := by
  revert h
  fun_cases readNumber cs with
  | case1 => exact nofun
  | case2 =>
      rintro ⟨⟩
      exact .double _
  | case3 =>
      rintro ⟨⟩
      exact .double _
  | case4 => exact nofun
  | case5 =>
      rintro ⟨⟩
      exact .int _

/-- The names of values are names of data. -/
theorem isJson_of_mem_names : ∀ entry ∈ names, entry.2.IsJson := by
  simp only [names, List.forall_mem_cons]
  exact ⟨.null, .bool true, .bool false, nofun⟩

theorem isJson_of_readScalar (h : readScalar dialect cs = .ok (v, ahead)) : v.IsJson := by
  unfold readScalar at h
  split at h
  · rename_i hnamed
    obtain ⟨rfl, -⟩ := Prod.mk.inj (Except.ok.inj h)
    obtain ⟨entry, hentry, hafter⟩ := List.exists_of_findSome?_eq_some hnamed
    obtain ⟨_, -, heq⟩ := Option.map_eq_some_iff.mp hafter
    obtain ⟨rfl, -⟩ := Prod.mk.inj heq
    exact isJson_of_mem_names _ hentry
  · split at h
    · cases h
    · obtain ⟨rfl, -⟩ := Prod.mk.inj (Except.ok.inj h)
      exact .double _
  · exact isJson_of_readNumber h

/-- Setting a text in a dictionary that has a form in JSON. -/
theorem isJson_set {table : Table Value} (h : (Value.dict table).IsJson) (s : String)
    (hv : v.IsJson) : (Value.dict (table.set (.text s) v)).IsJson := by
  cases h with
  | dict hdistinct hkeys hvalues =>
      refine .dict (hdistinct.set _ _) (fun e he => ?_) fun w hw => ?_
      · rcases Table.key_of_mem_set he with heq | ⟨d, hd, heq⟩
        · exact ⟨s, heq⟩
        · obtain ⟨t, ht⟩ := hkeys d hd
          exact ⟨t, heq.trans ht⟩
      · rcases Table.mem_of_mem_set hw with rfl | hw
        · exact hv
        · exact hvalues w hw

/-- Entries under texts that all have a form in JSON. -/
def JsonEntries (entries : List (Key × Value)) : Prop :=
  ∀ e ∈ entries, (∃ s, e.1 = .text s) ∧ e.2.IsJson

/-- A table that is made of such entries has a form in JSON. -/
theorem JsonEntries.isJson {entries : List (Key × Value)} (h : JsonEntries entries) :
    (Value.dict (Table.ofList entries)).IsJson := by
  refine List.foldlRecOn (motive := fun t => (Value.dict t).IsJson) entries _ .emptyDict ?_
  intro t ht e he
  obtain ⟨⟨s, hs⟩, hv⟩ := h e he
  rw [hs]
  exact isJson_set ht s hv

/-- The three readers at one depth read what has a form in JSON. -/
structure ReadJson (dialect : Dialect) (depth : Nat) : Prop where
  value : ∀ cs v ahead, readValue dialect depth cs = .ok (v, ahead) → v.IsJson
  items : ∀ cs items ahead, readItems dialect depth cs = .ok (items, ahead) →
    ∀ v ∈ items, v.IsJson
  members : ∀ cs members ahead, readMembers dialect depth cs = .ok (members, ahead) →
    JsonEntries members

theorem ReadJson.value_succ {depth : Nat} (ih : ReadJson dialect depth) :
    readValue dialect (depth + 1) cs = .ok (v, ahead) → v.IsJson := by
  intro h
  unfold readValue at h
  split at h
  · obtain ⟨read, -, heq⟩ := Except.map_eq_ok_iff.mp h
    obtain ⟨rfl, -⟩ := Prod.mk.inj heq
    exact .text _
  · split at h
    · obtain ⟨rfl, -⟩ := Prod.mk.inj (Except.ok.inj h)
      exact .list (List.forall_mem_nil _)
    · obtain ⟨⟨items, rest⟩, hread, heq⟩ := Except.map_eq_ok_iff.mp h
      obtain ⟨rfl, -⟩ := Prod.mk.inj heq
      exact .list (ih.items _ _ _ hread)
  · split at h
    · obtain ⟨rfl, -⟩ := Prod.mk.inj (Except.ok.inj h)
      exact .emptyDict
    · obtain ⟨⟨members, rest⟩, hread, heq⟩ := Except.map_eq_ok_iff.mp h
      obtain ⟨rfl, -⟩ := Prod.mk.inj heq
      exact (ih.members _ _ _ hread).isJson
  · exact isJson_of_readScalar h

theorem ReadJson.items_succ {depth : Nat} (ih : ReadJson dialect depth) {items : List Value}
    (h : readItems dialect (depth + 1) cs = .ok (items, ahead)) : ∀ v ∈ items, v.IsJson := by
  unfold readItems at h
  obtain ⟨⟨v, rest⟩, hv, h⟩ := Except.bind_eq_ok_iff.mp h
  have hjson := ih.value _ _ _ hv
  dsimp only at h
  split at h
  · obtain ⟨rfl, -⟩ := Prod.mk.inj (Except.ok.inj h)
    exact List.forall_mem_singleton.mpr hjson
  · obtain ⟨⟨others, rest⟩, hothers, h⟩ := Except.bind_eq_ok_iff.mp h
    obtain ⟨rfl, -⟩ := Prod.mk.inj (Except.ok.inj h)
    exact List.forall_mem_cons.mpr ⟨hjson, ih.items _ _ _ hothers⟩
  · cases h

theorem ReadJson.members_succ {depth : Nat} (ih : ReadJson dialect depth)
    {members : List (Key × Value)}
    (h : readMembers dialect (depth + 1) cs = .ok (members, ahead)) : JsonEntries members := by
  unfold readMembers at h
  split at h
  · obtain ⟨⟨name, rest⟩, -, h⟩ := Except.bind_eq_ok_iff.mp h
    dsimp only at h
    split at h
    · obtain ⟨⟨v, rest⟩, hv, h⟩ := Except.bind_eq_ok_iff.mp h
      have hjson : (∃ s, Key.text (String.ofList name) = .text s) ∧ v.IsJson :=
        ⟨⟨_, rfl⟩, ih.value _ _ _ hv⟩
      dsimp only at h
      split at h
      · obtain ⟨rfl, -⟩ := Prod.mk.inj (Except.ok.inj h)
        exact List.forall_mem_singleton.mpr hjson
      · obtain ⟨⟨others, rest⟩, hothers, h⟩ := Except.bind_eq_ok_iff.mp h
        obtain ⟨rfl, -⟩ := Prod.mk.inj (Except.ok.inj h)
        exact List.forall_mem_cons.mpr ⟨hjson, ih.members _ _ _ hothers⟩
      · cases h
    · cases h
  · cases h

theorem readJson (dialect : Dialect) (depth : Nat) : ReadJson dialect depth := by
  induction depth with
  | zero => exact ⟨nofun, nofun, nofun⟩
  | succ depth ih =>
      exact ⟨fun _ _ _ => ih.value_succ, fun _ _ _ => ih.items_succ,
        fun _ _ _ => ih.members_succ⟩

/-- A document is one value with blanks around it. -/
theorem exists_ahead_of_ofTextIn {s : String} (h : ofTextIn dialect s = .ok v) :
    ∃ ahead, readValue dialect (2 * s.toList.length + 2) (skipBlanks s.toList) = .ok (v, ahead) ∧
      skipBlanks ahead = [] := by
  unfold ofTextIn at h
  split at h
  · cases h
  · unfold ofChars at h
    cases hread : readDocument dialect s.toList with
    | error stop =>
        rw [hread] at h
        cases h
    | ok w =>
        rw [hread] at h
        obtain rfl : w = v := Except.ok.inj h
        obtain ⟨⟨w', ahead⟩, hvalue, hend⟩ := Except.bind_eq_ok_iff.mp hread
        dsimp only at hend
        split at hend
        · rename_i hblanks
          obtain rfl := Except.ok.inj hend
          exact ⟨ahead, hvalue, hblanks⟩
        · cases hend

theorem isJson_ofTextIn {s : String} (h : ofTextIn dialect s = .ok v) : v.IsJson := by
  obtain ⟨ahead, hvalue, -⟩ := exists_ahead_of_ofTextIn h
  exact (readJson dialect _).value _ _ _ hvalue

/-- **A document holds data.** -/
theorem isData_ofText {s : String} (h : ofText s = .ok v) : v.IsData := (isJson_ofTextIn h).isData

theorem hereditary_isData : Value.Hereditary Value.IsData where
  isData := id
  null := .null
  bool := .bool
  int := .int
  double := .double
  text := .text
  emptyDict := Value.IsJson.emptyDict.isData
  item := fun h => by
    cases h with
    | list hitems => exact hitems
  value := fun h => by
    cases h with
    | dict hvalues => exact hvalues
  document := isData_ofText

theorem hereditary_isJson : Value.Hereditary Value.IsJson where
  isData := Value.IsJson.isData
  null := .null
  bool := .bool
  int := .int
  double := .double
  text := .text
  emptyDict := .emptyDict
  item := fun h => by
    cases h with
    | list hitems => exact hitems
  value := fun h => by
    cases h with
    | dict _ _ hvalues => exact hvalues
  document := isJson_ofTextIn

theorem decodeText_hereditary {P : Value → Prop} (hP : Value.Hereditary P) (h : v.OrMethod P) :
    (decodeText v).OrMethod P := by
  unfold decodeText
  split
  · rename_i s
    cases hread : ofText s with
    | error fault => exact h
    | ok w => exact .inl (hP.document hread)
  · exact h

theorem Stop.fault_of_toFault {document : List Char} {stop : Stop} {fault : Fault}
    (h : stop.toFault document = fault) :
    (∃ failure, fault = .json failure) ∨ ∃ digits, fault = .numeralTooLong digits := by
  subst h
  cases stop with
  | wrong problem ahead => exact .inl ⟨_, rfl⟩
  | constant name => exact .inl ⟨_, rfl⟩
  | numeralTooLong digits => exact .inr ⟨_, rfl⟩

theorem fault_of_ofChars {fault : Fault} (h : ofChars dialect cs = .error fault) :
    (∃ failure, fault = .json failure) ∨ ∃ digits, fault = .numeralTooLong digits := by
  unfold ofChars at h
  cases hread : readDocument dialect cs with
  | error stop =>
      rw [hread] at h
      exact Stop.fault_of_toFault (Except.error.inj h)
  | ok w =>
      rw [hread] at h
      cases h

/-- A text that is no document is malformed, or it holds a whole number with too many digits. -/
theorem fault_of_ofText {s : String} {fault : Fault} (h : ofText s = .error fault) :
    (∃ failure, fault = .json failure) ∨ ∃ digits, fault = .numeralTooLong digits := by
  unfold ofText ofTextIn at h
  split at h
  · exact Stop.fault_of_toFault (Except.error.inj h)
  · exact fault_of_ofChars h

/-- What cannot be decoded is no document, or it is neither a text nor bytes that are one. -/
theorem fault_of_decode {fault : Fault} (h : decode v = .error fault) :
    ((∃ failure, fault = .json failure) ∨ ∃ digits, fault = .numeralTooLong digits) ∨
      fault = .undecodable ∨ fault = .notJsonText := by
  have hbytes {bytes : List UInt8} (h : ofBytes bytes = .error fault) :
      ((∃ failure, fault = .json failure) ∨ ∃ digits, fault = .numeralTooLong digits) ∨
        fault = .undecodable ∨ fault = .notJsonText := by
    unfold ofBytes at h
    split at h
    · exact .inl (fault_of_ofChars h)
    · exact .inr (.inl (Except.error.inj h).symm)
  unfold decode at h
  split at h
  · exact .inl (fault_of_ofText h)
  · exact hbytes h
  · exact hbytes h
  · exact .inr (.inr (Except.error.inj h).symm)

end LooseData.Json
