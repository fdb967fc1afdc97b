import LooseData.Proofs.Json.Data

set_option autoImplicit false

/-! # A document is longer than the text that it holds

A document that holds a text is that text between quotes, where every character takes up at least
one character of the document (`length_readString`). So decoding makes a text shorter
(`length_lt_of_ofText`), and a text that is a document never holds itself: decoding leaves a value
alone only if the value is no document (`decodeText_eq_self_iff`).
-/

namespace LooseData

/-- A text that is a JSON document. -/
def Value.IsDocument (v : Value) : Prop := ∃ s w, v = .text s ∧ Json.ofText s = .ok w

namespace Json

variable {dialect : Dialect} {cs rest : List Char} {t : String}

/-- One induction along the reader: whatever an escape takes up, it stands for one character. -/
theorem length_readString {start text : List Char} {used : Nat}
    (h : readString start used cs = .ok (text, rest)) : text.length + rest.length < cs.length := by
  have hprecede {c : Char} {read : Read (List Char)} {ahead text : List Char}
      (ih : ∀ {text}, read = .ok (text, rest) → text.length + rest.length < ahead.length)
      (h : precede c read = .ok (text, rest)) : text.length + rest.length < ahead.length + 1 := by
    obtain ⟨⟨text', rest'⟩, hread, heq⟩ := Except.map_eq_ok_iff.mp h
    obtain ⟨rfl, rfl⟩ := Prod.mk.inj heq
    have hshorter := ih hread
    rw [List.length_cons]
    omega
  fun_induction readString start used cs generalizing text with
  | case1 => cases h
  | case2 used c ahead ih =>
      have hshorter := ih h
      rw [List.length_cons]
      omega
  | case3 ahead =>
      obtain ⟨rfl, rfl⟩ := Prod.mk.inj (Except.ok.inj h)
      simp
  | case4 ahead c used hescape ih => exact hprecede ih h
  | case5 => cases h
  | case6 => cases h
  | case7 c ahead _ _ _ ih => exact hprecede ih h

/-- What is not written between quotes is no text. -/
theorem ne_text_of_readScalar : readScalar dialect cs ≠ .ok (.text t, rest) := by
  intro h
  unfold readScalar at h
  split at h
  · rename_i hnamed
    obtain ⟨entry, hentry, hafter⟩ := List.exists_of_findSome?_eq_some hnamed
    obtain ⟨_, -, heq⟩ := Option.map_eq_some_iff.mp hafter
    obtain ⟨rfl, -⟩ := Prod.mk.inj heq
    have hnames : ∀ entry ∈ names, entry.2 ≠ .text t := by
      simp only [names, List.forall_mem_cons]
      refine ⟨?_, ?_, ?_, List.forall_mem_nil _⟩ <;> rintro ⟨⟩
    exact hnames _ hentry (Prod.mk.inj (Except.ok.inj h)).1
  · split at h
    · cases h
    · cases h
  · revert h
    -- Every number that is read is a double or whole.
    fun_cases readNumber cs with
    | _ => rintro ⟨⟩

theorem length_readValue {depth : Nat} (h : readValue dialect depth cs = .ok (.text t, rest)) :
    t.toList.length + 2 ≤ cs.length := by
  cases depth with
  | zero => cases h
  | succ depth =>
      unfold readValue at h
      split at h
      · obtain ⟨⟨text, rest'⟩, hread, heq⟩ := Except.map_eq_ok_iff.mp h
        obtain ⟨htext, rfl⟩ := Prod.mk.inj heq
        cases htext
        have hshorter := length_readString hread
        rw [String.toList_ofList, List.length_cons]
        omega
      · split at h
        · cases h
        · obtain ⟨_, -, heq⟩ := Except.map_eq_ok_iff.mp h
          cases heq
      · split at h
        · cases h
        · obtain ⟨_, -, heq⟩ := Except.map_eq_ok_iff.mp h
          cases heq
      · exact absurd h ne_text_of_readScalar

/-- **Decoding makes a text shorter.** -/
theorem length_lt_of_ofText {s : String} (h : ofText s = .ok (.text t)) :
    t.toList.length < s.toList.length := by
  obtain ⟨ahead, hvalue, -⟩ := exists_ahead_of_ofTextIn h
  have hlength := length_readValue hvalue
  have hblanks : (skipBlanks s.toList).length ≤ s.toList.length :=
    (List.dropWhile_sublist _).length_le
  omega

theorem ofText_ne_self (s : String) : ofText s ≠ .ok (.text s) :=
  fun h => Nat.lt_irrefl _ (length_lt_of_ofText h)

theorem decodeText_of_ofText {s : String} {w : Value} (h : ofText s = .ok w) :
    decodeText (.text s) = w := by
  show (ofText s).toOption.getD _ = w
  rw [h]
  rfl

/-- **Decoding leaves a value alone** exactly if it is no document. -/
theorem decodeText_eq_self_iff {v : Value} : decodeText v = v ↔ ¬ v.IsDocument := by
  constructor
  · rintro h ⟨s, w, rfl, hs⟩
    obtain rfl : w = .text s := (decodeText_of_ofText hs).symm.trans h
    exact ofText_ne_self s hs
  · intro h
    unfold decodeText
    split
    · rename_i s
      cases hs : ofText s with
      | error fault => rfl
      | ok w => exact absurd ⟨s, w, rfl, hs⟩ h
    · rfl

/-- A mapping or a list is no text that could be decoded. -/
theorem decodeText_of_isCollection {v : Value} (h : v.isCollection = true) : decodeText v = v := by
  rw [decodeText_eq_self_iff]
  rintro ⟨s, w, rfl, -⟩
  cases h

end Json

end LooseData
