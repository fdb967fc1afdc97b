import LooseData.Logged
import Mathlib.Data.List.Forall2

set_option autoImplicit false

/-! # Values and faults of sequences

A sequence ends with a value if all its parts do, and with a fault if one part does after the parts
before it have given values.
-/

namespace LooseData

variable {ε α β : Type}

theorem Except.map_eq_ok_iff {x : Except ε α} {f : α → β} {b : β} :
    x.map f = .ok b ↔ ∃ a, x = .ok a ∧ f a = b := by
  cases x with
  | error fault => exact ⟨nofun, fun ⟨_, h, _⟩ => nomatch h⟩
  | ok a =>
      constructor
      · intro h
        exact ⟨a, rfl, Except.ok.inj h⟩
      · rintro ⟨_, ⟨⟩, rfl⟩
        rfl

theorem Except.map_eq_error_iff {x : Except ε α} {f : α → β} {fault : ε} :
    x.map f = .error fault ↔ x = .error fault := by
  cases x with
  | error fault' =>
      constructor
      · rintro ⟨⟩
        rfl
      · rintro ⟨⟩
        rfl
  | ok a => exact ⟨nofun, nofun⟩

theorem Except.bind_eq_ok_iff {x : Except ε α} {f : α → Except ε β} {b : β} :
    x.bind f = .ok b ↔ ∃ a, x = .ok a ∧ f a = .ok b := by
  cases x with
  | error fault => exact ⟨nofun, fun ⟨_, h, _⟩ => nomatch h⟩
  | ok a =>
      constructor
      · intro h
        exact ⟨a, rfl, h⟩
      · rintro ⟨_, ⟨⟩, h⟩
        exact h

theorem Except.bind_eq_error_iff {x : Except ε α} {f : α → Except ε β} {fault : ε} :
    x.bind f = .error fault ↔ x = .error fault ∨ ∃ a, x = .ok a ∧ f a = .error fault := by
  cases x with
  | error fault' =>
      constructor
      · rintro ⟨⟩
        exact .inl rfl
      · rintro (⟨⟨⟩⟩ | ⟨_, h, _⟩)
        · rfl
        · cases h
  | ok a =>
      constructor
      · intro h
        exact .inr ⟨a, rfl, h⟩
      · rintro (h | ⟨_, ⟨⟩, h⟩)
        · cases h
        · exact h

/-- Going through a list where no item is at fault. -/
theorem Except.mapM_eq_ok {γ : Type} {f : γ → Except ε α} {g : γ → α} {l : List γ}
    (h : ∀ c ∈ l, f c = .ok (g c)) : l.mapM f = .ok (l.map g) := by
  induction l with
  | nil => rfl
  | cons c rest ih =>
      rw [List.forall_mem_cons] at h
      rw [List.mapM_cons, h.1, ih h.2]
      rfl

/-- Going through a list stops with a fault at the first item that is at fault. -/
theorem Except.mapM_eq_error_iff {γ : Type} {f : γ → Except ε α} {l : List γ} {fault : ε} :
    l.mapM f = .error fault ↔
      ∃ front c back, l = front ++ c :: back ∧ (∀ d ∈ front, ∃ a, f d = .ok a) ∧
        f c = .error fault := by
  induction l with
  | nil =>
      constructor
      · rintro ⟨⟩
      · rintro ⟨front, c, back, hl, -⟩
        cases front <;> cases hl
  | cons c rest ih =>
      rw [List.mapM_cons]
      constructor
      · intro h
        rcases Except.bind_eq_error_iff.mp h with h | ⟨a, ha, h⟩
        · exact ⟨[], c, rest, rfl, List.forall_mem_nil _, h⟩
        · rcases Except.bind_eq_error_iff.mp h with h | ⟨as, -, h⟩
          · obtain ⟨front, d, back, rfl, hfront, hd⟩ := ih.mp h
            exact ⟨c :: front, d, back, rfl, List.forall_mem_cons.mpr ⟨⟨a, ha⟩, hfront⟩, hd⟩
          · cases h
      · rintro ⟨front, d, back, hl, hfront, hd⟩
        cases front with
        | nil =>
            obtain ⟨rfl, rfl⟩ := List.cons.inj hl
            exact Except.bind_eq_error_iff.mpr (.inl hd)
        | cons c' front =>
            obtain ⟨rfl, rfl⟩ := List.cons.inj hl
            obtain ⟨⟨a, ha⟩, hfront⟩ := List.forall_mem_cons.mp hfront
            have hrest := ih.mpr ⟨front, d, back, rfl, hfront, hd⟩
            exact Except.bind_eq_error_iff.mpr
              (.inr ⟨a, ha, Except.bind_eq_error_iff.mpr (.inl hrest)⟩)

/-- What going through a list gives comes from its items. -/
theorem Except.exists_of_mem_mapM {γ : Type} {f : γ → Except ε α} {l : List γ} {vs : List α}
    (h : l.mapM f = .ok vs) {v : α} (hv : v ∈ vs) : ∃ c ∈ l, f c = .ok v := by
  induction l generalizing vs with
  | nil =>
      obtain rfl := Except.ok.inj h
      cases hv
  | cons c rest ih =>
      rw [List.mapM_cons] at h
      obtain ⟨w, hw, h⟩ := Except.bind_eq_ok_iff.mp h
      obtain ⟨ws, hws, h⟩ := Except.bind_eq_ok_iff.mp h
      obtain rfl := Except.ok.inj h
      rcases List.mem_cons.mp hv with rfl | hv
      · exact ⟨c, List.mem_cons_self, hw⟩
      · obtain ⟨d, hd, hfd⟩ := ih hws hv
        exact ⟨d, List.mem_cons_of_mem _ hd, hfd⟩

/-- What going through a list gives, item by item. -/
theorem Except.forall₂_of_mapM_eq_ok {γ : Type} {f : γ → Except ε α} {l : List γ} {vs : List α}
    (h : l.mapM f = .ok vs) : List.Forall₂ (fun v c => f c = .ok v) vs l := by
  induction l generalizing vs with
  | nil =>
      obtain rfl := Except.ok.inj h
      exact .nil
  | cons c rest ih =>
      rw [List.mapM_cons] at h
      obtain ⟨w, hw, h⟩ := Except.bind_eq_ok_iff.mp h
      obtain ⟨ws, hws, h⟩ := Except.bind_eq_ok_iff.mp h
      obtain rfl := Except.ok.inj h
      exact .cons hw (ih hws)

theorem Option.exists_of_mem_mapM {γ : Type} {f : γ → Option α} {l : List γ} {vs : List α}
    (h : l.mapM f = some vs) {v : α} (hv : v ∈ vs) : ∃ c ∈ l, f c = some v := by
  induction l generalizing vs with
  | nil =>
      obtain rfl := Option.some.inj h
      cases hv
  | cons c rest ih =>
      rw [List.mapM_cons] at h
      obtain ⟨w, hw, h⟩ := Option.bind_eq_some_iff.mp h
      obtain ⟨ws, hws, h⟩ := Option.bind_eq_some_iff.mp h
      obtain rfl := Option.some.inj h
      rcases List.mem_cons.mp hv with rfl | hv
      · exact ⟨c, List.mem_cons_self, hw⟩
      · obtain ⟨d, hd, hfd⟩ := ih hws hv
        exact ⟨d, List.mem_cons_of_mem _ hd, hfd⟩

/-- A fold stops with a fault at one step, after the steps before it have given a value. -/
theorem Except.foldlM_eq_error_iff {γ : Type} {f : β → γ → Except ε β} {l : List γ} {b : β}
    {fault : ε} :
    l.foldlM f b = .error fault ↔
      ∃ front c back w, l = front ++ c :: back ∧ front.foldlM f b = .ok w ∧
        f w c = .error fault := by
  induction l generalizing b with
  | nil =>
      constructor
      · rintro ⟨⟩
      · rintro ⟨front, c, back, w, hl, -⟩
        cases front <;> cases hl
  | cons c rest ih =>
      rw [List.foldlM_cons]
      constructor
      · intro h
        rcases Except.bind_eq_error_iff.mp h with h | ⟨b', hb', hrest⟩
        · exact ⟨[], c, rest, b, rfl, rfl, h⟩
        · obtain ⟨front, d, back, w, rfl, hfront, hd⟩ := ih.mp hrest
          refine ⟨c :: front, d, back, w, rfl, ?_, hd⟩
          rw [List.foldlM_cons, hb']
          exact hfront
      · rintro ⟨front, d, back, w, hl, hfront, hd⟩
        cases front with
        | nil =>
            obtain ⟨rfl, rfl⟩ := List.cons.inj hl
            obtain rfl : b = w := Except.ok.inj hfront
            exact Except.bind_eq_error_iff.mpr (.inl hd)
        | cons c' front =>
            obtain ⟨rfl, rfl⟩ := List.cons.inj hl
            rw [List.foldlM_cons] at hfront
            obtain ⟨b', hb', hfront⟩ := Except.bind_eq_ok_iff.mp hfront
            exact Except.bind_eq_error_iff.mpr
              (.inr ⟨b', hb', ih.mpr ⟨front, d, back, w, rfl, hfront, hd⟩⟩)

/-- What every step of a fold keeps holds of its value. -/
theorem Except.of_foldlM_eq_ok {γ : Type} {P : β → Prop} {f : β → γ → Except ε β} {l : List γ}
    (hf : ∀ b, ∀ c ∈ l, ∀ b', P b → f b c = .ok b' → P b') {b w : β} (hb : P b)
    (h : l.foldlM f b = .ok w) : P w := by
  induction l generalizing b with
  | nil =>
      obtain rfl := Except.ok.inj h
      exact hb
  | cons c rest ih =>
      rw [List.foldlM_cons] at h
      obtain ⟨b', hb', hrest⟩ := Except.bind_eq_ok_iff.mp h
      exact ih (fun b d hd => hf b d (List.mem_cons_of_mem _ hd))
        (hf b c List.mem_cons_self b' hb hb') hrest

theorem Logged.bind_eq_ok_iff {x : Logged α} {f : α → Logged β} {b : β} :
    (x >>= f).result = .ok b ↔ ∃ a, x.result = .ok a ∧ (f a).result = .ok b := by
  rw [result_bind, Except.bind_eq_ok_iff]

theorem Logged.bind_eq_error_iff {x : Logged α} {f : α → Logged β} {fault : Fault} :
    (x >>= f).result = .error fault ↔
      x.result = .error fault ∨ ∃ a, x.result = .ok a ∧ (f a).result = .error fault := by
  rw [result_bind, Except.bind_eq_error_iff]

end LooseData
