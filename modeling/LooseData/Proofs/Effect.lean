import LooseData.Edit

set_option autoImplicit false

/-! # What a computation on a state does, apart from its log

`Edit.effect x s` is the result of `x` in the state `s` together with the state afterwards. The
log is left out: no result and no state depends on it. The equations below take a computation
apart step by step, so that nothing else unfolds the monad.

An invariant of a state is kept by a computation (`Edit.Keeps`) when it holds afterwards
wherever it held before, **also where the computation stops with a fault**. What a computation
does from one state on is said by `Edit.Ends`, with one condition for its value and the state
afterwards and one for its fault.
-/

namespace LooseData.Edit

variable {σ α β : Type}

/-- The result of a computation in a state, and the state afterwards. -/
def effect (x : Edit σ α) (s : σ) : Except Fault α × σ := ((x.run s).1.result, (x.run s).2)

@[simp] theorem effect_pure (a : α) (s : σ) : (pure a : Edit σ α).effect s = (.ok a, s) := rfl

@[simp] theorem effect_fail (fault : Fault) (s : σ) :
    (fail fault : Edit σ α).effect s = (.error fault, s) := rfl

@[simp] theorem effect_liftLogged (x : Logged α) (s : σ) :
    (liftM x : Edit σ α).effect s = (x.result, s) := rfl

@[simp] theorem effect_liftExcept (x : Except Fault α) (s : σ) :
    (liftM x : Edit σ α).effect s = (x, s) := rfl

@[simp] theorem effect_get (s : σ) : (get : Edit σ σ).effect s = (.ok s, s) := rfl

@[simp] theorem effect_become (s s' : σ) : (become s').effect s = (.ok (), s') := rfl

@[simp] theorem effect_modify (f : σ → σ) (s : σ) :
    (modify f : Edit σ Unit).effect s = (.ok (), f s) := rfl

theorem effect_bind_ok {x : Edit σ α} {s s' : σ} {a : α} (h : x.effect s = (.ok a, s'))
    (f : α → Edit σ β) : (x >>= f).effect s = (f a).effect s' := by
  obtain ⟨hr, hs⟩ := Prod.mk.inj h
  show (Edit.bind x f).effect s = _
  simp only [effect, Edit.run] at hr hs ⊢
  simp only [Edit.bind, hr, hs]

theorem effect_bind_error {x : Edit σ α} {s s' : σ} {fault : Fault}
    (h : x.effect s = (.error fault, s')) (f : α → Edit σ β) :
    (x >>= f).effect s = (.error fault, s') := by
  obtain ⟨hr, hs⟩ := Prod.mk.inj h
  show (Edit.bind x f).effect s = _
  simp only [effect, Edit.run] at hr hs ⊢
  simp only [Edit.bind, hr, hs]

/-- A sequence does its first part, and its second part from where the first ended unless that
stopped with a fault. -/
@[simp] theorem effect_bind (x : Edit σ α) (f : α → Edit σ β) (s : σ) :
    (x >>= f).effect s = match x.effect s with
      | (.error fault, s') => (.error fault, s')
      | (.ok a, s') => (f a).effect s' := by
  match h : x.effect s with
  | (.error fault, s') => exact effect_bind_error h f
  | (.ok a, s') => exact effect_bind_ok h f

/-- A sequence that ends with a value has two parts that do. -/
theorem exists_of_effect_bind_eq_ok {x : Edit σ α} {f : α → Edit σ β} {s s' : σ} {b : β}
    (h : (x >>= f).effect s = (.ok b, s')) :
    ∃ a s₁, x.effect s = (.ok a, s₁) ∧ (f a).effect s₁ = (.ok b, s') := by
  rw [effect_bind] at h
  match hx : x.effect s with
  | (.error fault, s₁) => rw [hx] at h; cases h
  | (.ok a, s₁) => rw [hx] at h; exact ⟨a, s₁, rfl, h⟩

/-- Going through a list has no effect where the step for each of its items has none. -/
theorem effect_forM_of_forall {f : α → Edit σ Unit} {l : List α} {s : σ}
    (h : ∀ a ∈ l, (f a).effect s = (.ok (), s)) : (l.forM f).effect s = (.ok (), s) := by
  induction l with
  | nil => rfl
  | cons a rest ih =>
      obtain ⟨ha, hrest⟩ := List.forall_mem_cons.mp h
      show (f a >>= fun _ => rest.forM f).effect s = _
      rw [effect_bind_ok ha]
      exact ih hrest

/-- Going through a list goes through its front and then on from there. -/
theorem effect_forM_append_cons {f : α → Edit σ Unit} {front : List α} {s s₁ : σ}
    (h : (front.forM f).effect s = (.ok (), s₁)) (a : α) (back : List α) :
    ((front ++ a :: back).forM f).effect s = (f a >>= fun _ => back.forM f).effect s₁ := by
  induction front generalizing s with
  | nil =>
      obtain ⟨-, rfl⟩ := Prod.mk.inj h
      rfl
  | cons b front ih =>
      obtain ⟨_, s₂, hb, hfront⟩ := exists_of_effect_bind_eq_ok h
      show (f b >>= fun _ => (front ++ a :: back).forM f).effect s = _
      rw [effect_bind_ok hb]
      exact ih hfront

/-- **Going through a list stops with a fault** at one of its items, where the step for every item
in front of it has ended with a value. -/
theorem effect_forM_eq_error_iff {f : α → Edit σ Unit} {l : List α} {s s' : σ} {fault : Fault} :
    (l.forM f).effect s = (.error fault, s') ↔
      ∃ front a back s₁, l = front ++ a :: back ∧ (front.forM f).effect s = (.ok (), s₁) ∧
        (f a).effect s₁ = (.error fault, s') := by
  constructor
  · intro h
    induction l generalizing s with
    | nil => cases h
    | cons a rest ih =>
        match ha : (f a).effect s with
        | (.error fault', s₁) =>
            have hstop : ((a :: rest).forM f).effect s = (.error fault', s₁) :=
              effect_bind_error ha _
            obtain ⟨hfault, rfl⟩ := Prod.mk.inj (hstop.symm.trans h)
            obtain rfl := Except.error.inj hfault
            exact ⟨[], a, rest, s, rfl, rfl, ha⟩
        | (.ok (), s₁) =>
            have hon : ((a :: rest).forM f).effect s = (rest.forM f).effect s₁ :=
              effect_bind_ok ha _
            obtain ⟨front, b, back, s₂, rfl, hfront, hb⟩ := ih (hon.symm.trans h)
            exact ⟨a :: front, b, back, s₂, rfl, (effect_bind_ok ha _).trans hfront, hb⟩
  · rintro ⟨front, a, back, s₁, rfl, hfront, ha⟩
    rw [effect_forM_append_cons hfront]
    exact effect_bind_error ha _

/-! ## Invariants -/

/-- The computation keeps the invariant `P`, whether it ends with a value or with a fault. -/
def Keeps (P : σ → Prop) (x : Edit σ α) : Prop := ∀ s, P s → P (x.effect s).2

variable {P : σ → Prop}

theorem keeps_pure (a : α) : Keeps P (pure a : Edit σ α) := fun _ h => h

theorem keeps_fail (fault : Fault) : Keeps P (fail fault : Edit σ α) := fun _ h => h

theorem keeps_liftLogged (x : Logged α) : Keeps P (liftM x : Edit σ α) := fun _ h => h

theorem keeps_liftExcept (x : Except Fault α) : Keeps P (liftM x : Edit σ α) := fun _ h => h

/-- The second part of a sequence need only keep the invariant for values that the first part can
end with. -/
theorem keeps_bind_of {x : Edit σ α} {f : α → Edit σ β} (hx : Keeps P x)
    (hf : ∀ s a s', P s → x.effect s = (.ok a, s') → Keeps P (f a)) : Keeps P (x >>= f) := by
  intro s hs
  have hx' := hx s hs
  rw [effect_bind]
  match h : x.effect s with
  | (.error fault, s') => rw [h] at hx'; exact hx'
  | (.ok a, s') => rw [h] at hx'; exact hf s a s' hs h s' hx'

theorem keeps_bind {x : Edit σ α} {f : α → Edit σ β} (hx : Keeps P x)
    (hf : ∀ a, Keeps P (f a)) : Keeps P (x >>= f) :=
  keeps_bind_of hx fun _ a _ _ _ => hf a

/-- A computation that reads the state first may use that the invariant holds there. -/
theorem keeps_get_bind {f : σ → Edit σ α} (hf : ∀ s, P s → P ((f s).effect s).2) :
    Keeps P (get >>= f) := by
  intro s hs
  rw [effect_bind_ok (effect_get s)]
  exact hf s hs

/-- Going through a list keeps what the step for each of its items keeps. -/
theorem keeps_forM_of_mem {f : α → Edit σ Unit} {l : List α} (hf : ∀ a ∈ l, Keeps P (f a)) :
    Keeps P (l.forM f) := by
  induction l with
  | nil => exact keeps_pure ()
  | cons a rest ih =>
      rw [List.forall_mem_cons] at hf
      exact keeps_bind hf.1 fun _ => ih hf.2

/-- Going through a list keeps what every step keeps. -/
theorem keeps_forM {f : α → Edit σ Unit} (hf : ∀ a, Keeps P (f a)) (l : List α) :
    Keeps P (l.forM f) :=
  keeps_forM_of_mem fun a _ => hf a

/-! ## What holds at the end -/

/-- From the state `s` the computation ends with a value and a state for which `Q` holds, or with
a fault and a state for which `E` holds. -/
def Ends (E : Fault → σ → Prop) (x : Edit σ α) (s : σ) (Q : α → σ → Prop) : Prop :=
  (∀ fault s', x.effect s = (.error fault, s') → E fault s') ∧
    ∀ a s', x.effect s = (.ok a, s') → Q a s'

/-- The same, where it does not matter which fault there is. -/
abbrev Ensures (x : Edit σ α) (s : σ) (Q : α → σ → Prop) : Prop :=
  Ends (fun _ _ => True) x s Q

/-- The same for a result without a state. -/
def Yields (E : Fault → Prop) (x : Except Fault α) (Q : α → Prop) : Prop :=
  (∀ fault, x = .error fault → E fault) ∧ ∀ a, x = .ok a → Q a

section

variable {E : Fault → Prop}

theorem yields_ok {a : α} {Q : α → Prop} (h : Q a) : Yields E (.ok a) Q :=
  ⟨fun _ hfault => (nomatch hfault), fun _ ha => Except.ok.inj ha ▸ h⟩

theorem yields_error {fault : Fault} {Q : α → Prop} (h : E fault) : Yields E (.error fault) Q :=
  ⟨fun _ hfault => Except.error.inj hfault ▸ h, fun _ ha => (nomatch ha)⟩

theorem Yields.bind {x : Except Fault α} {f : α → Except Fault β} {Q : α → Prop} {R : β → Prop}
    (hx : Yields E x Q) (hf : ∀ a, Q a → Yields E (f a) R) : Yields E (x >>= f) R := by
  cases x with
  | error fault => exact yields_error (hx.1 fault rfl)
  | ok a => exact hf a (hx.2 a rfl)

theorem Yields.map {x : Except Fault α} {f : α → β} {Q : α → Prop} {R : β → Prop}
    (hx : Yields E x Q) (hf : ∀ a, Q a → R (f a)) : Yields E (x.map f) R := by
  cases x with
  | error fault => exact yields_error (hx.1 fault rfl)
  | ok a => exact yields_ok (hf a (hx.2 a rfl))

theorem Yields.mono_fault {E' : Fault → Prop} {x : Except Fault α} {Q : α → Prop}
    (hx : Yields E x Q) (hE : ∀ fault, E fault → E' fault) : Yields E' x Q :=
  ⟨fun fault hfault => hE fault (hx.1 fault hfault), hx.2⟩

/-- Going through a list yields the list of what is yielded for its items. -/
theorem yields_mapM {γ : Type} {f : γ → Except Fault α} {g : γ → α} {l : List γ}
    (hf : ∀ c ∈ l, Yields E (f c) (· = g c)) : Yields E (l.mapM f) (· = l.map g) := by
  induction l with
  | nil => exact yields_ok rfl
  | cons c rest ih =>
      rw [List.forall_mem_cons] at hf
      rw [List.mapM_cons]
      refine hf.1.bind fun a ha => (ih hf.2).bind fun as has => ?_
      rw [ha, has]
      exact yields_ok rfl

end

variable {E : Fault → σ → Prop} {s : σ}

theorem ends_pure {a : α} {Q : α → σ → Prop} (h : Q a s) : Ends E (pure a) s Q := by
  refine ⟨?_, ?_⟩
  · rintro fault s' ⟨⟩
  · rintro b s' ⟨⟩
    exact h

theorem ensures_fail {fault : Fault} {Q : α → σ → Prop} : Ensures (Edit.fail fault) s Q := by
  refine ⟨fun _ _ _ => trivial, ?_⟩
  rintro a s' ⟨⟩

theorem ends_modify {f : σ → σ} {Q : Unit → σ → Prop} (h : Q () (f s)) :
    Ends E (modify f) s Q := by
  refine ⟨?_, ?_⟩
  · rintro fault s' ⟨⟩
  · rintro b s' ⟨⟩
    exact h

/-- What a sequence ends with is said by what its second part ends with, from where the first
part ends. -/
theorem Ends.bind {x : Edit σ α} {f : α → Edit σ β} {Q : α → σ → Prop} {R : β → σ → Prop}
    (hx : Ends E x s Q) (hf : ∀ a s', Q a s' → Ends E (f a) s' R) : Ends E (x >>= f) s R := by
  match h : x.effect s with
  | (.error fault, s') =>
      unfold Ends
      rw [effect_bind_error h f]
      refine ⟨?_, ?_⟩
      · rintro fault' s'' ⟨⟩
        exact hx.1 fault s' h
      · rintro b s'' ⟨⟩
  | (.ok a, s') =>
      unfold Ends
      rw [effect_bind_ok h f]
      exact hf a s' (hx.2 a s' h)

/-- A sequence that starts by reading the state. -/
theorem ends_get_bind {f : σ → Edit σ β} {R : β → σ → Prop} (h : Ends E (f s) s R) :
    Ends E (get >>= f) s R := by
  unfold Ends
  rw [effect_bind_ok (effect_get s)]
  exact h

/-- A sequence that starts with a computation that keeps a log and leaves the state alone. -/
theorem Yields.ends_bind_logged {x : Logged α} {f : α → Edit σ β} {Q : α → Prop}
    {R : β → σ → Prop} (hx : Yields (E · s) x.result Q) (hf : ∀ a, Q a → Ends E (f a) s R) :
    Ends E (liftM x >>= f) s R := by
  refine Ends.bind (Q := fun a s' => Q a ∧ s = s') ⟨?_, ?_⟩ ?_
  · intro fault s' heffect
    obtain ⟨hfault, rfl⟩ := Prod.mk.inj heffect
    exact hx.1 fault hfault
  · intro a s' heffect
    obtain ⟨ha, hs⟩ := Prod.mk.inj heffect
    exact ⟨hx.2 a ha, hs⟩
  · rintro a _ ⟨ha, rfl⟩
    exact hf a ha

theorem Yields.ends_bind {x : Except Fault α} {f : α → Edit σ β} {Q : α → Prop}
    {R : β → σ → Prop} (hx : Yields (E · s) x Q) (hf : ∀ a, Q a → Ends E (f a) s R) :
    Ends E (liftM x >>= f) s R :=
  Yields.ends_bind_logged (x := .ofExcept x) hx hf

/-- What a computation keeps holds at its end. -/
theorem Ends.and_keeps {x : Edit σ α} {Q : α → σ → Prop} (hx : Ends E x s Q) (hkeeps : Keeps P x)
    (hs : P s) : Ends E x s fun a s' => Q a s' ∧ P s' := by
  refine ⟨hx.1, fun a s' heffect => ⟨hx.2 a s' heffect, ?_⟩⟩
  have hafter := hkeeps s hs
  rwa [heffect] at hafter

theorem Ends.mono_fault {E' : Fault → σ → Prop} {x : Edit σ α} {Q : α → σ → Prop}
    (hx : Ends E x s Q) (hE : ∀ fault s', E fault s' → E' fault s') : Ends E' x s Q :=
  ⟨fun fault s' heffect => hE fault s' (hx.1 fault s' heffect), hx.2⟩

theorem Ends.mono {x : Edit σ α} {Q R : α → σ → Prop} (hx : Ends E x s Q)
    (h : ∀ a s', Q a s' → R a s') : Ends E x s R :=
  ⟨hx.1, fun a s' heffect => h a s' (hx.2 a s' heffect)⟩

end LooseData.Edit
