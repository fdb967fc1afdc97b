import LooseData.Proofs.Layer.Default
import LooseData.Proofs.Store.Holding

set_option autoImplicit false

/-! # Defaults in a store

Setting a default changes one collection at most, and of what belongs to it nothing but a hidden
attribute (`setDefault_keeps_iff`). Getting a key sets a default for it and then looks the key up.
So the first default that is got stays, unless the collection is an object and the key names an
attribute that no lookup sees: then every default replaces the one before it.

What is found under a text is found again after any number of keys have been got, from the same
collection or from others (`Finds.afterGets`). This carries the result from one get to all later
ones.
-/

namespace LooseData

open Edit

/-- A default under the key would replace a value that belongs to the level by another one. -/
def Layer.Overwrites {α : Type} [HoldsAtoms α] (l : Layer α) (key : Value) (default : α) : Prop :=
  l.hidesAttribute key = true ∧ l.refusal? key = none ∧ ∃ v, l.own? key = .ok (some v) ∧ v ≠ default

/-- Attributes that are set on the level are followed: it is no class, member of a class, or
function. -/
def Layer.Followed {α : Type} (l : Layer α) : Prop := ∀ a, l = .atom a → a.keepsAttributes = false

namespace Store

variable {s s₁ : Store} {target : Slot} {key : Value} {default v : Slot} {n : Node Slot}
  {name : String}

/-! ## Setting a default -/

theorem effect_setDefault [Memory] (target : Slot) (key : Value) (default : Slot) (s : Store) :
    (setDefault target key default).effect s =
      match ((s.layer target).withDefault? key default).result with
      | .error fault => (.error fault, s)
      | .ok none => (.ok (), s)
      | .ok (some n) => (.ok (), s.write target n) := by
  rw [setDefault, effect_bind_ok (effect_layerOf target s), effect_bind, effect_liftLogged]
  cases ((s.layer target).withDefault? key default).result with
  | error fault => rfl
  | ok written => cases written <;> rfl

/-- A default is written to the collection, or nothing changes. -/
theorem setDefault_cases [Memory] (target : Slot) (key : Value) (default : Slot) (s : Store) :
    ((setDefault target key default).effect s).2 = s ∨
      ∃ n, ((s.layer target).withDefault? key default).result = .ok (some n) ∧
        ((setDefault target key default).effect s).2 = s.write target n := by
  rw [effect_setDefault]
  cases ((s.layer target).withDefault? key default).result with
  | error fault => exact .inl rfl
  | ok written =>
      cases written with
      | none => exact .inl rfl
      | some n => exact .inr ⟨n, rfl, rfl⟩

/-- What a default has been written to is the new level. -/
theorem layer_write_of_withDefault? [Memory]
    (h : ((s.layer target).withDefault? key default).result = .ok (some n)) :
    (s.write target n).layer target = .node n := by
  have hwritten := (Layer.written_of_withDefault? h).2
  cases hlayer : s.layer target with
  | node m => exact layer_write_self hlayer n
  | atom a =>
      rw [hlayer] at hwritten
      cases hwritten

/-- **Setting a default** changes no other collection, and keeps all that belongs to the collection
if and only if it does not replace a hidden attribute by another value. -/
theorem setDefault_keeps_iff [Memory] (hl : (s.layer target).WellMade) (key : Value)
    (default : Slot) :
    (∀ slot, slot ≠ target →
      ((setDefault target key default).effect s).2.layer slot = s.layer slot) ∧
    ((∀ key', (s.layer target).isOwn key' = .ok true →
        (((setDefault target key default).effect s).2.layer target).own? key' =
          (s.layer target).own? key') ↔
      ¬ (s.layer target).Overwrites key default) := by
  constructor
  · intro slot hslot
    rcases setDefault_cases target key default s with heq | ⟨n, -, heq⟩
    · rw [heq]
    · rw [heq, layer_write_of_ne hslot]
  · constructor
    · rintro hkeeps ⟨hhides, hrefusal, v, hv, hne⟩
      obtain ⟨attributes, name, hlayer, rfl⟩ := Layer.exists_text_of_hidesAttribute hhides
      have hown : (s.layer target).isOwn (.text name) = .ok true := by
        rw [Layer.isOwn_eq_map_own?, hv]
        rfl
      have htakes : (s.layer target).TakesDefaults := by
        rw [hlayer]
        trivial
      obtain ⟨n, hn⟩ :=
        Layer.exists_withDefault?_eq_some htakes hrefusal (Layer.lookup_of_hidesAttribute hhides)
          default
      have heffect : ((setDefault target (.text name) default).effect s).2 = s.write target n := by
        rw [effect_setDefault, hn]
      have hafter := hkeeps (.text name) hown
      rw [heffect, layer_write_of_withDefault? hn, hl.own?_self_of_withDefault? hn, hv] at hafter
      exact hne (Option.some.inj (Except.ok.inj hafter)).symm
    · intro hnot key' hown
      rw [Layer.isOwn_eq_map_own?] at hown
      obtain ⟨found, hfound, hsome⟩ := Except.map_eq_ok_iff.mp hown
      obtain ⟨v, rfl⟩ := Option.isSome_iff_exists.mp hsome
      rcases setDefault_cases target key default s with heq | ⟨n, hn, heq⟩
      · rw [heq]
      · rw [heq, layer_write_of_withDefault? hn, hfound]
        by_cases hsame : (s.layer target).hidesAttribute key = true ∧ key' = key
        · -- The default is the value that the attribute has already.
          obtain ⟨hhides, rfl⟩ := hsame
          obtain ⟨attributes, name, -, rfl⟩ := Layer.exists_text_of_hidesAttribute hhides
          have hvalue : v = default := by
            by_contra hne
            exact hnot ⟨hhides, Layer.refusal?_of_withDefault? hn, v, hfound, hne⟩
          rw [hl.own?_self_of_withDefault? hn, hvalue]
        · exact hl.own?_of_withDefault? hn hfound fun hhides heq => hsame ⟨hhides, heq⟩

/-! ## Getting a key -/

/-- Getting a text sets a default for it and gives what is found afterwards, or the default. -/
theorem effect_getOrSet [Memory] (target : Slot) (name : String) (default : Slot) (s : Store) :
    (getOrSet target (.text name) default).effect s =
      match (setDefault target (.text name) default).effect s with
      | (.error fault, s') => (.error fault, s')
      | (.ok _, s') =>
        (((s'.layer target).lookup (.text name)).map fun found => found.getD default, s') := by
  rw [getOrSet, effect_bind]
  cases (setDefault target (.text name) default).effect s with
  | mk result s' =>
      cases result with
      | error fault => rfl
      | ok _ =>
          dsimp only
          rw [effect_bind_ok (effect_layerOf target s'), effect_bind, effect_liftExcept]
          have hnull : (Value.text name).isNull = false := rfl
          unfold Layer.hasKey Layer.access
          rw [hnull]
          cases (s'.layer target).lookup (.text name) with
          | error fault => rfl
          | ok found => cases found <;> rfl

theorem effect_getOrSet_of_fault [Memory] {fault : Fault}
    (h : (s.layer target).lookup (.text name) = .error fault) (default : Slot) :
    (getOrSet target (.text name) default).effect s = (.error fault, s) := by
  have hfault : (s.layer target).hasKey (.text name) = .error fault := by
    rw [Layer.hasKey, h]
    rfl
  rw [effect_getOrSet, effect_setDefault, Layer.withDefault?_of_fault hfault]

/-- What is there is got, and nothing changes. -/
theorem effect_getOrSet_of_some [Memory] (h : (s.layer target).lookup (.text name) = .ok (some v))
    (default : Slot) : (getOrSet target (.text name) default).effect s = (.ok v, s) := by
  have hfound : (s.layer target).hasKey (.text name) = .ok true := by
    rw [Layer.hasKey, h]
    rfl
  rw [effect_getOrSet, effect_setDefault, Layer.withDefault?_of_hasKey hfound]
  dsimp only
  rw [h]
  rfl

/-- What is not there is set to the default, which is got. -/
theorem effect_getOrSet_of_none [Memory] (hl : (s.layer target).WellMade)
    (htakes : (s.layer target).TakesDefaults)
    (hrefusal : (s.layer target).refusal? (.text name) = none)
    (h : (s.layer target).lookup (.text name) = .ok none) (default : Slot) :
    ∃ n, ((s.layer target).withDefault? (.text name) default).result = .ok (some n) ∧
      (getOrSet target (.text name) default).effect s = (.ok default, s.write target n) := by
  obtain ⟨n, hn⟩ := Layer.exists_withDefault?_eq_some htakes hrefusal h default
  refine ⟨n, hn, ?_⟩
  rw [effect_getOrSet, effect_setDefault, hn]
  dsimp only
  rw [layer_write_of_withDefault? hn, Layer.lookup_text_eq]
  by_cases hhidden : (Layer.node n).hidesAttribute (.text name) = true
  · rw [if_pos hhidden]
    rfl
  · rw [if_neg hhidden, hl.own?_self_of_withDefault? hn]
    rfl

theorem effect_getOrSet_of_refusal? [Memory] {fault : Fault}
    (h : (s.layer target).refusal? (.text name) = some fault) (default : Slot) :
    (getOrSet target (.text name) default).effect s = (.error fault, s) := by
  rw [effect_getOrSet, effect_setDefault, Layer.withDefault?_of_refusal? h]

/-- **When getting a text fails**: where it is a numeral that cannot be read, or a name that an
object refuses. -/
theorem effect_getOrSet_eq_error_iff [Memory] (hl : (s.layer target).WellMade)
    (htakes : (s.layer target).TakesDefaults) {fault : Fault} :
    (getOrSet target (.text name) default).effect s = (.error fault, s₁) ↔
      s₁ = s ∧ ((s.layer target).ReadsNumber name ∧ numeral? name = .error fault ∨
        (s.layer target).refusal? (.text name) = some fault) := by
  rw [← Layer.lookup_text_eq_error_iff]
  cases hrefusal : (s.layer target).refusal? (.text name) with
  | some fault' =>
      have hlookup := Layer.lookup_of_hidesAttribute (Layer.hidesAttribute_of_refusal? hrefusal)
      rw [effect_getOrSet_of_refusal? hrefusal, hlookup]
      simp [eq_comm, and_comm]
  | none =>
      cases hlookup : (s.layer target).lookup (.text name) with
      | error fault' =>
          rw [effect_getOrSet_of_fault hlookup]
          simp [eq_comm, and_comm]
      | ok found =>
          cases found with
          | some w =>
              rw [effect_getOrSet_of_some hlookup]
              simp
          | none =>
              obtain ⟨n, -, heffect⟩ := effect_getOrSet_of_none hl htakes hrefusal hlookup default
              rw [heffect]
              simp

/-! ## Getting keys one after another -/

/-- A request for what a collection holds under a key, with a default. -/
structure Get where
  target : Slot
  key : Value
  default : Slot

/-- What a request does. -/
def Get.perform [Memory] (get : Get) : Edit Store Slot := getOrSet get.target get.key get.default

/-- The store after requests, whether they ended with a value or with a fault. -/
def afterGets [Memory] (s : Store) (gets : List Get) : Store :=
  gets.foldl (fun s get => (get.perform.effect s).2) s

/-- Looking a key up after a default has been set changes nothing. -/
theorem state_getOrSet [Memory] (target : Slot) (key : Value) (default : Slot) (s : Store) :
    ((getOrSet target key default).effect s).2 = ((setDefault target key default).effect s).2 := by
  rw [getOrSet, effect_bind]
  cases (setDefault target key default).effect s with
  | mk result s' =>
      cases result with
      | error fault => rfl
      | ok _ =>
          dsimp only
          rw [effect_bind_ok (effect_layerOf target s'), effect_bind, effect_liftExcept]
          cases (s'.layer target).hasKey key with
          | error fault => rfl
          | ok found => cases found <;> rfl

/-- The collection is as it is made, and a value is found in it under a text. -/
structure Finds (s : Store) (target : Slot) (name : String) (v : Slot) : Prop where
  wellMade : (s.layer target).WellMade
  found : (s.layer target).lookup (.text name) = .ok (some v)

/-- **One request** leaves alone what is found, in whichever collection it sets a default. -/
theorem Finds.perform [Memory] (h : Finds s target name v) (get : Get) :
    Finds (get.perform.effect s).2 target name v := by
  have hstate : (get.perform.effect s).2 =
      ((setDefault get.target get.key get.default).effect s).2 := state_getOrSet _ _ _ s
  rw [hstate]
  rcases setDefault_cases get.target get.key get.default s with heq | ⟨n, hn, heq⟩
  · rwa [heq]
  · rw [heq]
    by_cases hsame : target = get.target
    · have hlayer := layer_write_of_withDefault? hn
      rw [← hsame] at hn hlayer ⊢
      constructor
      · rw [hlayer]
        exact h.wellMade.of_withDefault? hn
      · rw [hlayer]
        exact h.wellMade.lookup_of_withDefault? hn h.found
    · have hlayer := layer_write_of_ne (s := s) hsame n
      constructor
      · rw [hlayer]
        exact h.wellMade
      · rw [hlayer]
        exact h.found

/-- **Any number of requests** leaves alone what is found. -/
theorem Finds.afterGets [Memory] (h : Finds s target name v) (gets : List Get) :
    Finds (s.afterGets gets) target name v := by
  induction gets generalizing s with
  | nil => exact h
  | cons get gets ih => exact ih (h.perform get)

theorem exists_slot_ne (v : Slot) : ∃ w : Slot, w ≠ v := by
  by_cases h : v = .atom .null
  · exact ⟨.atom (.bool true), by simp [h]⟩
  · exact ⟨.atom .null, fun heq => h heq.symm⟩

/-- An object refuses no name that has been got. -/
theorem refusal?_of_getOrSet [Memory]
    (h : (getOrSet target (.text name) default).effect s = (.ok v, s₁)) :
    (s.layer target).refusal? (.text name) = none := by
  cases hrefusal : (s.layer target).refusal? (.text name) with
  | none => rfl
  | some fault =>
      rw [effect_getOrSet_of_refusal? hrefusal] at h
      cases h

/-- What has been got is found afterwards, unless it is under a hidden attribute. -/
theorem finds_of_getOrSet [Memory] (hl : (s.layer target).WellMade)
    (htakes : (s.layer target).TakesDefaults)
    (hhides : (s.layer target).hidesAttribute (.text name) = false)
    (h : (getOrSet target (.text name) default).effect s = (.ok v, s₁)) :
    Finds s₁ target name v := by
  cases hlookup : (s.layer target).lookup (.text name) with
  | error fault =>
      rw [effect_getOrSet_of_fault hlookup] at h
      cases h
  | ok found =>
      cases found with
      | some w =>
          rw [effect_getOrSet_of_some hlookup] at h
          obtain ⟨hw, rfl⟩ := Prod.mk.inj h
          obtain rfl := Except.ok.inj hw
          exact ⟨hl, hlookup⟩
      | none =>
          obtain ⟨n, hn, heffect⟩ :=
            effect_getOrSet_of_none hl htakes (refusal?_of_getOrSet h) hlookup default
          rw [heffect] at h
          obtain ⟨hw, rfl⟩ := Prod.mk.inj h
          obtain rfl := Except.ok.inj hw
          have hlayer := layer_write_of_withDefault? hn
          constructor
          · rw [hlayer]
            exact hl.of_withDefault? hn
          · rw [hlayer, Layer.lookup_text_eq, Layer.hidesAttribute_of_withDefault? hn, hhides]
            exact hl.own?_self_of_withDefault? hn

/-- A hidden attribute whose name is not refused is set anew by every request. -/
theorem effect_getOrSet_of_hidesAttribute [Memory] (hl : (s.layer target).WellMade)
    (hrefusal : (s.layer target).refusal? (.text name) = none)
    (hhides : (s.layer target).hidesAttribute (.text name) = true) (default : Slot) :
    ∃ s', (getOrSet target (.text name) default).effect s = (.ok default, s') ∧
      (s'.layer target).WellMade ∧ (s'.layer target).refusal? (.text name) = none ∧
      (s'.layer target).hidesAttribute (.text name) = true := by
  have hlookup := Layer.lookup_of_hidesAttribute hhides
  have htakes : (s.layer target).TakesDefaults := by
    obtain ⟨attributes, name', hlayer, -⟩ := Layer.exists_text_of_hidesAttribute hhides
    rw [hlayer]
    trivial
  obtain ⟨n, hn, heffect⟩ := effect_getOrSet_of_none hl htakes hrefusal hlookup default
  refine ⟨_, heffect, ?_, ?_, ?_⟩
  · rw [layer_write_of_withDefault? hn]
    exact hl.of_withDefault? hn
  · rw [layer_write_of_withDefault? hn, Layer.refusal?_node_of_withDefault? hn, hrefusal]
  · rw [layer_write_of_withDefault? hn, Layer.hidesAttribute_of_withDefault? hn, hhides]

/-- **The first get decides** what later ones give, whatever else is got in between, if and only if
the text is no hidden attribute of an object. -/
theorem getOrSet_afterGets_iff [Memory] (hl : (s.layer target).WellMade)
    (htakes : (s.layer target).TakesDefaults)
    (h : (getOrSet target (.text name) default).effect s = (.ok v, s₁)) :
    (∀ (gets : List Get) (default' : Slot),
        ((getOrSet target (.text name) default').effect (s₁.afterGets gets)).1 = .ok v) ↔
      (s.layer target).hidesAttribute (.text name) = false := by
  constructor
  · intro hsame
    by_contra hshown
    have hhides : (s.layer target).hidesAttribute (.text name) = true := by simpa using hshown
    obtain ⟨s', heffect, hl', hrefusal', hhides'⟩ :=
      effect_getOrSet_of_hidesAttribute hl (refusal?_of_getOrSet h) hhides default
    obtain ⟨-, rfl⟩ := Prod.mk.inj (heffect.symm.trans h)
    obtain ⟨w, hne⟩ := exists_slot_ne v
    obtain ⟨s'', heffect', -⟩ := effect_getOrSet_of_hidesAttribute hl' hrefusal' hhides' w
    have hlater := hsame [] w
    rw [afterGets, List.foldl_nil, heffect'] at hlater
    exact hne (Except.ok.inj hlater)
  · intro hshown gets default'
    have hfinds := (finds_of_getOrSet hl htakes hshown h).afterGets gets
    rw [effect_getOrSet_of_some hfinds.found]

/-- **Defaults overwrite nothing but hidden attributes.** Setting a default changes no other
collection, and all that belongs to the collection stays, unless the default replaces a hidden
attribute of an object, whose name is not refused. Getting a text from a collection that can be
written to fails only for a numeral that cannot be read or for a name that an object refuses, and
changes nothing then. Otherwise every later get gives the same, whatever its default and whatever is
got in between, unless the text is a hidden attribute. -/
theorem setDefault_and_getOrSet [Memory] (s : Store) (target : Slot)
    (hl : (s.layer target).WellMade) :
    ((s.layer target).Followed → ∀ (key : Value) (default : Slot),
      (∀ slot, slot ≠ target →
        ((setDefault target key default).effect s).2.layer slot = s.layer slot) ∧
      ((∀ key', (s.layer target).isOwn key' = .ok true →
          (((setDefault target key default).effect s).2.layer target).own? key' =
            (s.layer target).own? key') ↔
        ¬ (s.layer target).Overwrites key default)) ∧
    ((s.layer target).TakesDefaults → ∀ (name : String) (default : Slot),
      (∀ fault s₁, (getOrSet target (.text name) default).effect s = (.error fault, s₁) ↔
        s₁ = s ∧ ((s.layer target).ReadsNumber name ∧ numeral? name = .error fault ∨
          (s.layer target).refusal? (.text name) = some fault)) ∧
      ∀ v s₁, (getOrSet target (.text name) default).effect s = (.ok v, s₁) →
        ((∀ (gets : List Get) (default' : Slot),
            ((getOrSet target (.text name) default').effect (s₁.afterGets gets)).1 = .ok v) ↔
          (s.layer target).hidesAttribute (.text name) = false)) := by
  refine ⟨fun _ key default => setDefault_keeps_iff hl key default, fun htakes _ _ => ⟨?_, ?_⟩⟩
  · intro fault s₁
    exact effect_getOrSet_eq_error_iff hl htakes
  · intro v s₁ h
    exact getOrSet_afterGets_iff hl htakes h

/-- A dictionary of limits, and two objects, one of which has a hidden attribute. -/
def limits : Store :=
  ⟨#[.dict [(.text "retries", .atom (.int 3))], .object [], .object [("_retries", .atom (.int 3))]]⟩

section

open scoped Memory

/-- A timeout that is got from the limits with a default is got again with any other. -/
theorem setDefault_and_getOrSet_limits :
    (limits.layer (.at 0)).WellMade ∧ (limits.layer (.at 0)).TakesDefaults ∧
      ∃ s₁, (getOrSet (.at 0) (.text "timeout") (.atom (.int 30))).effect limits =
          (.ok (.atom (.int 30)), s₁) ∧
        ∀ (gets : List Get) (default' : Slot),
          ((getOrSet (.at 0) (.text "timeout") default').effect (s₁.afterGets gets)).1 =
            .ok (.atom (.int 30)) := by
  have hl : (limits.layer (.at 0)).WellMade := by
    rintro n hn -
    obtain rfl := Layer.node.inj hn
    exact List.pairwise_singleton _ _
  have htakes : (limits.layer (.at 0)).TakesDefaults := trivial
  have heffect : ∃ s₁, (getOrSet (.at 0) (.text "timeout") (.atom (.int 30))).effect limits =
      (.ok (.atom (.int 30)), s₁) := ⟨_, rfl⟩
  obtain ⟨s₁, heffect⟩ := heffect
  have hlater := ((setDefault_and_getOrSet limits (.at 0) hl).2 htakes "timeout" _).2 _ _ heffect
  exact ⟨hl, htakes, s₁, heffect, hlater.mpr rfl⟩

/-- **A default can overwrite**: a hidden attribute that belongs to an object gets the value of the
default, and getting one twice gives first the one default and then the other. -/
theorem default_overwrites_hidden :
    (limits.layer (.at 2)).isOwn (.text "_retries") = .ok true ∧
      (limits.layer (.at 2)).own? (.text "_retries") = .ok (some (.atom (.int 3))) ∧
      (((setDefault (.at 2) (.text "_retries") (.atom (.int 5))).effect limits).2.layer
        (.at 2)).own? (.text "_retries") = .ok (some (.atom (.int 5))) ∧
      ((getOrSet (.at 1) (.text "_retries") (.atom (.int 1))).effect limits).1 =
        .ok (.atom (.int 1)) ∧
      ((getOrSet (.at 1) (.text "_retries") (.atom (.int 2))).effect
        ((getOrSet (.at 1) (.text "_retries") (.atom (.int 1))).effect limits).2).1 =
          .ok (.atom (.int 2)) :=
  ⟨rfl, rfl, by cbv, by cbv, by cbv⟩

end

end Store

end LooseData
