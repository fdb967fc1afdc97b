import LooseData.Proofs.CaselessMap.Runs
import LooseData.Tag.Registry

set_option autoImplicit false

/-! # What a registry holds for a tag

A registry is made from the entries of a mapping, or without entries, and then changed by
registering and unregistering tags. The index of its handlers stays in step throughout
(`Reachable.coherent`), so what it holds for a tag is found by comparing the tag with the
registered ones regardless of letter case (`find?_eq_held`).
-/

namespace LooseData.Tag.Registry

open Edit CaselessMap

/-- What is registered for a tag, found by going through all handlers and comparing the folded
tags. -/
def held (r : Registry) (tag : String) : Option Value :=
  (r.handlers.scan (.text tag)).map Prod.snd

/-- An operation that changes a registry. -/
inductive Operation where
  | register (tag handler : Value)
  | unregister (tag : Value)
  | registerBuiltins

/-- The change that an operation makes; what it returns is left out. -/
def Operation.perform : Operation → Change Unit
  | .register tag handler => Registry.register tag handler
  | .unregister tag => do let _ ← Registry.unregister tag
  | .registerBuiltins => Registry.registerBuiltins

/-- The registries that are made of the entries of a value and have gone through any operations
since, also through those that stopped with a fault. -/
inductive Reachable : Registry → Prop where
  | ofValue {entries : Value} {r : Registry} (h : (ofValue entries).result = .ok r) : Reachable r
  | step {r : Registry} (h : Reachable r) (operation : Operation) :
      Reachable (operation.perform.effect r).2

variable {r : Registry}

/-- The index of the handlers is in step with them. -/
def Coherent (r : Registry) : Prop := r.handlers.Coherent

theorem keeps_change {α : Type} {x : CaselessMap.Change α}
    (hx : Keeps CaselessMap.Coherent x) : Keeps Coherent (change x) :=
  fun r hr => hx r.handlers hr

theorem keeps_register (tag handler : Value) : Keeps Coherent (register tag handler) := by
  unfold register
  split
  · exact keeps_bind (keeps_liftExcept _) fun _ => keeps_fail _
  · split
    · exact keeps_fail _
    · have hassign := keeps_change (CaselessMap.keeps_assign tag handler)
      refine keeps_get_bind fun r hr => keeps_bind (keeps_liftExcept _) (fun found => ?_) r hr
      split
      · exact keeps_bind (keeps_liftExcept _) fun _ =>
          keeps_bind (keeps_liftLogged _) fun _ => hassign
      · exact hassign

theorem keeps_unregister (tag : Value) : Keeps Coherent (unregister tag) :=
  keeps_change (CaselessMap.keeps_remove tag)

theorem keeps_registerBuiltins : Keeps Coherent registerBuiltins := by
  unfold registerBuiltins
  generalize builtins = entries
  refine keeps_forM (fun entry => ?_) entries
  exact keeps_register _ _

/-- **One step of a run**: an operation keeps the index of the handlers in step. -/
theorem Operation.keeps_perform (operation : Operation) : Keeps Coherent operation.perform := by
  cases operation with
  | register tag handler => exact keeps_register tag handler
  | unregister tag => exact keeps_bind (keeps_unregister tag) fun _ => keeps_pure ()
  | registerBuiltins => exact keeps_registerBuiltins

theorem coherent_empty : Coherent empty := CaselessMap.coherent_empty true

theorem coherent_ofValue {entries : Value} (h : (ofValue entries).result = .ok r) :
    r.Coherent := by
  unfold ofValue at h
  split at h
  · rw [Logged.result_bind] at h
    cases hmade : (CaselessMap.ofValue entries true).result with
    | error fault => rw [hmade] at h; cases h
    | ok m =>
        rw [hmade] at h
        obtain rfl : (⟨m⟩ : Registry) = r := Except.ok.inj h
        exact CaselessMap.coherent_ofValue hmade
  · obtain rfl : empty = r := Except.ok.inj h
    exact coherent_empty

/-- **The whole run**: the index of the handlers of every reachable registry is in step. -/
theorem Reachable.coherent (h : Reachable r) : r.Coherent := by
  induction h with
  | ofValue h => exact coherent_ofValue h
  | step _ operation ih => exact operation.keeps_perform _ ih

/-- The registry with the library's handlers is reachable. -/
theorem reachable_standard : Reachable standard :=
  .step (@Reachable.ofValue .null empty rfl) .registerBuiltins

theorem find?_eq_held (h : r.Coherent) (tag : String) :
    r.find? (.text tag) = .ok (r.held tag) :=
  CaselessMap.Coherent.agreesWithScan h |>.find? tag

end LooseData.Tag.Registry
