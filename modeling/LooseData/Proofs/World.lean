import LooseData.Proofs.Tag.StoredDocument
import LooseData.World

set_option autoImplicit false

/-! # Worlds in use

The entries of a world are reached in three ways: as items, as attributes, and by texts that the
world parses. An attribute can have any name that is free (`World.FreeName`): not hidden, and not
that of something that worlds have of their own. Setting such an attribute is setting the item of
its name (`World.effect_setAttr_of_freeName`), and every way of reading shows the value afterwards
(`World.shows_of_freeName`). Items can have other names too, which the attributes do not show.

Whatever is done to a world, in any order and with any failures on the way, its configuration
stays as it is, setting an attribute comes to the same, and what fails changes nothing
(`World.run_attributes`).
-/

namespace LooseData

open Tag

namespace World

variable {w : World Value} {name : String} {v : Value}

/-! ## Attributes -/

/-- A name that an attribute can be set under. -/
def FreeName (name : String) : Prop := hiddenName name = false ∧ name ∉ reserved

/-- The world with an item set. -/
def withItem (w : World Value) (key : Key) (v : Value) : World Value :=
  { w with state := Table.set w.state key v }

theorem effect_assign_text (w : World Value) (name : String) (v : Value) :
    (assign (.text name) v).effect w = (.ok (), w.withItem (.text name) v) := rfl

/-- An attribute under a free name is set as the item of that name. -/
theorem effect_setAttr_of_freeName (h : FreeName name) (w : World Value) (v : Value) :
    (setAttr name v).effect w = (.ok (), w.withItem (.text name) v) := by
  have hfree : (hiddenName name || reserved.contains name) = false := by
    rw [h.1, Bool.false_or, List.contains_eq_mem, decide_eq_false h.2]
  rw [setAttr, hfree]
  rfl

/-- An attribute under any other name is refused. -/
theorem effect_setAttr_of_not_freeName (h : ¬ FreeName name) (w : World Value) (v : Value) :
    (setAttr name v).effect w = (.error (.readOnlyAttribute name), w) := by
  have hreserved : (hiddenName name || reserved.contains name) = true := by
    rw [Bool.or_eq_true, List.contains_iff_mem]
    by_contra hneither
    rw [not_or, Bool.not_eq_true] at hneither
    exact h hneither
  rw [setAttr, hreserved]
  rfl

/-- Under a free name the attribute shows the item. -/
theorem attr_of_freeName (h : FreeName name) (hitem : Table.get? w.state (.text name) = some v) :
    w.attr name = .ok (.value v) := by
  obtain ⟨hshown, hown⟩ := h
  -- The names that are asked for first are hidden or reserved.
  have hconfig : ¬ (name = "config" ∨ name = "_config") := by
    rintro (rfl | rfl)
    · exact hown (by decide)
    · have hhidden : hiddenName "_config" = true := by cbv
      cases hhidden.symm.trans hshown
  have hstate : ¬ name = "_state" := by
    rintro rfl
    have hhidden : hiddenName "_state" = true := by cbv
    cases hhidden.symm.trans hshown
  have hmethod : methods.contains name = false := by
    rw [List.contains_eq_mem, decide_eq_false_iff_not]
    intro hmem
    exact hown (by simp [reserved, hmem])
  rw [attr, if_neg hconfig, if_neg hstate, hmethod, hshown, hitem]
  rfl

/-! ## Items -/

theorem item_of_get? (hitem : Table.get? w.state (.text name) = some v) :
    Table.item w.state (.text name) = .ok v := by
  have hfind : Table.find? w.state (.text name) = .ok (some v) := congrArg Except.ok hitem
  rw [Table.item, hfind]
  rfl

theorem access_of_get? (hitem : Table.get? w.state (.text name) = some v) :
    w.toValue.access (.text name) = .ok v := by
  have hheld : (Node.world w).item? (.text name) = some v := hitem
  have hkey : (Value.text name).key? = some (.text name) := rfl
  show Except.map _ (Layer.lookupEntry (.world w) (.text name)) = _
  simp only [Layer.lookupEntry, hkey, hheld]
  rfl

/-- **Removing an item** fails and changes nothing, or takes the item out of the state. -/
theorem effect_remove (key : Value) (w : World Value) :
    (∃ fault, (remove key).effect w = (.error fault, w)) ∨
      ∃ k, key.key? = some k ∧ Table.has w.state k = true ∧
        (remove key).effect w = (.ok (), { w with state := Table.erase w.state k }) := by
  cases hkey : key.key? with
  | none =>
      have hmust : key.mustBeKey = .error .unhashable := by rw [Value.mustBeKey, hkey]
      refine .inl ⟨.unhashable, Edit.effect_bind_error ?_ _⟩
      rw [Edit.effect_liftExcept, hmust]
  | some k =>
      have hmust : (liftM key.mustBeKey : Change Key).effect w = (.ok k, w) := by
        rw [Edit.effect_liftExcept, Value.mustBeKey, hkey]
      rw [remove, Edit.effect_bind_ok hmust, Edit.effect_bind_ok (Edit.effect_get w)]
      cases hhas : Table.has w.state k with
      | true => exact .inr ⟨k, rfl, hhas, rfl⟩
      | false =>
          left
          -- Showing the key in the message can fail too.
          cases hdisplay : key.display? with
          | error fault => exact ⟨fault, Edit.effect_bind_error (Edit.effect_liftExcept _ w) _⟩
          | ok s => exact ⟨.missingKey s, Edit.effect_bind_ok (Edit.effect_liftExcept _ w) _⟩

/-- Removing an attribute is removing the item that it shows, free name or not. -/
theorem effect_removeAttr (name : String) (w : World Value) :
    (Table.has w.state (.text name) = false ∧
        (removeAttr name).effect w = (.error (.missingAttribute name), w)) ∨
      (Table.has w.state (.text name) = true ∧
        (removeAttr name).effect w =
          (.ok (), { w with state := Table.erase w.state (.text name) })) := by
  rw [removeAttr, Edit.effect_bind_ok (Edit.effect_get w)]
  cases hhas : Table.has w.state (.text name) with
  | true => exact .inr ⟨rfl, rfl⟩
  | false => exact .inl ⟨rfl, rfl⟩

end World

/-! ## Texts -/

namespace Tag.Parser

variable {p : Parser} {functions : Functions} {registry : Registry}

/-- A tag in front of a payload without a tag. -/
theorem result_evaluate_tag (hr : registry.Coherent) (hdepth : p.tooDeep 0 = false)
    {tag payload : List Char} (htag : IsTag tag) (hpayload : ¬ HasTag payload) :
    (p.evaluate functions registry (.text (String.ofList (tag ++ ':' :: payload)))).result =
      p.tagValue functions registry (String.ofList tag) (String.ofList (tag ++ ':' :: payload))
        (.text (String.ofList payload)) := by
  have hsplits : Splits (String.ofList (tag ++ ':' :: payload)).toList [tag] payload := by
    refine ⟨String.toList_ofList.symm, ?_, hpayload⟩
    simp [htag]
  rw [evaluate_of_splits p functions registry hsplits, evaluateFrom_of_not_tooDeep hdepth]
  show (_ >>= _ : Logged Value).result = _
  rw [Logged.result_bind]
  exact result_dispatch hr _ _ _

end Tag.Parser

namespace World

variable {w : World Value} {name : String} {v : Value} {functions : Functions}

/-- **A state tag in front of a name** finds the item of that name, decoded if it is JSON. -/
theorem evaluate_state_of_get? {registry : Registry} (hr : registry.Reachable) {tag : List Char}
    (htag : IsTag tag)
    (hhandler : registry.handler? functions (String.ofList tag) = some Builtin.state.apply)
    (hname : Path.IsName name.toList) (hcolon : ':' ∉ name.toList) {maxDepth : Option Int}
    (hdepth : ∀ limit ∈ maxDepth, 0 ≤ limit)
    (hitem : Table.get? w.state (.text name) = some v) :
    ((w.parser maxDepth).evaluate functions registry
      (.text (String.ofList (tag ++ ':' :: name.toList)))).result = .ok (Json.decodeText v) := by
  have huntagged : ¬ HasTag name.toList := by
    rintro ⟨inner, payload, -, hsplit⟩
    exact hcolon (by simp [hsplit])
  have hshallow : (w.parser maxDepth).tooDeep 0 = false := by
    cases maxDepth with
    | none => rfl
    | some limit => exact decide_eq_false (not_lt.mpr (hdepth limit rfl))
  rw [Parser.result_evaluate_tag hr.coherent hshallow htag huntagged, Parser.tagValue, hhandler]
  show (Builtin.state.apply _).result = _
  rw [Builtin.result_apply_state]
  show (w.toValue.resolve (.text (String.ofList name.toList))).result = _
  rw [Value.resolve_eq_follow, Path.moves_name hname, String.ofList_toList]
  show (w.toValue.access (.text name)).bind (fun held => .ok (Json.decodeText held)) = _
  rw [access_of_get? hitem]
  rfl

/-- All that shows an item of a world shows a value under a name: the attribute, the item, access to
the world as to any mapping, and a state tag, for which the name must be one token of a path. -/
structure Shows (functions : Functions) (w : World Value) (name : String) (v : Value) : Prop where
  attr_eq : w.attr name = .ok (.value v)
  item_eq : Table.item w.state (.text name) = .ok v
  access_eq : w.toValue.access (.text name) = .ok v
  evaluate_eq : Path.IsName name.toList → ':' ∉ name.toList →
    ∀ (registry : Registry) (tag : List Char) (maxDepth : Option Int), registry.Reachable →
      IsTag tag →
      registry.handler? functions (String.ofList tag) = some Builtin.state.apply →
      (∀ limit ∈ maxDepth, 0 ≤ limit) →
      ((w.parser maxDepth).evaluate functions registry
        (.text (String.ofList (tag ++ ':' :: name.toList)))).result = .ok (Json.decodeText v)

/-- **Under a free name everything shows the item.** -/
theorem shows_of_freeName (functions : Functions) (h : FreeName name)
    (hitem : Table.get? w.state (.text name) = some v) : w.Shows functions name v where
  attr_eq := attr_of_freeName h hitem
  item_eq := item_of_get? hitem
  access_eq := access_of_get? hitem
  evaluate_eq hname hcolon _ _ _ hr htag hhandler hdepth :=
    evaluate_state_of_get? hr htag hhandler hname hcolon hdepth hitem

/-! ## Runs -/

/-- What can be done to a world. A text is parsed with the registry that there is at the time. -/
inductive Operation where
  | assign (key v : Value)
  | remove (key : Value)
  | setAttr (name : String) (v : Value)
  | removeAttr (name : String)
  | parse (registry : Registry) (maxDepth : Option Int) (v : Value)

/-- What an operation does to a world. Only a parse has a value. -/
def Operation.perform (functions : Functions) : Operation → Change (Option Value)
  | .assign key v => do
    World.assign key v
    pure none
  | .remove key => do
    World.remove key
    pure none
  | .setAttr name v => do
    World.setAttr name v
    pure none
  | .removeAttr name => do
    World.removeAttr name
    pure none
  | .parse registry maxDepth v => do
    let w ← get
    let parsed ← (w.parser maxDepth).evaluate functions registry v
    pure (some parsed)

/-- The world after the given operations, one after another. One that fails does not keep the next
from being done. -/
def run (functions : Functions) : List Operation → World Value → World Value
  | [], w => w
  | operation :: rest, w => run functions rest ((operation.perform functions).effect w).2

theorem keeps_config_modifyState (config : Table Value) (f : Table Value → Table Value) :
    Edit.Keeps (fun w : World Value => w.config = config) (modifyState f) := fun _ h => h

/-- One operation keeps the configuration. -/
theorem keeps_config_perform (config : Table Value) (operation : Operation) :
    Edit.Keeps (fun w : World Value => w.config = config) (operation.perform functions) := by
  have hmodify := keeps_config_modifyState config
  have hget : Edit.Keeps (fun w : World Value => w.config = config) get := fun _ h => h
  cases operation with
  | assign key v =>
      refine Edit.keeps_bind ?_ fun _ => Edit.keeps_pure none
      exact Edit.keeps_bind (Edit.keeps_liftExcept _) fun _ => hmodify _
  | remove key =>
      refine Edit.keeps_bind ?_ fun _ => Edit.keeps_pure none
      refine Edit.keeps_bind (Edit.keeps_liftExcept _) fun k => Edit.keeps_bind hget fun w => ?_
      split
      · exact hmodify _
      · exact Edit.keeps_bind (Edit.keeps_liftExcept _) fun _ => Edit.keeps_fail _
  | setAttr name v =>
      refine Edit.keeps_bind ?_ fun _ => Edit.keeps_pure none
      unfold World.setAttr
      split
      · exact Edit.keeps_fail _
      · exact hmodify _
  | removeAttr name =>
      refine Edit.keeps_bind ?_ fun _ => Edit.keeps_pure none
      refine Edit.keeps_bind hget fun w => ?_
      split
      · exact hmodify _
      · exact Edit.keeps_fail _
  | parse registry maxDepth v =>
      exact Edit.keeps_bind hget fun w => Edit.keeps_bind (Edit.keeps_liftLogged _) fun _ =>
        Edit.keeps_pure _

/-- **No run changes the configuration.** -/
theorem config_run (operations : List Operation) (w : World Value) :
    (run functions operations w).config = w.config := by
  induction operations generalizing w with
  | nil => rfl
  | cons operation rest ih => exact (ih _).trans (keeps_config_perform w.config operation w rfl)

/-- **A world after any run.** The configuration is what it was. Setting an attribute under a free
name is setting the item of that name, and then everything shows the value; under any other name it
is refused. What is refused, and what cannot be removed, leaves the world as it is. -/
theorem run_attributes (functions : Functions) (operations : List Operation) {w after : World Value}
    (hafter : run functions operations w = after) :
    after.config = w.config ∧
      (∀ name v, FreeName name → ∃ written,
        (setAttr name v).effect after = (.ok (), written) ∧
          (assign (.text name) v).effect after = (.ok (), written) ∧
          written.Shows functions name v) ∧
      (∀ name v, ¬ FreeName name →
        (setAttr name v).effect after = (.error (.readOnlyAttribute name), after)) ∧
      (∀ key fault left, (remove key).effect after = (.error fault, left) → left = after) ∧
      ∀ name fault left, (removeAttr name).effect after = (.error fault, left) → left = after := by
  refine ⟨?_, ?_, ?_, ?_, ?_⟩
  · rw [← hafter]
    exact config_run operations w
  · intro name v hfree
    refine ⟨after.withItem (.text name) v, effect_setAttr_of_freeName hfree after v,
      effect_assign_text after name v, shows_of_freeName functions hfree ?_⟩
    exact Table.get?_set_self after.state (.text name) v
  · exact fun name v hfree => effect_setAttr_of_not_freeName hfree after v
  · intro key fault left hfails
    rcases effect_remove key after with ⟨fault', hstays⟩ | ⟨k, -, -, hremoved⟩
    · exact (Prod.mk.inj (hfails.symm.trans hstays)).2
    · cases hfails.symm.trans hremoved
  · intro name fault left hfails
    rcases effect_removeAttr name after with ⟨-, hstays⟩ | ⟨-, hremoved⟩
    · exact (Prod.mk.inj (hfails.symm.trans hstays)).2
    · cases hfails.symm.trans hremoved

/-- An item that no attribute shows, a refusal and a failure. -/
def shadowedAndRefused : List Operation :=
  [.assign (.text "config") (.int 2), .setAttr "_hidden" .null, .removeAttr "absent"]

theorem run_attributes_token : ∃ written,
    (setAttr "token" (.text "[1]")).effect
        (run (fun _ _ => .fail .notCallable) shadowedAndRefused
          ⟨[(.text "port", .int 80)], []⟩) = (.ok (), written) ∧
      written.attr "token" = .ok (.value (.text "[1]")) ∧
      ((written.parser none).evaluate (fun _ _ => .fail .notCallable) .standard
        (.text "state:token")).result = .ok (.list [.int 1]) := by
  have hfree : FreeName "token" := ⟨by cbv, by decide⟩
  obtain ⟨-, hset, -⟩ := run_attributes (fun _ _ => .fail .notCallable) shadowedAndRefused
    (w := ⟨[(.text "port", .int 80)], []⟩) rfl
  obtain ⟨written, hwritten, -, hshows⟩ := hset "token" (.text "[1]") hfree
  have hparsed := hshows.evaluate_eq (by decide) (by decide) .standard "state".toList none
    Registry.reachable_standard (by decide) rfl (by simp)
  have hdecoded : Json.decodeText (.text "[1]") = .list [.int 1] := by cbv
  exact ⟨written, hwritten, hshows.attr_eq, hdecoded ▸ hparsed⟩

end World

end LooseData
