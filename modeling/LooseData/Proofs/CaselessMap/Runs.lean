import LooseData.CaselessMap.Edit
import LooseData.Proofs.CaselessMap.Coherence
import LooseData.Proofs.Effect
import Mathlib.Data.List.Dedup

set_option autoImplicit false

/-! # Caseless maps of values through whole runs

A caseless map of values is made from pairs, a mapping or an object and then changed by one
operation after another. An operation may stop with a fault, and one that consists of several
steps then keeps the steps that it has done. `Reachable` collects every map that arises so.

No step of any operation breaks the coherence of the index (`keeps_perform`), so every reachable
map is coherent (`Reachable.coherent`), and its lookups find what a scan of the entries finds
(`AgreesWithScan`).
-/

namespace LooseData.CaselessMap

open Edit

/-! ## Operations -/

/-- An operation that changes a caseless map of values. -/
inductive Operation where
  /-- Set a key, as an item or by name. -/
  | assign (key value : Value)
  /-- Remove a key if it is there. -/
  | remove (key : Value)
  /-- Remove a key, which must be there. -/
  | removeItem (key : Value)
  | clear
  | pop (key : Value) (default : Option Value)
  | popFirst
  | findOrSet (key default : Value)
  | update (entries : Value)

/-- Remove all entries. -/
def clearAll : Change Unit := modify clear

/-- The change that an operation makes; what it returns is left out. -/
def Operation.perform : Operation → Change Unit
  | .assign key value => CaselessMap.assign key value
  | .remove key => do let _ ← CaselessMap.remove key
  | .removeItem key => CaselessMap.removeItem key
  | .clear => clearAll
  | .pop key default => do let _ ← CaselessMap.pop key default
  | .popFirst => do let _ ← CaselessMap.popFirst
  | .findOrSet key default => do let _ ← CaselessMap.findOrSet key default
  | .update entries => CaselessMap.update entries

/-- The maps that are made of pairs, of a mapping or of an object and have gone through any
operations since, whether these ended with a value or with a fault. -/
inductive Reachable : CaselessMap Value → Prop where
  | ofValue {entries : Value} {silent : Bool} {m : CaselessMap Value}
      (h : (ofValue entries silent).result = .ok m) : Reachable m
  | ofObject {v : Value} {m : CaselessMap Value} (h : (ofObject v).result = .ok m) : Reachable m
  | step {m : CaselessMap Value} (h : Reachable m) (operation : Operation) :
      Reachable (operation.perform.effect m).2

/-! ## No operation breaks the index -/

variable {m : CaselessMap Value}

@[simp] theorem label?_text (key : String) : (Value.text key).label? = .ok (.text key) := rfl

@[simp] theorem result_setLogged {α : Type} (m : CaselessMap α) (label : Label) (value : α) :
    (m.setLogged label value).result = .ok (m.set label value) := by
  rw [setLogged, Logged.result_bind]
  have htrace : (m.setTrace label).result = .ok () := by
    unfold setTrace
    split
    · split
      · rfl
      · rfl
    · rfl
  rw [htrace]
  rfl

@[simp] theorem result_deleteLogged (m : CaselessMap Value) (label : Label) :
    (m.deleteLogged label).result = .ok (m.delete label) := by
  unfold deleteLogged
  split
  · split
    · rfl
    · rfl
  · rfl

theorem keeps_assign (key value : Value) : Keeps Coherent (assign key value) := by
  refine keeps_bind (keeps_liftExcept _) fun label => keeps_get_bind fun m hm => ?_
  simpa using coherent_set hm label value

theorem keeps_assignAll (entries : List (Except Fault (Value × Value))) :
    Keeps Coherent (assignAll entries) := by
  refine keeps_forM (fun entry => ?_) entries
  exact keeps_bind (keeps_liftExcept _) fun pair => keeps_assign pair.1 pair.2

theorem keeps_remove (key : Value) : Keeps Coherent (remove key) := by
  refine keeps_get_bind fun m hm => ?_
  cases hkey : key.label? with
  | error fault =>
      -- In an empty map nothing is looked up, so an unhashable key is absent and no fault.
      by_cases hempty : fault = .unhashable ∧ m.size = 0
      · simpa [hempty] using hm
      · simpa [hempty] using hm
  | ok label => simpa using coherent_delete hm label

theorem keeps_removeItem (key : Value) : Keeps Coherent (removeItem key) := by
  refine keeps_bind (keeps_remove key) fun found => ?_
  cases found with
  | true => exact keeps_pure ()
  | false => exact keeps_bind (keeps_liftExcept _) fun _ => keeps_fail _

theorem keeps_pop (key : Value) (default : Option Value) : Keeps Coherent (pop key default) := by
  refine keeps_get_bind fun m hm => keeps_bind (keeps_liftExcept _) (fun found => ?_) m hm
  match found, default with
  | some v, _ => exact keeps_bind (keeps_removeItem key) fun _ => keeps_pure v
  | none, some v => exact keeps_pure v
  | none, none => exact keeps_bind (keeps_liftExcept _) fun _ => keeps_fail _

theorem keeps_popFirst : Keeps Coherent popFirst := by
  refine keeps_get_bind fun m hm => ?_
  cases hentries : m.entries with
  | nil => exact hm
  | cons entry rest => simpa using coherent_delete hm entry.1

theorem keeps_findOrSet (key default : Value) : Keeps Coherent (findOrSet key default) := by
  refine keeps_get_bind fun m hm => keeps_bind (keeps_liftExcept _) (fun found => ?_) m hm
  cases found with
  | some v => exact keeps_pure v
  | none => exact keeps_bind (keeps_assign key default) fun _ => keeps_pure default

theorem keeps_update (entries : Value) : Keeps Coherent (update entries) :=
  keeps_bind (keeps_liftExcept _) keeps_assignAll

/-- **One step of a run.** An operation keeps the index in step with the entries, also where it
stops with a fault. -/
theorem keeps_perform (operation : Operation) : Keeps Coherent operation.perform := by
  cases operation with
  | assign key value => exact keeps_assign key value
  | remove key => exact keeps_bind (keeps_remove key) fun _ => keeps_pure ()
  | removeItem key => exact keeps_removeItem key
  | clear => exact fun m _ => coherent_clear m
  | pop key default => exact keeps_bind (keeps_pop key default) fun _ => keeps_pure ()
  | popFirst => exact keeps_bind keeps_popFirst fun _ => keeps_pure ()
  | findOrSet key default => exact keeps_bind (keeps_findOrSet key default) fun _ => keeps_pure ()
  | update entries => exact keeps_update entries

theorem coherent_ofValue {entries : Value} {silent : Bool}
    (h : (ofValue entries silent).result = .ok m) : m.Coherent := by
  have hafter := keeps_update entries (empty silent) (coherent_empty silent)
  rw [ofValue, Logged.result_bind] at h
  cases hdone : ((update entries).run (empty silent)).1.result with
  | error fault => rw [hdone] at h; cases h
  | ok _ =>
      rw [hdone] at h
      obtain rfl : ((update entries).run (empty silent)).2 = m := Except.ok.inj h
      exact hafter

theorem coherent_ofObject {v : Value} (h : (ofObject v).result = .ok m) : m.Coherent := by
  unfold ofObject at h
  split at h
  · exact coherent_ofValue h
  · split at h
    · exact coherent_ofValue h
    · cases h
  · obtain rfl : empty false = m := Except.ok.inj h
    exact coherent_empty false
  · cases h

/-- **The whole run.** The index of every reachable map is in step with its entries. -/
theorem Reachable.coherent (h : Reachable m) : m.Coherent := by
  induction h with
  | ofValue h => exact coherent_ofValue h
  | ofObject h => exact coherent_ofObject h
  | step _ operation ih => exact keeps_perform operation _ ih

/-! ## Lookups agree with a scan -/

theorem display?_text (key : String) : (Value.text key).display? = .ok (Text.quote key) := by
  simp [Value.display?, Value.tooLong, Value.display, Value.text, Atom.tooLong, Atom.display]

/-- An item is the value that the scan finds; where it finds none the key is missing. -/
theorem Coherent.item_eq_scan (h : m.Coherent) (key : String) :
    m.item (.text key) = match m.scan (.text key) with
      | some entry => .ok entry.2
      | none => .error (.missingKey (Text.quote key)) := by
  rw [item, find?, label?_text, Except.map, h.get?_eq_scan]
  cases m.scan (.text key) with
  | some entry => rfl
  | none =>
      show (Value.text key).display? >>= (fun shown => .error (.missingKey shown)) = _
      rw [display?_text]
      rfl

/-- The lookups by a text find what going through all entries by folded label finds. -/
structure AgreesWithScan (m : CaselessMap Value) : Prop where
  find? : ∀ key : String, m.find? (.text key) = .ok ((m.scan (.text key)).map Prod.snd)
  item : ∀ key : String, m.item (.text key) = match m.scan (.text key) with
    | some entry => .ok entry.2
    | none => .error (.missingKey (Text.quote key))
  has : ∀ key : String, m.has (.text key) = (m.scan (.text key)).isSome
  contains : ∀ key : String, m.contains (.text key) = (m.scan (.text key)).isSome
  /-- The size is the number of different folded labels. -/
  size : m.size = m.folds.dedup.length

theorem Coherent.agreesWithScan (h : m.Coherent) : m.AgreesWithScan where
  find? key := by rw [CaselessMap.find?, label?_text, Except.map, h.get?_eq_scan]
  item key := h.item_eq_scan key
  has key := h.has_eq_scan (.text key)
  contains key := h.has_eq_scan (.text key)
  size := by rw [h.nodup_folds.dedup, folds, List.length_map, CaselessMap.size]

/-- **The representation invariant.** In every reachable map the index sends the folded label of
each entry to its position and holds nothing else, no two entries have the same folded label,
and so every lookup finds what a scan of the entries finds. -/
theorem reachable_invariant (h : Reachable m) :
    m.Coherent ∧ m.folds.Nodup ∧ m.AgreesWithScan :=
  ⟨h.coherent, h.coherent.nodup_folds, h.coherent.agreesWithScan⟩

/-- Three entries from pairs of different kinds, one of them a text of two characters. -/
def threeEntries : CaselessMap Value :=
  ⟨[(.text "Aa", .int 1), (.text "B", .int 2), (.text "c", .text "d")],
    [(.text "aa", 0), (.text "b", 1), (.text "c", 2)], false⟩

/-- The entries after the first has gone, and after an update that sets `C` and then stops at
something that is no pair. -/
def brokenOff : CaselessMap Value :=
  ((Operation.update (.list [.list [.text "C", .int 3], .int 7, .text "zz"])).perform.effect
    ((Operation.removeItem (.text "AA")).perform.effect threeEntries).2).2

theorem reachable_brokenOff : Reachable brokenOff := by
  refine .step (.step ?_ _) _
  exact @Reachable.ofValue
    (.list [.list [.text "Aa", .int 1], .node (.tuple [.text "B", .int 2]), .text "cd"])
    false threeEntries rfl

theorem brokenOff_invariant :
    Reachable brokenOff ∧ brokenOff.entries = [(.text "B", .int 2), (.text "C", .int 3)] ∧
      brokenOff.Coherent ∧ brokenOff.folds.Nodup ∧ brokenOff.AgreesWithScan :=
  ⟨reachable_brokenOff, rfl, reachable_invariant reachable_brokenOff⟩

end LooseData.CaselessMap
