import LooseData.Proofs.Layer.Writing
import LooseData.Proofs.Store.Holding

set_option autoImplicit false

/-! # Writing and reading one key

Writing under a key and reading it are a lens on a collection of a store: a write that fails changes
nothing, and after one that succeeds the key gives what has been written, while everything else is
as it was, in the collection and in all others. The one key that is written but not read is a byte
string in a caseless map.
-/

namespace LooseData.Store

open Edit

variable {s s' : Store} {target v : Slot} {key : Value}

/-- A write that fails changes nothing. -/
theorem eq_of_assign_error [Memory] {fault : Fault}
    (h : (assign target key v).effect s = (.error fault, s')) : s' = s := by
  rw [effect_assign] at h
  cases hwrite : ((s.layer target).assign key v).result with
  | error _ =>
      rw [hwrite] at h
      exact (congrArg Prod.snd h).symm
  | ok n =>
      rw [hwrite] at h
      cases h

/-- A write that succeeds puts a new level in place of the old one, and leaves all others. -/
theorem layers_of_assign [Memory] (hl : (s.layer target).TakesWrites)
    (h : (assign target key v).effect s = (.ok (), s')) :
    ∃ n, ((s.layer target).assign key v).result = .ok n ∧ s'.layer target = .node n ∧
      ∀ slot, slot ≠ target → s'.layer slot = s.layer slot := by
  obtain ⟨n, hn, rfl⟩ := exists_of_effect_assign h
  refine ⟨n, hn, ?_, fun slot hslot => layer_write_of_ne hslot n⟩
  cases hlayer : s.layer target with
  | node m => exact layer_write_self hlayer n
  | atom a =>
      rw [hlayer] at hl
      exact hl.elim

/-- **Writing and reading are a lens.** A write that fails changes nothing. After one that succeeds
the key gives the value that was written, except a byte string in a caseless map, which gives null.
The collection keeps everything else, where it stands, and no other collection changes. -/
theorem access_after_assign [Memory] (s : Store) (target : Slot) (hmade : (s.layer target).WellMade)
    (hl : (s.layer target).TakesWrites) (key : Value) (hkey : (s.layer target).LooksUp key)
    (v : Slot) :
    (∀ fault s', (assign target key v).effect s = (.error fault, s') → s' = s) ∧
    ∀ s', (assign target key v).effect s = (.ok (), s') →
      (s'.layer target).access key =
        .ok (if (s.layer target).overlooks key then .atom .null else v) ∧
      (s'.layer target).WellMade ∧
      (∃ n, s'.layer target = .node n ∧ (s.layer target).KeepsOthers key n) ∧
      ∀ slot, slot ≠ target → s'.layer slot = s.layer slot := by
  refine ⟨fun _ _ h => eq_of_assign_error h, fun s' h => ?_⟩
  obtain ⟨n, hn, hlayer, hothers⟩ := layers_of_assign hl h
  have haccess := hmade.access_of_assign hl hkey hn
  have hmade' := hmade.of_assign hl hn
  rw [← hlayer] at haccess hmade'
  exact ⟨haccess, hmade', ⟨n, hlayer, hmade.keepsOthers_of_assign hl hn⟩, hothers⟩

/-- A list of two items, and a caseless map without entries. -/
def shelves : Store := ⟨#[.list [.atom (.int 1), .atom (.int 2)], .caseless (.empty false)]⟩

section

open scoped Memory

/-- Writing far behind the end of a list, under a text of digits. -/
theorem access_after_assign_shelves :
    (shelves.layer (.at 0)).WellMade ∧ (shelves.layer (.at 0)).TakesWrites ∧
      (shelves.layer (.at 0)).LooksUp (.text "4") ∧
      ∃ s', (assign (.at 0) (.text "4") (.atom (.int 9))).effect shelves = (.ok (), s') ∧
        (s'.layer (.at 0)).access (.text "4") = .ok (.atom (.int 9)) ∧
        ∃ n, s'.layer (.at 0) = .node n ∧
          (shelves.layer (.at 0)).KeepsOthers (.text "4") n := by
  have hmade : (shelves.layer (.at 0)).WellMade := by
    rintro n hn hmapping
    obtain rfl := Layer.node.inj hn
    cases hmapping
  obtain ⟨s', heffect⟩ : ∃ s', (assign (.at 0) (.text "4") (.atom (.int 9))).effect shelves =
      (.ok (), s') := ⟨_, rfl⟩
  have hlens := access_after_assign shelves (.at 0) hmade trivial (.text "4") rfl (.atom (.int 9))
  obtain ⟨haccess, -, hothers, -⟩ := hlens.2 s' heffect
  exact ⟨hmade, trivial, rfl, s', heffect, haccess, hothers⟩

/-- **A byte string is written and not found**: a caseless map takes it as a label, and a lookup
does not ask the map for it. -/
theorem bytes_label_not_found :
    (shelves.layer (.at 1)).WellMade ∧ (shelves.layer (.at 1)).TakesWrites ∧
      (shelves.layer (.at 1)).LooksUp (.atom (.bytes [65])) ∧
      ∃ s', (assign (.at 1) (.atom (.bytes [65])) (.atom (.int 1))).effect shelves = (.ok (), s') ∧
        (s'.layer (.at 1)).access (.atom (.bytes [65])) ≠ .ok (.atom (.int 1)) := by
  have hmade : (shelves.layer (.at 1)).WellMade := by
    rintro n hn -
    obtain rfl := Layer.node.inj hn
    exact CaselessMap.coherent_empty false
  refine ⟨hmade, trivial, rfl, _, rfl, fun h => ?_⟩
  have hnull : Except.ok (Slot.atom .null) = (.ok (.atom (.int 1)) : Except Fault Slot) := h
  cases hnull

end

end LooseData.Store
