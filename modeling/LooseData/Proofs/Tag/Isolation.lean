import LooseData.Proofs.Tag.Table
import LooseData.Tag.Registries
import Mathlib

set_option autoImplicit false

/-! # Registries do not interfere

A program creates registries, copies them, changes them, evaluates texts, and discards the shared
registry, in any order (`Registries.Operation`). Beside the registries we keep a ledger: for each
registry its life, that is where it comes from and which changes were made to it since. A life
mentions no other registry, except that a copy comes from its source's life up to the copying.

Every registry refers to a table of its own, which no other registry writes to, and this table is
always that of its life (`Registries.run_follows_lives`). So no registry ever shows what was done to
another one. Whoever has no registry of their own uses the
shared one of the moment: after it has been discarded, a new one with the library's handlers.
-/

namespace LooseData.Tag.Registries

open Edit

/-! ## Operations on registries -/

/-- An operation of a program on its registries. Whose registry is meant is said by its number, or
by nothing for the shared one. -/
inductive Operation where
  | create (entries : Value)
  | createStandard
  | copy (source : Option Nat)
  | obtainShared
  | resetShared
  | change (whose : Option Nat) (operation : Registry.Operation)
  | evaluate (p : Parser) (functions : Functions) (own : Option Nat) (v : Value)

/-- The change that an operation makes; what it returns is left out. -/
def Operation.perform : Operation → Change Unit
  | .create entries => do
    let r ← Registry.ofValue entries
    let _ ← add r
  | .createStandard => do let _ ← add Registry.standard
  | .copy source => do
    let number ← numberOf source
    let _ ← Registries.copy number
  | .obtainShared => do let _ ← sharedNumber
  | .resetShared => Registries.resetShared
  | .change whose operation => do
    let number ← numberOf whose
    Registries.change number operation.perform
  | .evaluate p functions own v => do let _ ← Registries.evaluate p functions own v

/-- The registries after operations, one after another, also those that stopped with a fault. -/
def run (operations : List Operation) (rs : Registries) : Registries :=
  operations.foldl (fun rs operation => (operation.perform.effect rs).2) rs

/-! ## Lives of registries -/

/-- Where a registry comes from and what was done to it since. -/
inductive Life where
  | made (t : HandlerTable)
  | standard
  | copied (source : Life)
  | after (life : Life) (operation : Registry.Operation)

/-- The table that a life ends with. -/
def Life.table : Life → HandlerTable
  | .made t => t
  | .standard => Registry.Operation.on .registerBuiltins []
  | .copied source => source.table
  | .after life operation => operation.on life.table

/-- The lives of all registries, and the number of the shared one. -/
structure Ledger where
  lives : List Life
  shared : Option Nat

namespace Ledger

/-- The life of a registry. -/
def life (l : Ledger) (n : Nat) : Life := l.lives.getD n (.made [])

/-- A new life; its number is that of the lives before it. -/
def add (l : Ledger) (life : Life) : Ledger := { l with lives := l.lives ++ [life] }

/-- The number of a registry, and the ledger after the shared one has been made if it was asked for
and there was none. -/
def numberOf (l : Ledger) : Option Nat → Ledger × Nat
  | some n => (l, n)
  | none => match l.shared with
    | some n => (l, n)
    | none => (⟨l.lives ++ [.standard], some l.lives.length⟩, l.lives.length)

/-- The life of a registry of one's own, or else of the shared one that the next use meets. -/
def lifeOf (l : Ledger) (own : Option Nat) : Life := (l.numberOf own).1.life (l.numberOf own).2

end Ledger

/-- What an operation adds to the lives. -/
def Operation.note (l : Ledger) : Operation → Ledger
  | .create entries => match Registry.tableOf? entries with
    | some t => l.add (.made t)
    | none => l
  | .createStandard => l.add .standard
  | .copy source =>
    let (l, n) := l.numberOf source
    l.add (.copied (l.life n))
  | .obtainShared => (l.numberOf none).1
  | .resetShared => { l with shared := none }
  | .change whose operation =>
    let (l, n) := l.numberOf whose
    { l with lives := l.lives.set n (.after (l.life n) operation) }
  | .evaluate _ _ own _ => (l.numberOf own).1

/-- The ledger of operations that start without any registry. -/
def ledger (operations : List Operation) : Ledger :=
  operations.foldl (fun l operation => operation.note l) ⟨[], none⟩

/-! ## The registries follow the lives -/

/-- No two registries refer to the same table. -/
structure Separate (rs : Registries) : Prop where
  lt : ∀ address ∈ rs.all, address < rs.tables.size
  nodup : rs.all.toList.Nodup

theorem separate_empty : Separate empty := ⟨nofun, List.nodup_nil⟩

variable {rs : Registries}

/-- A new registry gets a table of its own. -/
theorem Separate.extend (h : rs.Separate) (r : Registry) : (rs.extend r).Separate where
  lt address haddress := by
    show address < (rs.tables.push r.handlers).size
    rw [Array.size_push]
    rcases Array.mem_push.mp haddress with hmem | rfl
    · exact Nat.lt_succ_of_lt (h.lt address hmem)
    · exact Nat.lt_succ_self _
  nodup := by
    show (rs.all.push rs.tables.size).toList.Nodup
    rw [Array.toList_push, List.nodup_append_comm, List.singleton_append, List.nodup_cons]
    exact ⟨fun hmem => Nat.lt_irrefl _ (h.lt _ (Array.mem_toList_iff.mp hmem)), h.nodup⟩

/-- Writing to tables does not change which registry refers to which. -/
theorem Separate.write (h : rs.Separate) (number : Nat) (r : Registry) :
    (rs.write number r).Separate := by
  unfold Registries.write
  split
  · refine ⟨fun address haddress => ?_, h.nodup⟩
    rw [Array.size_setIfInBounds]
    exact h.lt address haddress
  · exact h

theorem registry_extend (h : rs.Separate) (r : Registry) (n : Nat) :
    (rs.extend r).registry n = if n = rs.all.size then r else rs.registry n := by
  unfold registry Registries.extend
  dsimp only
  rw [Array.getElem?_push]
  by_cases hn : n = rs.all.size
  · rw [if_pos hn, if_pos hn]
    dsimp only
    rw [Array.getD_eq_getD_getElem?, Array.getElem?_push_size]
    rfl
  · rw [if_neg hn, if_neg hn]
    cases hn : rs.all[n]? with
    | none => rfl
    | some address =>
        have hlt := h.lt address (Array.mem_of_getElem? hn)
        dsimp only
        rw [Array.getD_eq_getD_getElem?, Array.getD_eq_getD_getElem?, Array.getElem?_push,
          if_neg (Nat.ne_of_lt hlt)]

/-- What is written to a registry is in that registry alone, since no other one refers to its
table. -/
theorem registry_write (h : rs.Separate) (number : Nat) (r : Registry) (n : Nat) :
    (rs.write number r).registry n =
      if n = number ∧ n < rs.all.size then r else rs.registry n := by
  unfold Registries.write
  cases hnumber : rs.all[number]? with
  | none =>
      rw [if_neg]
      rintro ⟨rfl, hlt⟩
      exact absurd hlt (Nat.not_lt.mpr (Array.getElem?_eq_none_iff.mp hnumber))
  | some address =>
      have hlt := h.lt address (Array.mem_of_getElem? hnumber)
      unfold registry
      dsimp only
      by_cases heq : n = number
      · subst heq
        rw [hnumber, if_pos ⟨rfl, (Array.getElem?_eq_some_iff.mp hnumber).1⟩]
        dsimp only
        rw [Array.getD_eq_getD_getElem?, Array.getElem?_setIfInBounds_self_of_lt hlt]
        rfl
      · rw [if_neg fun hboth => heq hboth.1]
        cases hn : rs.all[n]? with
        | none => rfl
        | some address' =>
            have hne : address ≠ address' := by
              rintro rfl
              have hsize := (Array.getElem?_eq_some_iff.mp hn).1
              rw [← Array.getElem?_toList] at hn hnumber
              exact heq ((List.getElem?_inj hsize h.nodup).mp (hn.trans hnumber.symm))
            dsimp only
            rw [Array.getD_eq_getD_getElem?, Array.getD_eq_getD_getElem?,
              Array.getElem?_setIfInBounds_ne hne]

theorem Ledger.life_add (l : Ledger) (life : Life) (n : Nat) :
    (l.add life).life n = if n = l.lives.length then life else l.life n := by
  unfold Ledger.life Ledger.add
  rw [List.getD_eq_getElem?_getD, List.getD_eq_getElem?_getD]
  dsimp only
  by_cases heq : n = l.lives.length
  · simp [heq]
  · rw [if_neg heq, List.getElem?_append]
    split
    · rfl
    · rw [List.getElem?_eq_none (by simp; omega), List.getElem?_eq_none (by omega)]

theorem Ledger.life_set (l : Ledger) (number : Nat) (life : Life) (n : Nat) :
    ({ l with lives := l.lives.set number life } : Ledger).life n =
      if n = number ∧ n < l.lives.length then life else l.life n := by
  unfold Ledger.life
  rw [List.getD_eq_getElem?_getD, List.getD_eq_getElem?_getD, List.getElem?_set]
  by_cases heq : number = n
  · subst heq
    by_cases hlt : number < l.lives.length
    · simp [hlt]
    · simp [hlt]
  · simp [heq, Ne.symm heq]

/-- The registries are those of the ledger: as many, with the same one shared, each with a table of
its own, which is that of its life. -/
structure Follows (rs : Registries) (l : Ledger) : Prop where
  separate : rs.Separate
  size : rs.all.size = l.lives.length
  shared : rs.shared = l.shared
  coherent : ∀ n, (rs.registry n).Coherent
  table : ∀ n, (rs.registry n).table = (l.life n).table

variable {l : Ledger}

theorem follows_empty : Follows empty ⟨[], none⟩ where
  separate := separate_empty
  size := rfl
  shared := rfl
  coherent := fun _ => Registry.coherent_empty
  table := fun _ => rfl

theorem Follows.extend (h : Follows rs l) {r : Registry} {life : Life} (hr : r.Coherent)
    (htable : r.table = life.table) : Follows (rs.extend r) (l.add life) where
  separate := h.separate.extend r
  size := by
    simp [Ledger.add, Registries.extend, h.size]
  shared := h.shared
  coherent n := by
    rw [registry_extend h.separate]
    split
    · exact hr
    · exact h.coherent n
  table n := by
    rw [registry_extend h.separate, Ledger.life_add, h.size]
    split
    · exact htable
    · exact h.table n

theorem size_write (rs : Registries) (number : Nat) (r : Registry) :
    (rs.write number r).all.size = rs.all.size ∧ (rs.write number r).shared = rs.shared := by
  unfold Registries.write
  split <;> exact ⟨rfl, rfl⟩

/-- A change of one registry is a change of its life, and leaves all others as they are. -/
theorem Follows.change (h : Follows rs l) (number : Nat) (operation : Registry.Operation) :
    Follows ((Registries.change number operation.perform).effect rs).2
        { l with lives := l.lives.set number (.after (l.life number) operation) } ∧
      ∀ n ≠ number,
        ((Registries.change number operation.perform).effect rs).2.registry n = rs.registry n := by
  have hchanged (n : Nat) := registry_write h.separate number
    (operation.perform.effect (rs.registry number)).2 n
  obtain ⟨hsize, hshared⟩ := size_write rs number (operation.perform.effect (rs.registry number)).2
  refine ⟨⟨h.separate.write _ _, ?_, hshared.trans h.shared, fun n => ?_, fun n => ?_⟩,
    fun n hn => ?_⟩
  · rw [List.length_set, ← h.size]
    exact hsize
  · refine (congrArg Registry.Coherent (hchanged n)).mpr ?_
    split
    · exact operation.keeps_perform _ (h.coherent number)
    · exact h.coherent n
  · refine (congrArg Registry.table (hchanged n)).trans ?_
    rw [Ledger.life_set, h.size]
    split
    · rw [Registry.table_perform (h.coherent number), h.table number]
      rfl
    · exact h.table n
  · exact (hchanged n).trans (if_neg fun heq => hn heq.1)

/-- Asking for a registry makes the shared one if it is asked for and there is none, and leaves all
others as they are. -/
theorem Follows.numberOf (h : Follows rs l) (own : Option Nat) :
    ∃ rs', (numberOf own).effect rs = (.ok (l.numberOf own).2, rs') ∧
      Follows rs' (l.numberOf own).1 ∧ rs.all.size ≤ rs'.all.size ∧
      ∀ n < rs.all.size, rs'.registry n = rs.registry n := by
  cases own with
  | some n => exact ⟨rs, rfl, h, Nat.le_refl _, fun _ _ => rfl⟩
  | none =>
      unfold Registries.numberOf Ledger.numberOf sharedNumber
      rw [effect_bind_ok (effect_get rs), ← h.shared]
      cases hshared : rs.shared with
      | some n => exact ⟨rs, rfl, h, Nat.le_refl _, fun _ _ => rfl⟩
      | none =>
          have hadd : Follows _ (l.add .standard) :=
            h.extend Registry.reachable_standard.coherent Registry.table_standard
          refine ⟨{ rs.extend .standard with shared := some rs.all.size }, ?_,
            ⟨⟨hadd.separate.lt, hadd.separate.nodup⟩, hadd.size, ?_, hadd.coherent, hadd.table⟩, ?_,
            fun n hn => ?_⟩
          · rw [← h.size]
            rfl
          · rw [h.size]
          · simp [Registries.extend]
          · exact (registry_extend h.separate .standard n).trans (if_neg (Nat.ne_of_lt hn))

/-! ### What the single operations do -/

theorem effect_create (entries : Value) (rs : Registries) :
    ((Operation.create entries).perform.effect rs).2 =
      match (Registry.ofValue entries).result with
      | .ok r => rs.extend r
      | .error _ => rs := by
  show ((liftM (Registry.ofValue entries) >>= fun r => Registries.add r >>= fun _ => pure () :
    Change Unit).effect rs).2 = _
  rw [effect_bind, effect_liftLogged]
  cases (Registry.ofValue entries).result <;> rfl

theorem effect_copy {source : Option Nat} {number : Nat} {rs' : Registries}
    (hnumber : (numberOf source).effect rs = (.ok number, rs')) {r : Registry}
    (hr : (rs'.registry number).copy.result = .ok r) :
    ((Operation.copy source).perform.effect rs).2 = rs'.extend r := by
  show ((numberOf source >>= fun number => Registries.copy number >>= fun _ => pure () :
    Change Unit).effect rs).2 = _
  rw [effect_bind_ok hnumber]
  unfold Registries.copy
  rw [effect_bind, effect_bind_ok (effect_get rs'), effect_bind, effect_liftLogged, hr]
  rfl

theorem effect_evaluate {p : Parser} {functions : Functions} {own : Option Nat} {number : Nat}
    {rs' : Registries} (hnumber : (numberOf own).effect rs = (.ok number, rs')) (v : Value) :
    (Registries.evaluate p functions own v).effect rs =
      ((p.evaluate functions (rs'.registry number) v).result, rs') := by
  unfold Registries.evaluate
  rw [effect_bind_ok hnumber, effect_bind_ok (effect_get rs'), effect_liftLogged]

/-- What an operation returns is no matter for the registries. -/
theorem effect_discard {α : Type} (x : Change α) (rs : Registries) :
    ((x >>= fun _ => pure () : Change Unit).effect rs).2 = (x.effect rs).2 := by
  rw [effect_bind]
  split
  · rename_i heffect
    rw [heffect]
  · rename_i heffect
    rw [heffect]
    rfl

/-- **One step of a run**: an operation keeps the registries in step with the ledger, and leaves
every registry as it is but the one that it changes. -/
theorem Follows.perform (h : Follows rs l) (operation : Operation) :
    Follows (operation.perform.effect rs).2 (operation.note l) ∧
      ∀ n < rs.all.size,
        (∀ whose change, operation = .change whose change → (l.numberOf whose).2 ≠ n) →
        (operation.perform.effect rs).2.registry n = rs.registry n := by
  cases operation with
  | create entries =>
      rw [effect_create]
      dsimp only [Operation.note]
      rcases Registry.ofValue_eq entries with ⟨r, hr, htable⟩ | ⟨⟨fault, hfault⟩, htable⟩
      · rw [hr, htable]
        refine ⟨h.extend (Registry.coherent_ofValue hr) rfl, fun n hn _ => ?_⟩
        exact (registry_extend h.separate r n).trans (if_neg (Nat.ne_of_lt hn))
      · rw [hfault, htable]
        exact ⟨h, fun _ _ _ => rfl⟩
  | createStandard =>
      refine ⟨h.extend Registry.reachable_standard.coherent Registry.table_standard,
        fun n hn _ => ?_⟩
      exact (registry_extend h.separate .standard n).trans (if_neg (Nat.ne_of_lt hn))
  | copy source =>
      obtain ⟨rs', hnumber, hfollows, hsize, hothers⟩ := h.numberOf source
      -- The source may be the shared registry, which has been made then if there was none.
      obtain ⟨r, hr, hcoherent, htable⟩ := Registry.exists_copy_eq (hfollows.coherent _)
      rw [effect_copy hnumber hr]
      refine ⟨hfollows.extend hcoherent (htable.trans (hfollows.table _)), fun n hn _ => ?_⟩
      rw [registry_extend hfollows.separate, if_neg (Nat.ne_of_lt (Nat.lt_of_lt_of_le hn hsize)),
        hothers n hn]
  | obtainShared =>
      obtain ⟨rs', hnumber, hfollows, -, hothers⟩ := h.numberOf none
      have hstep : (Operation.obtainShared.perform.effect rs).2 = rs' :=
        (effect_discard sharedNumber rs).trans (congrArg Prod.snd hnumber)
      rw [hstep]
      exact ⟨hfollows, fun n hn _ => hothers n hn⟩
  | resetShared =>
      exact ⟨⟨⟨h.separate.lt, h.separate.nodup⟩, h.size, rfl, h.coherent, h.table⟩, fun _ _ _ => rfl⟩
  | change whose operation =>
      obtain ⟨rs', hnumber, hfollows, -, hothers⟩ := h.numberOf whose
      obtain ⟨hchange, hframe⟩ := hfollows.change (l.numberOf whose).2 operation
      have hstep : (Operation.change whose operation).perform.effect rs =
          (Registries.change (l.numberOf whose).2 operation.perform).effect rs' :=
        effect_bind_ok hnumber _
      rw [hstep]
      refine ⟨hchange, fun n hn haim => ?_⟩
      rw [hframe n (Ne.symm (haim whose operation rfl)), hothers n hn]
  | evaluate p functions own v =>
      obtain ⟨rs', hnumber, hfollows, -, hothers⟩ := h.numberOf own
      have hstep : ((Operation.evaluate p functions own v).perform.effect rs).2 = rs' := by
        refine (effect_discard (Registries.evaluate p functions own v) rs).trans ?_
        rw [effect_evaluate hnumber]
      rw [hstep]
      exact ⟨hfollows, fun n hn _ => hothers n hn⟩

/-- **A whole run** keeps the registries in step with the ledger. -/
theorem follows_run (operations : List Operation) :
    Follows (run operations empty) (ledger operations) := by
  induction operations using List.reverseRecOn with
  | nil => exact follows_empty
  | append_singleton operations operation ih =>
      rw [run, ledger, List.foldl_append, List.foldl_append]
      exact (ih.perform operation).1

/-- **Registries do not interfere.** After any operations no two registries refer to the same table,
and every registry has the table of its life. An operation leaves every registry as it is but the one
that it changes. A parser evaluates with the table of its own registry; without one, with that of the
shared registry, which is made with the library's handlers if there is none at the moment. -/
theorem run_follows_lives (operations : List Operation) :
    (run operations empty).all.size = (ledger operations).lives.length ∧
    (run operations empty).all.toList.Nodup ∧
    (∀ n, ((run operations empty).registry n).table = ((ledger operations).life n).table) ∧
    (∀ (operation : Operation) (n : Nat), n < (ledger operations).lives.length →
      (∀ whose change, operation = .change whose change →
        ((ledger operations).numberOf whose).2 ≠ n) →
      (run (operations ++ [operation]) empty).registry n = (run operations empty).registry n) ∧
    ∀ (p : Parser) (functions : Functions) (own : Option Nat) (v : Value) (r : Registry),
      r.Coherent → r.table = ((ledger operations).lifeOf own).table →
      ((Registries.evaluate p functions own v).effect (run operations empty)).1 =
        (p.evaluate functions r v).result := by
  have h := follows_run operations
  refine ⟨h.size, h.separate.nodup, h.table, fun operation n hn haim => ?_,
    fun p functions own v r hr htable => ?_⟩
  · have hstep : run (operations ++ [operation]) empty =
        (operation.perform.effect (run operations empty)).2 := by
      rw [run, List.foldl_append]
      rfl
    rw [hstep]
    exact (h.perform operation).2 n (h.size ▸ hn) haim
  · obtain ⟨rs', hnumber, hfollows, -⟩ := h.numberOf own
    rw [effect_evaluate hnumber]
    have hfind := Registry.find?_eq_of_table_eq (hfollows.coherent _) hr
      ((hfollows.table _).trans htable.symm)
    rw [p.evaluate_congr functions hfind]

/-- A registry and its copy go separate ways, and the shared registry forgets what was registered
before it was discarded. -/
def copiedAndDiscarded : List Operation :=
  [.create (.dict [(.text "a", .atom (.function (.custom "f")))]),
    .copy (some 0),
    .change (some 1) (.register (.text "b") (.atom (.function (.custom "g")))),
    .change (some 0) (.unregister (.text "A")),
    .change none (.register (.text "a") (.atom (.function (.custom "f")))),
    .resetShared]

theorem run_copiedAndDiscarded :
    ((run copiedAndDiscarded empty).registry 0).table = [] ∧
    ((run copiedAndDiscarded empty).registry 1).table =
      [(.text "a", .atom (.function (.custom "f"))), (.text "b", .atom (.function (.custom "g")))] ∧
    ((Registries.evaluate ⟨.null, .dict [], none⟩ (fun _ _ => pure .null) none (.text "a:1")).effect
      (run copiedAndDiscarded empty)).1 = .ok (.text "a:1") := by
  obtain ⟨-, -, htable, -, hevaluate⟩ := run_follows_lives copiedAndDiscarded
  refine ⟨(htable 0).trans ?_, (htable 1).trans ?_, ?_⟩
  · rfl
  · rfl
  · rw [hevaluate _ _ none _ .standard Registry.reachable_standard.coherent Registry.table_standard]
    cbv

end LooseData.Tag.Registries
