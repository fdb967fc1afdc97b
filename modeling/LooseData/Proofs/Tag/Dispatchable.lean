import LooseData.Proofs.Tag.Copies
import LooseData.Proofs.Tag.Isolation

set_option autoImplicit false

/-! # What is in a registry can be dispatched to

Registering checks that a handler can be called and that its tag is not empty. A registry that is
made of given entries takes them as they are. So every entry of a registry, after any operations on
any registries, either is one that the registry or what it was copied from was made of, or has been
checked when it was registered (`Registries.mem_table_of_life`). A checked entry has a text for its
tag, or a byte string, which no text is dispatched to, and it can be called, as functions and
enumerations can.

A tag goes to the function that the registry holds under it, in any letter case
(`Parser.dispatch_of_mem_table`). An operation that ends with a fault changes no registry
(`Registries.Follows.registry_of_fault`).
-/

namespace LooseData.Tag

open CaselessMap

/-! ## Entries that have been checked -/

/-- An entry that a text can be dispatched to: it can be called, and its tag is a text that is not
empty. -/
structure Dispatchable (e : Label × Value) : Prop where
  callable : e.2.callable = true
  tag : ∃ s, e.1 = .text s ∧ s ≠ ""

/-- An entry that has been registered: it can be dispatched to, unless its tag is a byte string. -/
def Checked (e : Label × Value) : Prop :=
  Dispatchable e ∨ e.2.callable = true ∧ ∃ b bytes, e.1 = .bytes (b :: bytes)

theorem mem_setEntry {t : HandlerTable} {label : Label} {v : Value} {e : Label × Value}
    (h : e ∈ setEntry t label v) : e = (label, v) ∨ e ∈ t := by
  induction t with
  | nil => exact .inl (List.mem_singleton.mp h)
  | cons d rest ih =>
      rw [setEntry] at h
      split at h
      · exact (List.mem_cons.mp h).imp_right (List.mem_cons_of_mem d)
      · rcases List.mem_cons.mp h with rfl | h
        · exact .inr List.mem_cons_self
        · exact (ih h).imp_right (List.mem_cons_of_mem d)

namespace Registry

/-- What registering lets through has been checked. -/
theorem checked_of_label? {tag handler : Value} {label : Label}
    (hcallable : handler.callable = true) (htag : tag.truthy = true)
    (hlabel : tag.label? = .ok label) : Checked (label, handler) := by
  unfold Value.label? at hlabel
  split at hlabel
  · rename_i s
    obtain rfl := Except.ok.inj hlabel
    refine .inl ⟨hcallable, s, rfl, ?_⟩
    rintro rfl
    cases htag
  · rename_i bytes
    obtain rfl := Except.ok.inj hlabel
    cases bytes with
    | nil => cases htag
    | cons b bytes => exact .inr ⟨hcallable, b, bytes, rfl⟩
  · cases hlabel
  · cases hlabel

theorem mem_registerIn {t : HandlerTable} {tag handler : Value} {e : Label × Value}
    (h : e ∈ registerIn t tag handler) : e ∈ t ∨ Checked e := by
  unfold registerIn at h
  split at h
  · rename_i haccepted
    obtain ⟨hcallable, htag⟩ := Bool.and_eq_true_iff.mp haccepted
    split at h
    · rename_i label hlabel
      rcases mem_setEntry h with rfl | h
      · exact .inr (checked_of_label? hcallable htag hlabel)
      · exact .inl h
    · exact .inl h
  · exact .inl h

/-- **One operation** adds nothing to a table that has not been checked. -/
theorem Operation.mem_on {operation : Operation} {t : HandlerTable} {e : Label × Value}
    (h : e ∈ operation.on t) : e ∈ t ∨ Checked e := by
  cases operation with
  | register tag handler => exact mem_registerIn h
  | unregister tag =>
      dsimp only [Operation.on] at h
      split at h
      · exact .inl (List.mem_filter.mp h).1
      · exact .inl h
  | registerBuiltins =>
      -- The library's handlers are registered one after another.
      have hfold (bs : List (String × Builtin)) (t : HandlerTable)
          (h : e ∈ bs.foldl
            (fun t b => registerIn t (.text b.1) (.atom (.function (.builtin b.2)))) t) :
          e ∈ t ∨ Checked e := by
        induction bs generalizing t with
        | nil => exact .inl h
        | cons b rest ih =>
            rcases ih _ h with h | h
            · exact mem_registerIn h
            · exact .inr h
      exact hfold builtins t h

/-! ## Operations that fail -/

/-- **What is refused changes nothing.** -/
theorem Operation.eq_of_fault {operation : Operation} {r r' : Registry} (hr : r.Coherent)
    {fault : Fault} (h : operation.perform.effect r = (.error fault, r')) : r' = r := by
  cases operation with
  | register tag handler =>
      have hrefused : ((Registry.register tag handler).effect r).2 = r := by
        cases haccepted : handler.callable && tag.truthy with
        | false => exact effect_register_refused (.inl haccepted) r
        | true =>
            obtain ⟨hcallable, htag⟩ := Bool.and_eq_true_iff.mp haccepted
            cases hlabel : tag.label? with
            | error fault' => exact effect_register_refused (.inr ⟨fault', hlabel⟩) r
            | ok label => cases (effect_register hcallable htag hlabel r).symm.trans h
      exact (congrArg Prod.snd h).symm.trans hrefused
  | unregister tag =>
      cases hlabel : tag.label? with
      | ok label =>
          cases (Edit.effect_bind_ok (effect_unregister hlabel r) fun _ => pure ()).symm.trans h
      | error fault' =>
          -- In an empty registry the tag is merely absent, which is no failure.
          rcases effect_unregister_refused hlabel r with habsent | hstays
          · cases (Edit.effect_bind_ok habsent fun _ => pure ()).symm.trans h
          · have hend := (Edit.effect_bind_error hstays fun _ => pure ()).symm.trans h
            exact (Prod.mk.inj hend).2.symm
  | registerBuiltins =>
      obtain ⟨after, hafter, -⟩ := effect_registerBuiltins hr
      cases hafter.symm.trans h

end Registry

namespace Parser

/-- **A tag is dispatched** to the function that the registry holds under it, in any letter case,
and nothing else is done. -/
theorem dispatch_of_mem_table {r : Registry} (hr : r.Coherent) {label : Label} {f : FunctionName}
    (hmem : (label, .atom (.function f)) ∈ r.table) {tag : String}
    (hfold : (Label.text tag).fold = label.fold) (p : Parser) (functions : Functions)
    (source : String) (payload : Value) :
    p.dispatch functions r tag source payload =
      f.apply functions ⟨tag, payload, source, p.config, p.state⟩ := by
  have hfind : r.find? (.text tag) = .ok (some (.atom (.function f))) :=
    congrArg Except.ok (hr.get?_of_mem_table hmem hfold)
  unfold dispatch
  rw [hfind]
  rfl

end Parser

namespace Registries

/-! ## Lives -/

/-- The entries that a registry, or what it was copied from, was made of. -/
def Life.given : Life → HandlerTable
  | .made t => t
  | .standard => []
  | .copied source => source.given
  | .after life _ => life.given

/-- **Every entry of a life** is one that was given at its start or has been checked. -/
theorem mem_table_of_life {life : Life} {e : Label × Value} (h : e ∈ life.table) :
    e ∈ life.given ∨ Checked e := by
  induction life with
  | made t => exact .inl h
  | standard => exact (Registry.Operation.mem_on h).imp_left nofun
  | copied source ih => exact ih h
  | after life operation ih =>
      rcases Registry.Operation.mem_on h with h | h
      · exact ih h
      · exact .inr h

/-! ## Operations that fail -/

variable {rs rs' : Registries} {l : Ledger} {fault : Fault}

theorem effect_change (number : Nat) (operation : Registry.Operation) (rs : Registries) :
    (Registries.change number operation.perform).effect rs =
      ((operation.perform.effect (rs.registry number)).1,
        rs.write number (operation.perform.effect (rs.registry number)).2) := rfl

/-- A change that fails leaves every registry as it is. -/
theorem registry_of_change_fault (hfollows : Follows rs l) {number : Nat}
    {operation : Registry.Operation}
    (h : (Registries.change number operation.perform).effect rs = (.error fault, rs')) (n : Nat) :
    rs'.registry n = rs.registry n := by
  rw [effect_change] at h
  obtain ⟨hfault, rfl⟩ := Prod.mk.inj h
  have hstays : (operation.perform.effect (rs.registry number)).2 = rs.registry number :=
    Registry.Operation.eq_of_fault (hfollows.coherent number) (Prod.ext hfault rfl)
  rw [registry_write hfollows.separate, hstays]
  split
  · rename_i hn
    rw [hn.1]
  · rfl

/-- **An operation that fails** leaves every registry as it is that there was before. -/
theorem Follows.registry_of_fault (hfollows : Follows rs l) {operation : Operation}
    (h : operation.perform.effect rs = (.error fault, rs')) {n : Nat} (hn : n < rs.all.size) :
    rs'.registry n = rs.registry n := by
  by_cases hchange : ∃ whose operation', operation = .change whose operation'
  · obtain ⟨whose, operation', rfl⟩ := hchange
    -- The shared registry may have been made first, which leaves the others alone.
    obtain ⟨rs₁, hnumber, hmiddle, -, hothers⟩ := hfollows.numberOf whose
    have hfails : (Registries.change (l.numberOf whose).2 operation'.perform).effect rs₁ =
        (.error fault, rs') := (Edit.effect_bind_ok hnumber _).symm.trans h
    rw [registry_of_change_fault hmiddle hfails, hothers n hn]
  · have hothers := (hfollows.perform operation).2 n hn fun whose operation' heq =>
      absurd ⟨whose, operation', heq⟩ hchange
    rwa [h] at hothers

/-- **What any registry holds after any operations.** Every entry has been checked when it was
registered, or the registry was made of it. A tag that the registry holds a function under goes to
that function. And an operation that fails leaves all registries as they are. -/
theorem run_dispatchable (operations : List Operation) :
    (∀ n, ∀ e ∈ ((run operations empty).registry n).table,
      e ∈ ((ledger operations).life n).given ∨ Checked e) ∧
    (∀ n label f, (label, .atom (.function f)) ∈ ((run operations empty).registry n).table →
      ∀ tag, (Label.text tag).fold = label.fold →
        ∀ (p : Parser) (functions : Functions) (source : String) (payload : Value),
          p.dispatch functions ((run operations empty).registry n) tag source payload =
            f.apply functions ⟨tag, payload, source, p.config, p.state⟩) ∧
    ∀ (operation : Operation) (fault : Fault) (after : Registries),
      operation.perform.effect (run operations empty) = (.error fault, after) →
        ∀ n < (run operations empty).all.size,
          after.registry n = (run operations empty).registry n := by
  have h := follows_run operations
  refine ⟨?_, ?_, ?_⟩
  · intro n e he
    rw [h.table n] at he
    exact mem_table_of_life he
  · intro n label f hmem tag hfold p functions source payload
    exact Parser.dispatch_of_mem_table (h.coherent n) hmem hfold p functions source payload
  · exact fun operation fault after hfails n hn => h.registry_of_fault hfails hn

/-- A registry made of one handler, another that is registered later, and one that is refused. -/
def registeredAndRefused : List Operation :=
  [.create (.dict [(.text "a", .atom (.function (.custom "f")))]),
    .change (some 0) (.register (.text "B") (.atom (.function (.custom "g")))),
    .change (some 0) (.register (.text "") (.atom (.function (.custom "g"))))]

theorem run_registeredAndRefused :
    (∀ e ∈ ((run registeredAndRefused empty).registry 0).table,
      e ∈ [(.text "a", .atom (.function (.custom "f")))] ∨ Checked e) ∧
    ∀ (p : Parser) (functions : Functions) (source : String) (payload : Value),
      p.dispatch functions ((run registeredAndRefused empty).registry 0) "b" source payload =
        functions "g" ⟨"b", payload, source, p.config, p.state⟩ := by
  obtain ⟨hentries, hdispatch, -⟩ := run_dispatchable registeredAndRefused
  have htable : ((run registeredAndRefused empty).registry 0).table =
      [(.text "a", .atom (.function (.custom "f"))),
        (.text "B", .atom (.function (.custom "g")))] :=
    (follows_run registeredAndRefused).table 0
  have hmem : (Label.text "B", Value.atom (.function (.custom "g"))) ∈
      ((run registeredAndRefused empty).registry 0).table := by
    rw [htable]
    exact List.mem_cons_of_mem _ List.mem_cons_self
  exact ⟨hentries 0, hdispatch 0 _ _ hmem "b" (by decide)⟩

/-- A registry can be made of a handler under the empty text, which registering refuses. -/
theorem exists_given_not_dispatchable :
    ∃ entries : Table Value, (∀ e ∈ entries, e.2.callable = true ∧ ∃ s, e.1 = .text s) ∧
      ∃ e ∈ ((run [.create (.dict entries)] empty).registry 0).table, ¬ Dispatchable e := by
  refine ⟨[(.text "", .atom (.function (.builtin .none)))], ?_,
    (.text "", .atom (.function (.builtin .none))), List.mem_cons_self, ?_⟩
  · intro e he
    obtain rfl := List.mem_singleton.mp he
    exact ⟨rfl, "", rfl⟩
  · rintro ⟨-, s, hs, hne⟩
    cases hs
    exact hne rfl

end Registries

end LooseData.Tag
