import LooseData.Proofs.CaselessMap.Projection
import LooseData.Proofs.Tag.Registry
import LooseData.Tag.Parser

set_option autoImplicit false

/-! # The table of a registry

The table of a registry is the list of its tags, in order and as written, with their handlers. All
that a registry does can be said by its table: an operation changes it as a function of lists does
(`Registry.table_perform`), a registry made of entries starts with theirs
(`Registry.ofValue_eq`), a copy has the same table (`Registry.exists_copy_eq`), and texts are
evaluated alike with registries of the same table (`Parser.evaluate_congr`).
-/

namespace LooseData.Tag

open CaselessMap

/-- Tags, in order and as written, with their handlers. -/
abbrev HandlerTable := List (Label × Value)

namespace Registry

/-- The tags of a registry with their handlers. -/
def table (r : Registry) : HandlerTable := r.handlers.entries

/-! ## Operations on a table -/

/-- Register a handler: what cannot be called, and an empty tag or one without letter case, are
refused. -/
def registerIn (t : HandlerTable) (tag handler : Value) : HandlerTable :=
  if handler.callable && tag.truthy then
    match tag.label? with
    | .ok label => setEntry t label handler
    | .error _ => t
  else t

/-- What an operation does to a table. -/
def Operation.on : Operation → HandlerTable → HandlerTable
  | .register tag handler, t => registerIn t tag handler
  | .unregister tag, t =>
    match tag.label? with
    | .ok label => t.filter fun e => e.1.fold != label.fold
    | .error _ => t
  | .registerBuiltins, t =>
    builtins.foldl (fun t b => registerIn t (.text b.1) (.atom (.function (.builtin b.2)))) t

/-- The table after pairs have been set one after another, if all of them are pairs with labels. -/
def setPairs : HandlerTable → List (Except Fault (Value × Value)) → Option HandlerTable
  | t, [] => some t
  | t, .ok (key, v) :: rest =>
    match key.label? with
    | .ok label => setPairs (setEntry t label v) rest
    | .error _ => none
  | _, .error _ :: _ => none

/-- The table of the entries of a value, if they make one. Something that counts as false stands for
no entries. -/
def tableOf? (entries : Value) : Option HandlerTable :=
  if entries.truthy then
    match entries.pairs? with
    | .ok pairs => setPairs [] pairs
    | .error _ => none
  else some []

variable {r : Registry}

/-! ## What the operations do -/

theorem effect_change {α : Type} (x : CaselessMap.Change α) (r : Registry) :
    (change x).effect r = ((x.effect r.handlers).1, ⟨(x.effect r.handlers).2⟩) := rfl

theorem effect_assign (m : CaselessMap Value) (key v : Value) :
    (assign key v).effect m =
      match key.label? with
      | .ok label => (.ok (), m.set label v)
      | .error fault => (.error fault, m) := by
  unfold assign
  rw [Edit.effect_bind, Edit.effect_liftExcept]
  cases key.label? with
  | error fault => rfl
  | ok label => simp

/-- A label can be written as a text. -/
theorem tooLong_of_label? {v : Value} {label : Label} (h : v.label? = .ok label) :
    v.tooLong = false := by
  unfold Value.label? at h
  split at h
  · rfl
  · rfl
  · cases h
  · cases h

/-- What can be called is registered under a label that is not empty. -/
theorem effect_register {tag handler : Value} {label : Label} (hcallable : handler.callable = true)
    (htag : tag.truthy = true) (hlabel : tag.label? = .ok label) (r : Registry) :
    (register tag handler).effect r = (.ok (), ⟨r.handlers.set label handler⟩) := by
  have hhas : r.has tag = .ok (r.handlers.get? label).isSome := by
    rw [has, find?, CaselessMap.find?, hlabel]
    rfl
  have hshown : tag.shown? = .ok tag.shown := by
    rw [Value.shown?, tooLong_of_label? hlabel]
    rfl
  have hchange : (change (assign tag handler)).effect r =
      (.ok (), ⟨r.handlers.set label handler⟩) := by
    rw [effect_change, effect_assign, hlabel]
  unfold register
  rw [hcallable, htag]
  show (get >>= fun r' => liftM (Registry.has r' tag) >>= fun found => _ : Change Unit).effect r = _
  rw [Edit.effect_bind_ok (Edit.effect_get r), Edit.effect_bind, Edit.effect_liftExcept, hhas]
  cases (r.handlers.get? label).isSome with
  | false => exact hchange
  | true =>
      -- The name of the tag is written into the log first.
      show (liftM tag.shown? >>= fun name => liftM (Logged.debug _) >>= fun _ =>
        change (assign tag handler) : Change Unit).effect r = _
      rw [hshown]
      exact hchange

/-- What is refused leaves the registry as it is. -/
theorem effect_register_refused {tag handler : Value}
    (h : (handler.callable && tag.truthy) = false ∨ ∃ fault, tag.label? = .error fault)
    (r : Registry) : ((register tag handler).effect r).2 = r := by
  unfold register
  cases hcallable : handler.callable with
  | false =>
      show ((liftM tag.shown? >>= fun name => _ : Change Unit).effect r).2 = r
      rw [Edit.effect_bind, Edit.effect_liftExcept]
      cases tag.shown? <;> rfl
  | true =>
      cases htag : tag.truthy with
      | false => rfl
      | true =>
          rw [hcallable, htag] at h
          obtain ⟨fault, hlabel⟩ := h.resolve_left Bool.noConfusion
          have hhas : r.has tag = .error fault := by
            rw [has, find?, CaselessMap.find?, hlabel]
            rfl
          show ((get >>= fun r' => liftM (Registry.has r' tag) >>= fun found => _ :
            Change Unit).effect r).2 = r
          rw [Edit.effect_bind_ok (Edit.effect_get r), Edit.effect_bind, Edit.effect_liftExcept,
            hhas]

theorem table_register (hr : r.Coherent) (tag handler : Value) :
    ((register tag handler).effect r).2.table = registerIn r.table tag handler := by
  unfold registerIn
  cases haccepted : handler.callable && tag.truthy with
  | false =>
      rw [effect_register_refused (.inl haccepted)]
      rfl
  | true =>
      obtain ⟨hcallable, htag⟩ := Bool.and_eq_true_iff.mp haccepted
      rw [if_pos rfl]
      cases hlabel : tag.label? with
      | error fault => rw [effect_register_refused (.inr ⟨fault, hlabel⟩)]
      | ok label =>
          rw [effect_register hcallable htag hlabel]
          exact hr.entries_set label handler

/-- What has a label is unregistered if it is there. -/
theorem effect_unregister {tag : Value} {label : Label} (hlabel : tag.label? = .ok label)
    (r : Registry) :
    (unregister tag).effect r = (.ok (r.handlers.has label), ⟨r.handlers.delete label⟩) := by
  unfold unregister remove
  rw [effect_change, Edit.effect_bind_ok (Edit.effect_get _), hlabel, Edit.effect_bind,
    Edit.effect_liftLogged, result_deleteLogged]
  rfl

/-- What has no label is refused, or in an empty registry not looked for. -/
theorem effect_unregister_refused {tag : Value} {fault : Fault} (hlabel : tag.label? = .error fault)
    (r : Registry) :
    (unregister tag).effect r = (.ok false, r) ∨ (unregister tag).effect r = (.error fault, r) := by
  unfold unregister remove
  rw [effect_change, Edit.effect_bind_ok (Edit.effect_get _), hlabel]
  dsimp only
  split
  · exact .inl rfl
  · exact .inr rfl

theorem table_unregister (hr : r.Coherent) (tag : Value) :
    ((unregister tag).effect r).2.table = Operation.on (.unregister tag) r.table := by
  dsimp only [Operation.on]
  cases hlabel : tag.label? with
  | ok label =>
      rw [effect_unregister hlabel]
      exact hr.entries_delete label
  | error fault => rcases effect_unregister_refused hlabel r with hstays | hstays <;> rw [hstays]

/-- **The library's handlers are registered** one after another, and none of them is refused. -/
theorem effect_registerBuiltins (hr : r.Coherent) :
    ∃ r', registerBuiltins.effect r = (.ok (), r') ∧
      r'.table = Operation.on .registerBuiltins r.table := by
  have hforM (bs : List (String × Builtin)) (hbs : ∀ b ∈ bs, b.1.isEmpty = false) (r : Registry)
      (hr : r.Coherent) :
      ∃ r', (bs.forM fun b =>
          register (.text b.1) (.atom (.function (.builtin b.2)))).effect r = (.ok (), r') ∧
        r'.table =
          bs.foldl (fun t b => registerIn t (.text b.1) (.atom (.function (.builtin b.2))))
            r.table := by
    induction bs generalizing r with
    | nil => exact ⟨r, rfl, rfl⟩
    | cons b rest ih =>
        obtain ⟨hb, hrest⟩ := List.forall_mem_cons.mp hbs
        have htag : (Value.text b.1).truthy = true := by
          show (!b.1.isEmpty) = true
          rw [hb]
          rfl
        have hone : (register (.text b.1) (.atom (.function (.builtin b.2)))).effect r = _ :=
          effect_register rfl htag (label?_text b.1) r
        have htable := table_register hr (.text b.1) (.atom (.function (.builtin b.2)))
        have hcoherent := keeps_register (.text b.1) (.atom (.function (.builtin b.2))) r hr
        rw [hone] at htable hcoherent
        obtain ⟨r', hr', htable'⟩ := ih hrest _ hcoherent
        refine ⟨r', (Edit.effect_bind_ok hone _).trans hr', ?_⟩
        rw [htable', htable, List.foldl_cons]
  exact hforM builtins (by decide) r hr

/-- **What an operation does to the table.** -/
theorem table_perform (hr : r.Coherent) (operation : Operation) :
    (operation.perform.effect r).2.table = operation.on r.table := by
  cases operation with
  | register tag handler => exact table_register hr tag handler
  | unregister tag =>
      have hafter := table_unregister hr tag
      show ((unregister tag >>= fun _ => pure ()).effect r).2.table = _
      rw [Edit.effect_bind]
      split
      · rename_i heffect
        rwa [heffect] at hafter
      · rename_i heffect
        rwa [heffect] at hafter
  | registerBuiltins =>
      obtain ⟨r', heffect, htable⟩ := effect_registerBuiltins hr
      show (registerBuiltins.effect r).2.table = _
      rw [heffect, htable]

/-! ## Tables of new registries -/

/-- The library's handlers are what a default registry starts with. -/
theorem table_standard : standard.table = Operation.on .registerBuiltins [] :=
  table_perform coherent_empty .registerBuiltins

/-- Setting pairs one after another ends with their table, or stops where there is none. -/
theorem effect_assignAll {m : CaselessMap Value} (hm : m.Coherent)
    (pairs : List (Except Fault (Value × Value))) :
    (∃ m', (assignAll pairs).effect m = (.ok (), m') ∧
        setPairs m.entries pairs = some m'.entries) ∨
      (∃ fault m', (assignAll pairs).effect m = (.error fault, m')) ∧
        setPairs m.entries pairs = none := by
  induction pairs generalizing m with
  | nil => exact .inl ⟨m, rfl, rfl⟩
  | cons pair rest ih =>
      show (∃ m', ((liftM pair >>= fun pair => assign pair.1 pair.2) >>= fun _ =>
        assignAll rest : CaselessMap.Change Unit).effect m = (.ok (), m') ∧ _) ∨
        (∃ fault m', ((liftM pair >>= fun pair => assign pair.1 pair.2) >>= fun _ =>
        assignAll rest : CaselessMap.Change Unit).effect m = (.error fault, m')) ∧ _
      rw [Edit.effect_bind, Edit.effect_bind, Edit.effect_liftExcept]
      cases pair with
      | error fault => exact .inr ⟨⟨fault, m, rfl⟩, rfl⟩
      | ok entry =>
          obtain ⟨key, v⟩ := entry
          dsimp only
          rw [effect_assign, setPairs]
          cases key.label? with
          | error fault => exact .inr ⟨⟨fault, m, rfl⟩, rfl⟩
          | ok label =>
              have hset := ih (coherent_set hm label v)
              rw [hm.entries_set] at hset
              exact hset

/-- **A map made of pairs** has the table that setting them one after another ends with, and there
is no map if there is no such table. -/
theorem ofPairs_eq (entries : Value) (silent : Bool) :
    (∃ m pairs, (CaselessMap.ofValue entries silent).result = .ok m ∧
        entries.pairs? = .ok pairs ∧ setPairs [] pairs = some m.entries) ∨
      (∃ fault, (CaselessMap.ofValue entries silent).result = .error fault) ∧
        ∀ pairs, entries.pairs? = .ok pairs → setPairs [] pairs = none := by
  have hmade : (CaselessMap.ofValue entries silent).result =
      ((update entries).effect (CaselessMap.empty silent)).1.map
        fun _ => ((update entries).effect (CaselessMap.empty silent)).2 := by
    rw [CaselessMap.ofValue, Logged.result_bind]
    rfl
  have hupdate : (update entries).effect (CaselessMap.empty silent) =
      (liftM entries.pairs? >>= assignAll : CaselessMap.Change Unit).effect
        (CaselessMap.empty silent) := rfl
  rw [hmade, hupdate, Edit.effect_bind, Edit.effect_liftExcept]
  cases entries.pairs? with
  | error fault =>
      refine .inr ⟨⟨fault, rfl⟩, fun pairs hpairs => ?_⟩
      cases hpairs
  | ok pairs =>
      dsimp only
      rcases effect_assignAll (CaselessMap.coherent_empty silent) pairs with
        ⟨m, hm, ht⟩ | ⟨⟨fault, m, hm⟩, ht⟩
      · rw [hm]
        exact .inl ⟨m, pairs, rfl, rfl, ht⟩
      · rw [hm]
        refine .inr ⟨⟨fault, rfl⟩, ?_⟩
        rintro _ ⟨⟩
        exact ht

/-- **A registry made of entries** starts with their table, and there is none if there is no such
table. -/
theorem ofValue_eq (entries : Value) :
    (∃ r, (ofValue entries).result = .ok r ∧ tableOf? entries = some r.table) ∨
      (∃ fault, (ofValue entries).result = .error fault) ∧ tableOf? entries = none := by
  unfold ofValue tableOf?
  cases entries.truthy with
  | false => exact .inl ⟨empty, rfl, rfl⟩
  | true =>
      rw [if_pos rfl, if_pos rfl, Logged.result_bind]
      rcases ofPairs_eq entries true with ⟨m, pairs, hm, hpairs, ht⟩ | ⟨⟨fault, hfault⟩, hnone⟩
      · rw [hm, hpairs]
        exact .inl ⟨⟨m⟩, rfl, ht⟩
      · rw [hfault]
        refine .inr ⟨⟨fault, rfl⟩, ?_⟩
        cases hpairs : entries.pairs? with
        | error _ => rfl
        | ok pairs => exact hnone pairs hpairs

theorem setPairs_labels (t entries : HandlerTable) :
    setPairs t (entries.map fun e => .ok (.ofKey (Node.labelKey e.1), e.2)) =
      some (entries.foldl (fun t e => setEntry t e.1 e.2) t) := by
  induction entries generalizing t with
  | nil => rfl
  | cons e rest ih =>
      obtain ⟨label, v⟩ := e
      rw [List.map_cons, setPairs, label?_labelKey, List.foldl_cons]
      exact ih _

/-- **A copy has the same table.** -/
theorem exists_copy_eq (hr : r.Coherent) :
    ∃ r', r.copy.result = .ok r' ∧ r'.Coherent ∧ r'.table = r.table := by
  have hhandlers : r.handlers.Coherent := hr
  have htable : tableOf? r.handlers.toDict = some r.table := by
    have hsize : r.handlers.toDict.truthy = (r.table.length != 0) := by
      rw [hhandlers.toDict_eq]
      show ((r.handlers.entries.map _).length != 0) = _
      rw [List.length_map]
      rfl
    have hpairs : r.handlers.toDict.pairs? =
        .ok (r.table.map fun e => .ok (.ofKey (Node.labelKey e.1), e.2)) :=
      hhandlers.pairs?_toDict
    unfold tableOf?
    rw [hsize, hpairs]
    split
    · exact (setPairs_labels [] r.table).trans (congrArg some (foldl_setEntry hr.nodup_folds))
    · -- An empty dictionary counts as false, and stands for no entries.
      rename_i hempty
      have hnil : r.table = [] := by simpa using hempty
      rw [hnil]
  rcases ofValue_eq r.handlers.toDict with ⟨r', hr', ht⟩ | ⟨-, ht⟩
  · exact ⟨r', hr', coherent_ofValue hr', Option.some.inj (ht.symm.trans htable)⟩
  · rw [htable] at ht
    cases ht

/-! ## What a registry finds -/

/-- What a registry finds is a matter of its table. -/
theorem find?_eq_of_table_eq {r' : Registry} (hr : r.Coherent) (hr' : r'.Coherent)
    (h : r.table = r'.table) : r.find? = r'.find? := by
  have hget : r.handlers.get? = r'.handlers.get? := by
    funext label
    rw [hr.get?_eq_scan, hr'.get?_eq_scan, scan, scan]
    exact congrArg
      (fun t : HandlerTable => (t.find? fun e => e.1.fold == label.fold).map Prod.snd) h
  funext tag
  rw [find?, find?, CaselessMap.find?, CaselessMap.find?, hget]

end Registry

namespace Parser

variable (p : Parser) (functions : Functions) {r r' : Registry}

/-- **Texts are evaluated alike with registries that find the same.** -/
theorem evaluate_congr (h : r.find? = r'.find?) (v : Value) :
    p.evaluate functions r v = p.evaluate functions r' v := by
  have hfrom (depth : Nat) (tags : List (List Char)) (payload : List Char) :
      p.evaluateFrom functions r depth tags payload =
        p.evaluateFrom functions r' depth tags payload := by
    induction tags generalizing depth with
    | nil => rfl
    | cons tag tags ih =>
        unfold evaluateFrom
        simp only [ih, dispatch, h]
  unfold evaluate
  split
  · exact hfrom 0 _ _
  · rfl

end Parser

end LooseData.Tag
