import LooseData.Proofs.Layer.Guard
import LooseData.Proofs.Merge.Copy

set_option autoImplicit false

/-! # Merges are guarded

A merge asks whether the target's value takes the keys of the source's before it goes on into it.
So whatever it writes to takes the key: it has taken it when it was asked, and no collection changes
its kind. This holds in every store, however the collections share others.

What is left are the keys that a level takes and cannot be read or written under
(`Store.StopsAt`). A merge stops at one of these, unless it goes down more levels than there are
collections, which happens only if a collection comes to be inside of itself
(`Store.ends_mergeAll_of_takes`).
-/

namespace LooseData

open Edit

namespace Store

/-! ## What every write keeps -/

section

variable [Memory] {P : Store → Prop}
  (hassign : ∀ (target value : Slot) (key : Value), Keeps P (assign target key value))

include hassign

/-- **What every write keeps, every merge keeps.** One induction over the number of levels. -/
theorem keeps_mergeTo_of_assign (depth : Nat) (target source : Slot) :
    Keeps P (mergeTo depth target source) := by
  have hlayerOf {α : Type} {slot : Slot} {f : Layer Slot → Edit Store α}
      (hf : ∀ l, Keeps P (f l)) : Keeps P (layerOf slot >>= f) :=
    keeps_bind (fun _ h => h) hf
  induction depth generalizing target source with
  | zero => exact keeps_fail _
  | succ depth ih =>
      rw [mergeTo]
      refine hlayerOf fun offered => hlayerOf fun held => ?_
      split
      · refine keeps_bind (keeps_liftExcept _) fun entries => keeps_forM (fun e => ?_) entries
        refine hlayerOf fun l => keeps_bind (keeps_liftExcept _) fun current => ?_
        refine hlayerOf fun _ => hlayerOf fun _ => keeps_bind (keeps_liftExcept _) fun mergeable => ?_
        split
        · exact ih current e.2
        · exact hassign target e.2 e.1
      · exact keeps_liftLogged _

theorem keeps_mergeEntry_of_assign (depth : Nat) (target : Slot) (e : Value × Slot) :
    Keeps P (mergeEntry (mergeTo depth) target e) := by
  intro s hs
  cases haccess : (s.layer target).access e.1 with
  | error fault =>
      rw [effect_mergeEntry_of_access_error haccess]
      exact hs
  | ok current =>
      rw [effect_mergeEntry haccess]
      split
      · exact hs
      · exact keeps_mergeTo_of_assign hassign depth current e.2 s hs
      · exact hassign target e.2 e.1 s hs

end

/-- The kinds of the collections in the cells. -/
def kinds (s : Store) : Array String := s.cells.map Node.kind

theorem kinds_write {s : Store} {target : Slot} {n : Node Slot} (h : n.kind = (s.layer target).kind) :
    (s.write target n).kinds = s.kinds := by
  cases target with
  | atom a => rfl
  | «at» address =>
      refine Array.ext_getElem? fun a => ?_
      simp only [kinds, write, Array.getElem?_map, Array.getElem?_setIfInBounds]
      split
      · rename_i heq
        subst heq
        split
        · rename_i hlt
          have hcell : s.cells[address]? = some s.cells[address] := Array.getElem?_eq_getElem hlt
          rw [layer, hcell] at h
          rw [hcell]
          exact congrArg some h
        · rename_i hout
          rw [Array.getElem?_eq_none (Nat.le_of_not_lt hout)]
      · rfl

/-- A write does not change the kind of a collection. -/
theorem keeps_kinds_assign [Memory] (kinds₀ : Array String) (target value : Slot) (key : Value) :
    Keeps (fun s => s.kinds = kinds₀) (assign target key value) := by
  intro s hs
  rw [effect_assign]
  cases hn : ((s.layer target).assign key value).result with
  | error fault => exact hs
  | ok n => exact (kinds_write (Layer.kind_of_assign hn)).trans hs

/-! ## Kinds -/

variable {s s' : Store} {target level : Slot} {key : Value} {fault : Fault}

theorem exists_cell_of_kinds (h : s'.kinds = s.kinds) {a : Nat} {n : Node Slot}
    (hcell : s'.cells[a]? = some n) : ∃ n₀, s.cells[a]? = some n₀ ∧ n.kind = n₀.kind := by
  have hkind : (s'.cells[a]?).map Node.kind = (s.cells[a]?).map Node.kind := by
    have hkinds := congrArg (·[a]?) h
    simpa only [kinds, Array.getElem?_map] using hkinds
  rw [hcell] at hkind
  obtain ⟨n₀, hcell₀, hn₀⟩ := Option.map_eq_some_iff.mp hkind.symm
  exact ⟨n₀, hcell₀, hn₀.symm⟩

/-- A level takes the same keys as long as kinds are kept. -/
theorem takes_of_kinds (h : s'.kinds = s.kinds) (htakes : (s.layer target).Takes key) :
    (s'.layer target).Takes key := by
  cases target with
  | atom a => exact htakes
  | «at» address =>
      unfold layer at htakes ⊢
      dsimp only at htakes ⊢
      split at htakes
      · rename_i n hcell
        have hlt : address < s'.cells.size := by
          have hsize := congrArg Array.size h
          simp only [kinds, Array.size_map] at hsize
          rw [hsize]
          exact (Array.getElem?_eq_some_iff.mp hcell).1
        have hcell' : s'.cells[address]? = some s'.cells[address] := Array.getElem?_eq_getElem hlt
        obtain ⟨n₀, hcell₀, hkind⟩ := exists_cell_of_kinds h hcell'
        obtain rfl := Option.some.inj (hcell.symm.trans hcell₀)
        rw [hcell']
        exact htakes.of_kind hkind
      · exact htakes.elim

/-! ## Where a merge stops -/

/-- A key of a level stops a merge: the level cannot be asked for it, it cannot be told whether the
level takes it, or it cannot be written there. -/
structure StopsAt [Memory] (s : Store) (level : Slot) (key : Value) (fault : Fault) : Prop where
  fails : (s.layer level).access key = .error fault ∨
    (s.layer level).acceptsKeys [key] = .error fault ∨
    ∃ value, ((s.layer level).assign key value).result = .error fault
  obstructs : key.Obstructs (∃ m, s.layer level = .node (.caseless m)) fault

theorem stopsAt_of_access [Memory] (h : (s.layer level).access key = .error fault) :
    s.StopsAt level key fault := by
  obtain ⟨name, hname, hnumeral⟩ := Layer.exists_text_of_access_eq_error h
  exact ⟨.inl h, .unreadable hname hnumeral⟩

theorem exists_stopsAt_of_acceptsKeys [Memory] {keys : List Value}
    (h : (s.layer level).acceptsKeys keys = .error fault) :
    ∃ key ∈ keys, s.StopsAt level key fault := by
  obtain ⟨key, hmem, hone⟩ := Layer.exists_mem_of_acceptsKeys_eq_error h
  obtain ⟨key', hkey', hindex⟩ := Layer.exists_key_of_acceptsKeys_eq_error hone
  obtain rfl := List.mem_singleton.mp hkey'
  obtain ⟨name, hname, hnumeral⟩ := exists_text_of_index?_eq_error hindex
  exact ⟨key', hmem, .inr (.inl hone), .unreadable hname hnumeral⟩

theorem exists_stopsAt_of_entries [Memory] (h : (s.layer level).entries = .error fault) :
    ∃ key ∈ (s.layer level).ownKeys, s.StopsAt level key fault := by
  obtain ⟨key, hmem, haccess⟩ := Layer.exists_key_of_entries_eq_error h
  exact ⟨key, hmem, stopsAt_of_access haccess⟩

theorem stopsAt_of_assign [Memory] {k : Key} {value : Slot} (hkey : key.key? = some k)
    (htakes : (s.layer level).Takes key)
    (h : ((s.layer level).assign key value).result = .error fault) : s.StopsAt level key fault := by
  refine ⟨.inr (.inr ⟨value, h⟩), ?_⟩
  rcases Layer.assign_cases hkey htakes value with ⟨-, n, hn⟩ | ⟨-, fault', hfault, hobstructs⟩
  · cases hn.symm.trans h
  · obtain rfl := Except.error.inj (hfault.symm.trans h)
    exact hobstructs

/-! ## One entry -/

/-- **The step of a merge** into a level that takes the key of the entry. It stops there at the key,
or in what the level holds under it at a key of the entry's value, or it goes on into that, and then
that takes all keys of the entry's value. -/
theorem ends_mergeEntry_of_takes [Memory] {E : Fault → Store → Prop} {depth : Nat} {value : Slot}
    {k : Key} (hkey : key.key? = some k) (htakes : (s.layer target).Takes key)
    (hhere : ∀ fault, s.StopsAt target key fault → E fault s)
    (hinside : ∀ current, (s.layer target).access key = .ok current →
      (s.layer value).isNested = true → ∀ key' ∈ (s.layer value).ownKeys,
        ∀ fault, s.StopsAt current key' fault → E fault s)
    (hmerged : ∀ current, (s.layer target).access key = .ok current →
      (∀ key' ∈ (s.layer value).ownKeys, (s.layer current).Takes key') →
        Ends E (mergeTo depth current value) s fun _ _ => True) :
    Ends E (mergeEntry (mergeTo depth) target (key, value)) s fun _ _ => True := by
  unfold mergeEntry
  refine ends_layerOf_bind ?_
  have haccess : Yields (E · s) ((s.layer target).access key)
      ((s.layer target).access key = .ok ·) :=
    ⟨fun fault hfault => hhere fault (stopsAt_of_access hfault), fun _ h => h⟩
  refine haccess.ends_bind fun current hcurrent => ?_
  refine ends_layerOf_bind (ends_layerOf_bind ?_)
  -- The question whether to go on into the value is asked for all keys of the source.
  have hmergeable : Yields (E · s) (Layer.mergeable (s.layer current) (s.layer value))
      fun joins => joins = true →
        ∀ key' ∈ (s.layer value).ownKeys, (s.layer current).Takes key' := by
    unfold Layer.mergeable
    split
    · rename_i hnested
      obtain ⟨hcurrentNested, hvalueNested⟩ := Bool.and_eq_true_iff.mp hnested
      constructor
      · intro fault hfault
        obtain ⟨key', hmem, hstops⟩ := exists_stopsAt_of_acceptsKeys hfault
        exact hinside current hcurrent hvalueNested key' hmem fault hstops
      · rintro _ haccepts rfl
        exact Layer.takes_of_acceptsKeys hcurrentNested haccepts
    · exact yields_ok nofun
  refine hmergeable.ends_bind fun joins hjoins => ?_
  split
  · rename_i hjoined
    exact hmerged current hcurrent (hjoins hjoined)
  · unfold assign
    refine ends_layerOf_bind ?_
    have hwrite : Yields (E · s) ((s.layer target).assign key value).result fun _ => True :=
      ⟨fun fault hfault => hhere fault (stopsAt_of_assign hkey htakes hfault), fun _ _ => trivial⟩
    exact hwrite.ends_bind_logged fun _ _ => ends_modify trivial

/-! ## Every store -/

/-- A merge has gone down more levels than there are collections, or it has stopped at a key. -/
def Stuck [Memory] (fault : Fault) (s : Store) : Prop :=
  fault = .bottomless ∨ ∃ level key, s.StopsAt level key fault

theorem keeps_kinds_mergeEntry [Memory] (kinds₀ : Array String) (depth : Nat) (target : Slot)
    (e : Value × Slot) : Keeps (fun s => s.kinds = kinds₀) (mergeEntry (mergeTo depth) target e) :=
  keeps_mergeEntry_of_assign (keeps_kinds_assign kinds₀) depth target e

theorem keeps_kinds_merge [Memory] (kinds₀ : Array String) (target source : Slot) :
    Keeps (fun s => s.kinds = kinds₀) (merge target source) :=
  keeps_get_bind fun _ hs =>
    keeps_mergeTo_of_assign (keeps_kinds_assign kinds₀) _ target source _ hs

/-- **A merge into a level that takes the keys** gets stuck or comes to its end, through any number
of levels. -/
theorem ends_mergeTo_of_takes [Memory] (depth : Nat) (source : Slot)
    (htakes : (s.layer target).isNested = true → (s.layer source).isNested = true →
      ∀ key ∈ (s.layer source).ownKeys, (s.layer target).Takes key) :
    Ends Stuck (mergeTo depth target source) s fun _ _ => True := by
  induction depth generalizing s target source with
  | zero =>
      refine ⟨?_, ?_⟩
      · rintro _ _ ⟨⟩
        exact .inl rfl
      · rintro _ _ ⟨⟩
  | succ depth ih =>
      rw [mergeTo]
      refine ends_layerOf_bind (ends_layerOf_bind ?_)
      split
      · rename_i hnested
        obtain ⟨htn, hsn⟩ := Bool.and_eq_true_iff.mp hnested
        have hentries : Yields (Stuck · s) (s.layer source).entries
            fun entries => ∀ e ∈ entries, e.1 ∈ (s.layer source).ownKeys := by
          refine ⟨fun fault hfault => ?_, fun entries heq e he => ?_⟩
          · obtain ⟨key, -, hstops⟩ := exists_stopsAt_of_entries hfault
            exact .inr ⟨source, key, hstops⟩
          · exact Layer.key_mem_ownKeys_of_entries heq he
        refine hentries.ends_bind fun entries hmem => ?_
        have hkeys : ∀ e ∈ entries, (∃ k, e.1.key? = some k) ∧ (s.layer target).Takes e.1 :=
          fun e he => ⟨Layer.exists_key?_of_mem_ownKeys (hmem e he), htakes htn hsn _ (hmem e he)⟩
        clear hmem hentries htakes htn hsn hnested
        -- Each entry leaves the kind of the target as it is, so it takes the keys that follow too.
        induction entries generalizing s with
        | nil => exact ends_pure trivial
        | cons e rest ihrest =>
            obtain ⟨⟨⟨k, hk⟩, htakesKey⟩, hrest⟩ := List.forall_mem_cons.mp hkeys
            have hstep : Ends Stuck (mergeEntry (mergeTo depth) target (e.1, e.2)) s
                fun _ _ => True := by
              refine ends_mergeEntry_of_takes hk htakesKey (fun fault h => .inr ⟨_, _, h⟩)
                (fun current _ _ key _ fault h => .inr ⟨_, key, h⟩) fun current _ hcurrent => ?_
              exact ih e.2 fun _ _ => hcurrent
            refine (hstep.and_keeps (keeps_kinds_mergeEntry s.kinds depth target e) rfl).bind ?_
            rintro _ s₁ ⟨-, hkinds⟩
            exact ihrest fun e' he' =>
              ⟨(hrest e' he').1, takes_of_kinds hkinds (hrest e' he').2⟩
      · refine ⟨?_, fun _ _ _ => trivial⟩
        rintro fault s' ⟨⟩

/-- **A merge of any sources** into a target that takes every key gets stuck or comes to its end. -/
theorem ends_mergeAll_of_takes [Memory] (sources : List Slot)
    (htakes : ∀ key, (s.layer target).Takes key) :
    Ends Stuck (mergeAll target sources) s fun _ _ => True := by
  induction sources generalizing s with
  | nil => exact ends_pure trivial
  | cons source rest ih =>
      have hfirst : Ends Stuck (merge target source) s fun _ _ => True :=
        ends_get_bind (ends_mergeTo_of_takes _ source fun _ _ key _ => htakes key)
      refine (hfirst.and_keeps (keeps_kinds_merge s.kinds target source) rfl).bind ?_
      rintro _ s₁ ⟨-, hkinds⟩
      exact ih fun key => takes_of_kinds hkinds (htakes key)

end Store

end LooseData
