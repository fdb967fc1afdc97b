import LooseData.Proofs.Store.Holding

set_option autoImplicit false

/-! # Placing values

`Store.place` puts a value into fresh cells. The tree that results shares nothing with what the
store held before, nor do any two collections in it share a cell (`Store.puts_place`). So values
of every form can be placed side by side, and what is said of trees that share nothing applies to
them.
-/

namespace LooseData.Store

variable {s s' : Store}

/-! ## Extending a store -/

/-- The trees have been put into fresh cells, which they do not share. -/
structure Extends (s s' : Store) (trees : List Tree) : Prop where
  holds : ∀ t ∈ trees, s'.Holds t
  nodup : (Tree.allAddresses trees).Nodup
  fresh : ∀ a ∈ Tree.allAddresses trees, s.cells.size ≤ a
  frame : ∀ a < s.cells.size, s'.cells[a]? = s.cells[a]?
  size_le : s.cells.size ≤ s'.cells.size

theorem Extends.nil (s : Store) : s.Extends s [] :=
  ⟨by simp, by simp, by simp, fun _ _ => rfl, le_refl _⟩

theorem Extends.atom (s : Store) (a : Atom) : s.Extends s [.ofAtom a] := by
  refine ⟨?_, Multiset.nodup_zero, nofun, fun _ _ => rfl, le_refl _⟩
  intro t ht
  obtain rfl := List.mem_singleton.mp ht
  exact .atom a

/-- What is placed later is placed apart from what has been placed. -/
theorem Extends.append {s₁ s₂ : Store} {front back : List Tree} (h : s.Extends s₁ front)
    (h' : s₁.Extends s₂ back) : s.Extends s₂ (front ++ back) := by
  have hbefore (t : Tree) (ht : t ∈ front) (a : Nat) (ha : a ∈ t.addresses) :
      a < s₁.cells.size := (h.holds t ht).lt_size a ha
  refine ⟨?_, ?_, ?_, ?_, h.size_le.trans h'.size_le⟩
  · intro t ht
    rcases List.mem_append.mp ht with ht | ht
    · exact (h.holds t ht).frame fun a ha => h'.frame a (hbefore t ht a ha)
    · exact h'.holds t ht
  · rw [Tree.allAddresses_append, Multiset.nodup_add]
    refine ⟨h.nodup, h'.nodup, ?_⟩
    rw [Multiset.disjoint_left]
    intro a ha ha'
    -- What was placed before lies below the size of the store in which the rest was placed.
    obtain ⟨t, ht, ha⟩ := Tree.mem_allAddresses.mp ha
    have hlt := hbefore t ht a ha
    have hle := h'.fresh a ha'
    omega
  · intro a ha
    rw [Tree.allAddresses_append, Multiset.mem_add] at ha
    rcases ha with ha | ha
    · exact h.fresh a ha
    · exact h.size_le.trans (h'.fresh a ha)
  · intro a ha
    rw [h'.frame a (Nat.lt_of_lt_of_le ha h.size_le), h.frame a ha]

/-- A collection is placed behind its contents. -/
theorem Extends.node {n : Node Tree} (h : s.Extends s' n.children) :
    s.Extends (s'.allocate (n.map Tree.slot)).2 [.ofNode s'.cells.size n] := by
  have hframe (a : Nat) (ha : a < s'.cells.size) :
      (s'.allocate (n.map Tree.slot)).2.cells[a]? = s'.cells[a]? := by
    simp [allocate, Array.getElem?_push, Nat.ne_of_lt ha]
  have hnew : s'.cells.size ∉ Tree.allAddresses n.children := by
    intro hin
    obtain ⟨t, ht, ha⟩ := Tree.mem_allAddresses.mp hin
    exact absurd ((h.holds t ht).lt_size _ ha) (Nat.lt_irrefl _)
  refine ⟨?_, ?_, ?_, ?_, ?_⟩
  · intro t ht
    obtain rfl := List.mem_singleton.mp ht
    refine .node (by simp [allocate]) fun c hc => (h.holds c hc).frame fun a ha => ?_
    exact hframe a ((h.holds c hc).lt_size a ha)
  · rw [Tree.allAddresses_cons, Tree.allAddresses_nil, add_zero, Tree.addresses_ofNode]
    exact Multiset.nodup_cons.mpr ⟨hnew, h.nodup⟩
  · intro a ha
    rw [Tree.allAddresses_cons, Tree.allAddresses_nil, add_zero, Tree.addresses_ofNode] at ha
    rcases Multiset.mem_cons.mp ha with rfl | ha
    · exact h.size_le
    · exact h.fresh a ha
  · intro a ha
    rw [hframe a (Nat.lt_of_lt_of_le ha h.size_le), h.frame a ha]
  · exact h.size_le.trans (by simp [allocate])

/-! ## Computations that put trees into a store -/

/-- The computation extends the store by trees. They are those of some `k` that satisfies `P`, and
what it returns is made of `k` too. -/
def Puts {α τ : Type} (x : StateM Store α) (result : τ → α) (trees : τ → List Tree)
    (P : τ → Prop) : Prop :=
  ∀ s, ∃ k s', x.run s = (result k, s') ∧ P k ∧ s.Extends s' (trees k)

section

variable {α β τ τ' : Type} {x : StateM Store α} {result : τ → α} {trees : τ → List Tree}
  {P : τ → Prop}

theorem Puts.map (h : Puts x result trees P) (f : α → β) :
    Puts (f <$> x) (fun k => f (result k)) trees P := by
  intro s
  obtain ⟨k, s', hrun, hk⟩ := h s
  exact ⟨k, s', by rw [StateT.run_map, hrun]; rfl, hk⟩

theorem Puts.bind {g : α → StateM Store β} {result' : τ → τ' → β} {trees' : τ' → List Tree}
    {P' : τ' → Prop} (h : Puts x result trees P)
    (hg : ∀ k, Puts (g (result k)) (result' k) trees' P') :
    Puts (x >>= g) (fun p : τ × τ' => result' p.1 p.2) (fun p => trees p.1 ++ trees' p.2)
      (fun p => P p.1 ∧ P' p.2) := by
  intro s
  obtain ⟨k, s₁, hrun, hk, hextends⟩ := h s
  obtain ⟨k', s₂, hrun', hk', hextends'⟩ := hg k s₁
  refine ⟨(k, k'), s₂, ?_, ⟨hk, hk'⟩, hextends.append hextends'⟩
  rw [StateT.run_bind, hrun]
  exact hrun'

/-- Going through a list. -/
theorem puts_mapM {γ : Type} {f : γ → StateM Store α} {tree : τ → Tree} {valueOf : τ → γ}
    {l : List γ} (h : ∀ c ∈ l, Puts (f c) result (fun k => [tree k]) fun k => valueOf k = c) :
    Puts (l.mapM f) (List.map result) (List.map tree) fun ks => ks.map valueOf = l := by
  induction l with
  | nil => exact fun s => ⟨[], s, rfl, rfl, .nil s⟩
  | cons c rest ih =>
      rw [List.forall_mem_cons] at h
      rw [List.mapM_cons]
      intro s
      obtain ⟨k, s₁, hrun, hk, hextends⟩ := h.1 s
      obtain ⟨ks, s₂, hrun', hks, hextends'⟩ := ih h.2 s₁
      refine ⟨k :: ks, s₂, ?_, ?_, hextends.append hextends'⟩
      · rw [StateT.run_bind, hrun]
        show StateT.run (rest.mapM f >>= _) s₁ = _
        rw [StateT.run_bind, hrun']
        rfl
      · show valueOf k :: ks.map valueOf = c :: rest
        rw [hk, hks]

end

/-- The same computation, with another account of what it puts into the store. -/
theorem Puts.imp {α τ τ' : Type} {x : StateM Store α} {result : τ → α} {trees : τ → List Tree}
    {P : τ → Prop} {result' : τ' → α} {trees' : τ' → List Tree} {P' : τ' → Prop}
    (h : Puts x result trees P)
    (hk : ∀ k, P k → ∃ k', result' k' = result k ∧ trees' k' = trees k ∧ P' k') :
    Puts x result' trees' P' := by
  intro s
  obtain ⟨k, s', hrun, hP, hextends⟩ := h s
  obtain ⟨k', hresult, htrees, hP'⟩ := hk k hP
  exact ⟨k', s', by rw [hrun, hresult], hP', by rw [htrees]; exact hextends⟩

/-- Values with labels of any kind, such as keys or names. -/
theorem puts_labelled {κ : Type} {place : Value → StateM Store Slot} {entries : List (κ × Value)}
    (h : ∀ v ∈ entries.map Prod.snd, Puts (place v) Tree.slot (fun t => [t]) (·.value = v)) :
    Puts ((entries.map fun e => (e.1, place e.2)).mapM fun e => do pure (e.1, ← e.2))
      (fun k => k.map fun e : κ × Tree => (e.1, e.2.slot)) (List.map Prod.snd)
      fun k => k.map (fun e => (e.1, e.2.value)) = entries := by
  rw [List.mapM_map]
  refine puts_mapM fun e he => ?_
  intro s
  obtain ⟨t, s', hrun, ht, hextends⟩ := h e.2 (List.mem_map_of_mem he) s
  refine ⟨(e.1, t), s', ?_, ?_, hextends⟩
  · show StateT.run (place e.2 >>= _) s = _
    rw [StateT.run_bind, hrun]
    rfl
  · show (e.1, t.value) = e
    rw [ht]

theorem puts_items {place : Value → StateM Store Slot} {items : List Value}
    (h : ∀ v ∈ items, Puts (place v) Tree.slot (fun t => [t]) (·.value = v)) :
    Puts ((items.map place).mapM id) (List.map Tree.slot) id (·.map Tree.value = items) := by
  rw [List.mapM_map]
  exact (puts_mapM h).imp fun k hk => ⟨k, rfl, (List.map_id' k).symm, hk⟩

/-- The contents of a node are put into the store one after another. -/
theorem puts_contents {place : Value → StateM Store Slot} {n : Node Value}
    (h : ∀ v ∈ n.children, Puts (place v) Tree.slot (fun t => [t]) (·.value = v)) :
    Puts ((n.map place).mapM id) (Node.map Tree.slot) Node.children (·.map Tree.value = n) := by
  cases n with
  | tuple items =>
      refine ((puts_items h).map Node.tuple).imp fun k hk => ⟨.tuple k, rfl, rfl, ?_⟩
      exact congrArg Node.tuple hk
  | list items =>
      refine ((puts_items h).map Node.list).imp fun k hk => ⟨.list k, rfl, rfl, ?_⟩
      exact congrArg Node.list hk
  | buffer bytes => exact fun s => ⟨.buffer bytes, s, rfl, rfl, .nil s⟩
  | dict entries =>
      refine ((puts_labelled h).map Node.dict).imp fun k hk => ⟨.dict k, rfl, rfl, ?_⟩
      exact congrArg Node.dict hk
  | frozen entries =>
      refine ((puts_labelled h).map Node.frozen).imp fun k hk => ⟨.frozen k, rfl, rfl, ?_⟩
      exact congrArg Node.frozen hk
  | object attributes =>
      refine ((puts_labelled h).map Node.object).imp fun k hk => ⟨.object k, rfl, rfl, ?_⟩
      exact congrArg Node.object hk
  | caseless m =>
      have hentries := (puts_labelled h).map fun entries =>
        Node.caseless ⟨entries, m.index, m.silent⟩
      rw [← bind_pure_comp] at hentries
      refine hentries.imp fun k hk => ⟨.caseless ⟨k, m.index, m.silent⟩, rfl, rfl, ?_⟩
      exact congrArg (fun entries => Node.caseless ⟨entries, m.index, m.silent⟩) hk
  | world w =>
      have hconfig := puts_labelled fun v hv => h v (List.mem_append_left _ hv)
      have hstate := puts_labelled fun v hv => h v (List.mem_append_right _ hv)
      have hboth := hconfig.bind
        (g := fun config => (fun state => Node.world ⟨config, state⟩) <$> _) fun k => hstate.map _
      simp only [← bind_pure_comp] at hboth
      refine hboth.imp ?_
      rintro ⟨config, state⟩ ⟨hc, hs⟩
      exact ⟨.world ⟨config, state⟩, rfl, rfl, congrArg₂ (fun c s => Node.world ⟨c, s⟩) hc hs⟩
  | view selected fallback =>
      have hselected := puts_labelled fun v hv => h v (List.mem_append_left _ hv)
      have hfallback := h fallback (List.mem_append_right _ (List.mem_singleton_self _))
      have hboth := hselected.bind (g := fun selected => Node.view selected <$> _)
        fun k => hfallback.map _
      simp only [← bind_pure_comp] at hboth
      refine hboth.imp ?_
      rintro ⟨selected, fallback⟩ ⟨hs, hf⟩
      exact ⟨.view selected fallback, rfl, rfl, congrArg₂ Node.view hs hf⟩

/-- **A value is placed in cells of its own.** -/
theorem puts_place (v : Value) : Puts (place v) Tree.slot (fun t => [t]) (·.value = v) := by
  induction v using Value.induction with
  | atom a =>
      intro s
      exact ⟨.ofAtom a, s, rfl, rfl, .atom s a⟩
  | node n ih =>
      intro s
      obtain ⟨k, s', hrun, hk, hextends⟩ := puts_contents ih s
      refine ⟨.ofNode s'.cells.size k, _, ?_, congrArg Value.node hk, hextends.node⟩
      rw [place, Value.fold_node]
      show StateT.run ((n.map place).mapM id >>= _) s = _
      rw [StateT.run_bind, hrun]
      rfl

end LooseData.Store
