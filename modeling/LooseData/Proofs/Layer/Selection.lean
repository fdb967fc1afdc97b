import LooseData.Layer.Select
import LooseData.Proofs.CaselessMap.Entries
import LooseData.Proofs.Outcome
import LooseData.Proofs.Table

set_option autoImplicit false

/-! # What selectors pick

A selector asks for names (`Layer.Asks`): a pattern for every name in which it occurs, anything else
for its own text. Whoever asks, a name is given the value that the named entries hold for it
(`Layer.IsSelection`), so two selectors never disagree about a name. Hence a selection is the set of
the entries that one of the selectors picks (`Layer.foldlM_pick`), and neither the order of the
selectors nor a repetition makes a difference (`Value.filter_of_subset`).
-/

namespace LooseData

variable {α : Type} {matcher : Matcher}

/-- Going through a list without a fault gives a value for every item. -/
theorem Except.exists_eq_ok_of_mapM {ε β γ : Type} {f : γ → Except ε β} {l : List γ} {vs : List β}
    (h : l.mapM f = .ok vs) {c : γ} (hc : c ∈ l) : ∃ v, f c = .ok v := by
  induction l generalizing vs with
  | nil => cases hc
  | cons d rest ih =>
      rw [List.mapM_cons] at h
      obtain ⟨w, hw, h⟩ := Except.bind_eq_ok_iff.mp h
      obtain ⟨ws, hws, -⟩ := Except.bind_eq_ok_iff.mp h
      rcases List.mem_cons.mp hc with rfl | hc
      · exact ⟨w, hw⟩
      · exact ih hws hc

namespace Table

theorem Distinct.nodup {t : Table α} (h : t.Distinct) : t.Nodup := by
  refine h.imp fun {e d} hne heq => ?_
  rw [heq, Key.same_refl] at hne
  cases hne

end Table

namespace Layer

/-! ## Entries by their names -/

/-- Entries under the texts of their keys. -/
def byName (entries : List (Value × α)) : List (Label × α) :=
  entries.map fun e => (.text e.1.shown, e.2)

/-- Entries that are found by names, no two of which are the same up to letter case. -/
structure Named (named : CaselessMap α) : Prop where
  coherent : named.Coherent
  isText : ∀ e ∈ named.entries, ∃ name, e.1 = .text name

theorem named_ofList_byName (entries : List (Value × α)) :
    Named (CaselessMap.ofList (byName entries) true) where
  coherent := CaselessMap.coherent_ofList _ true
  isText := by
    intro e he
    obtain ⟨d, -, hd⟩ := List.mem_map.mp
      (CaselessMap.mem_of_lastAlike (CaselessMap.mem_entries_ofList.mp he))
    exact ⟨d.1.shown, (congrArg Prod.fst hd).symm⟩

/-- What stands in named entries is found by its label. -/
theorem Named.get?_of_mem {named : CaselessMap α} (h : Named named) {e : Label × α}
    (he : e ∈ named.entries) : named.get? e.1 = some e.2 := by
  rw [h.coherent.get?_eq_scan, (h.coherent.scan_eq_some_iff e.1 e).mpr ⟨he, rfl⟩]
  rfl

theorem named_eq_ok_iff [HoldsAtoms α] {l : Layer α} {m : CaselessMap α} :
    l.named = .ok m ↔
      ∃ entries, l.entries = .ok entries ∧ (∀ e ∈ entries, e.1.tooLong = false) ∧
        m = CaselessMap.ofList (byName entries) true := by
  have hname (e : Value × α) (b : Label × α) :
      (e.1.shown?.map fun name => (Label.text name, e.2)) = .ok b ↔
        e.1.tooLong = false ∧ b = (.text e.1.shown, e.2) := by
    unfold Value.shown?
    cases e.1.tooLong with
    | true => exact ⟨nofun, fun h => nomatch h.1⟩
    | false => exact ⟨fun h => ⟨rfl, (Except.ok.inj h).symm⟩, fun h => congrArg Except.ok h.2.symm⟩
  unfold named
  constructor
  · intro h
    obtain ⟨entries, hentries, h⟩ := Except.bind_eq_ok_iff.mp h
    obtain ⟨labelled, hlabelled, h⟩ := Except.bind_eq_ok_iff.mp h
    have hread : ∀ e ∈ entries, e.1.tooLong = false := by
      intro e he
      obtain ⟨b, hb⟩ := Except.exists_eq_ok_of_mapM hlabelled he
      exact ((hname e b).mp hb).1
    have hmap := Except.mapM_eq_ok (l := entries) (g := fun e => (Label.text e.1.shown, e.2))
      fun e he => (hname e _).mpr ⟨hread e he, rfl⟩
    obtain rfl := Except.ok.inj (hmap.symm.trans hlabelled)
    exact ⟨entries, hentries, hread, (Except.ok.inj h).symm⟩
  · rintro ⟨entries, hentries, hread, rfl⟩
    rw [hentries]
    exact Except.bind_eq_ok_iff.mpr
      ⟨entries, rfl, Except.bind_eq_ok_iff.mpr ⟨byName entries, Except.mapM_eq_ok fun e he =>
        (hname e _).mpr ⟨hread e he, rfl⟩, rfl⟩⟩

/-! ## What one selector picks -/

section

variable (matcher) (named : CaselessMap α)

/-- The names that a selector asks for: a pattern those in which it occurs, anything else the text
that it reads as. -/
def Asks (selector : Value) (name : String) : Prop :=
  match selector with
  | .atom (.pattern p) => .text name ∈ named.labels ∧ matcher p name = true
  | selector => selector.shown = name

/-- The entries that a selector picks: the names that it asks for, each with the value found
there. -/
def Picks (selector : Value) (e : Key × α) : Prop :=
  ∃ name, Asks matcher named selector name ∧ named.get? (.text name) = some e.2 ∧ e.1 = .text name

/-- A selection: every key is a text, once, and has the value found under that text. -/
structure IsSelection (picked : Table α) : Prop where
  distinct : picked.Distinct
  found : ∀ e ∈ picked, ∃ name, e.1 = .text name ∧ named.get? (.text name) = some e.2

end

variable {named : CaselessMap α} {picked : Table α}

theorem isSelection_nil : IsSelection named [] where
  distinct := List.Pairwise.nil
  found := nofun

/-- A name that is picked again is picked with the same value, so only a new name makes a
difference. -/
theorem IsSelection.set (h : IsSelection named picked) {name : String} {v : α}
    (hv : named.get? (.text name) = some v) :
    IsSelection named (Table.set picked (.text name) v) ∧
      ∀ e, e ∈ Table.set picked (.text name) v ↔ e ∈ picked ∨ e = (.text name, v) := by
  cases hget : Table.get? picked (.text name) with
  | none =>
      refine ⟨⟨h.distinct.set _ _, fun e he => ?_⟩, fun e => ?_⟩
      · rw [Table.set_of_get?_eq_none hget, List.mem_append, List.mem_singleton] at he
        rcases he with he | rfl
        · exact h.found e he
        · exact ⟨name, rfl, hv⟩
      · rw [Table.set_of_get?_eq_none hget, List.mem_append, List.mem_singleton]
  | some w =>
      obtain ⟨front, k, back, rfl, hk, hfront⟩ := Table.exists_split_of_get? hget
      obtain ⟨name', rfl, hw⟩ := h.found (k, w) (by simp)
      obtain rfl := Key.same_text_iff.mp hk
      obtain rfl : w = v := Option.some.inj (hw.symm.trans hv)
      rw [Table.set_append_cons hk hfront]
      refine ⟨h, fun e => ?_⟩
      simp only [List.mem_append, List.mem_cons]
      tauto

/-- What a list of entries under their own names adds to a selection. -/
theorem IsSelection.setAll (h : IsSelection named picked) {entries : List (Label × α)}
    (hentries : ∀ e ∈ entries, named.get? (.text e.1.shown) = some e.2) :
    IsSelection named (entries.foldl (fun t e => Table.set t (.text e.1.shown) e.2) picked) ∧
      ∀ e, e ∈ entries.foldl (fun t e => Table.set t (.text e.1.shown) e.2) picked ↔
        e ∈ picked ∨ ∃ d ∈ entries, e = (.text d.1.shown, d.2) := by
  induction entries generalizing picked with
  | nil => exact ⟨h, by simp⟩
  | cons d rest ih =>
      obtain ⟨hd, hrest⟩ := List.forall_mem_cons.mp hentries
      obtain ⟨hset, hmem⟩ := h.set hd
      obtain ⟨hselection, hpicked⟩ := ih hset hrest
      refine ⟨hselection, fun e => ?_⟩
      rw [List.foldl_cons, hpicked, hmem, or_assoc, List.exists_mem_cons_iff]

/-- A pattern adds the entries in whose names it occurs. -/
theorem result_pickMatching (p : Pattern) (entries : List (Label × α)) (picked : Table α) :
    (pickMatching matcher p entries picked).result =
      .ok ((entries.filter fun e => matcher p e.1.shown).foldl
        (fun t e => Table.set t (.text e.1.shown) e.2) picked) := by
  induction entries generalizing picked with
  | nil => rfl
  | cons e rest ih =>
      obtain ⟨label, v⟩ := e
      rw [pickMatching, List.filter_cons]
      split
      · exact ih _
      · exact ih _

section

variable {selector : Value} (hpattern : ∀ p, selector ≠ .atom (.pattern p))

include hpattern

theorem asks_iff_shown {name : String} :
    Asks matcher named selector name ↔ selector.shown = name := by
  unfold Asks
  split
  · exact absurd rfl (hpattern _)
  · rfl

/-- A name adds at most one entry. -/
theorem result_pick_name (hread : selector.tooLong = false) (picked : Table α) :
    (pick matcher named picked selector).result =
      .ok ((named.get? (.text selector.shown)).elim picked
        fun v => Table.set picked (.text selector.shown) v) := by
  have hshown : selector.shown? = .ok selector.shown := by
    rw [Value.shown?, hread]
    rfl
  unfold pick
  split
  · exact absurd rfl (hpattern _)
  · rw [Logged.result_bind]
    show selector.shown?.bind _ = _
    rw [hshown]
    dsimp only [Except.bind]
    cases named.get? (.text selector.shown) with
    | none => rfl
    | some v => rfl

end

/-- **One step of a selection**: a selector that can be read adds the entries that it picks. -/
theorem IsSelection.pick (hnamed : Named named) (h : IsSelection named picked) {selector : Value}
    (hread : selector.tooLong = false) :
    ∃ picked', (pick matcher named picked selector).result = .ok picked' ∧ IsSelection named picked' ∧
      ∀ e, e ∈ picked' ↔ e ∈ picked ∨ Picks matcher named selector e := by
  by_cases hpattern : ∃ p, selector = .atom (.pattern p)
  · obtain ⟨p, rfl⟩ := hpattern
    have hfound : ∀ e ∈ named.entries.filter fun e => matcher p e.1.shown,
        named.get? (.text e.1.shown) = some e.2 := by
      intro e he
      have hmem := List.mem_of_mem_filter he
      obtain ⟨name, hname⟩ := hnamed.isText e hmem
      rw [← hnamed.get?_of_mem hmem, hname]
      rfl
    obtain ⟨hselection, hmem⟩ := h.setAll hfound
    refine ⟨_, result_pickMatching p named.entries picked, hselection, fun e => ?_⟩
    rw [hmem]
    refine or_congr Iff.rfl ?_
    constructor
    · rintro ⟨d, hd, rfl⟩
      obtain ⟨hd, hmatch⟩ := List.mem_filter.mp hd
      obtain ⟨name, hname⟩ := hnamed.isText d hd
      refine ⟨d.1.shown, ⟨?_, hmatch⟩, hfound d (List.mem_filter.mpr ⟨hd, hmatch⟩), rfl⟩
      refine List.mem_map.mpr ⟨d, hd, ?_⟩
      rw [hname]
      rfl
    · rintro ⟨name, ⟨hlabel, hmatch⟩, hget, he⟩
      obtain ⟨d, hd, hname⟩ := List.mem_map.mp hlabel
      have hvalue := hnamed.get?_of_mem hd
      rw [hname, hget] at hvalue
      refine ⟨d, List.mem_filter.mpr ⟨hd, ?_⟩, Prod.ext ?_ (Option.some.inj hvalue)⟩
      · rw [hname]
        exact hmatch
      · rw [he, hname]
        rfl
  · push Not at hpattern
    rw [result_pick_name hpattern hread]
    have hpicks (e : Key × α) : Picks matcher named selector e ↔
        named.get? (.text selector.shown) = some e.2 ∧ e.1 = .text selector.shown := by
      simp only [Picks, asks_iff_shown hpattern, exists_eq_left']
    cases hget : named.get? (.text selector.shown) with
    | none =>
        refine ⟨picked, rfl, h, fun e => ?_⟩
        rw [hpicks, hget]
        simp
    | some v =>
        obtain ⟨hset, hmem⟩ := h.set hget
        refine ⟨_, rfl, hset, fun e => ?_⟩
        rw [Option.elim_some, hmem, hpicks, hget, Prod.ext_iff, Option.some.injEq]
        exact or_congr Iff.rfl ⟨fun h => ⟨h.2.symm, h.1⟩, fun h => ⟨h.2, h.1.symm⟩⟩

/-- A selector that is no number too long to be written can be read. -/
theorem tooLong_of_pick {selector : Value} {picked' : Table α}
    (h : (pick matcher named picked selector).result = .ok picked') : selector.tooLong = false := by
  by_cases hpattern : ∃ p, selector = .atom (.pattern p)
  · obtain ⟨p, rfl⟩ := hpattern
    rfl
  · push Not at hpattern
    unfold pick at h
    split at h
    · exact absurd rfl (hpattern _)
    · obtain ⟨name, hname, -⟩ := Logged.bind_eq_ok_iff.mp h
      change selector.shown? = _ at hname
      unfold Value.shown? at hname
      split at hname
      · cases hname
      · rename_i hread
        exact Bool.not_eq_true _ ▸ hread

/-- **A whole selection** consists of the entries that one of the selectors picks. -/
theorem IsSelection.foldlM_pick (hnamed : Named named) (h : IsSelection named picked)
    {selectors : List Value} (hread : ∀ s ∈ selectors, s.tooLong = false) :
    ∃ picked', (selectors.foldlM (Layer.pick matcher named) picked).result = .ok picked' ∧
      IsSelection named picked' ∧
      ∀ e, e ∈ picked' ↔ e ∈ picked ∨ ∃ s ∈ selectors, Picks matcher named s e := by
  induction selectors generalizing picked with
  | nil => exact ⟨picked, rfl, h, by simp⟩
  | cons s rest ih =>
      obtain ⟨hs, hrest⟩ := List.forall_mem_cons.mp hread
      obtain ⟨picked₁, hresult₁, hselection₁, hmem₁⟩ := h.pick hnamed hs
      obtain ⟨picked₂, hresult₂, hselection₂, hmem₂⟩ := ih hselection₁ hrest
      refine ⟨picked₂, ?_, hselection₂, fun e => ?_⟩
      · rw [List.foldlM_cons]
        exact Logged.bind_eq_ok_iff.mpr ⟨picked₁, hresult₁, hresult₂⟩
      · rw [hmem₂, hmem₁, or_assoc, List.exists_mem_cons_iff]

theorem tooLong_of_foldlM_pick {selectors : List Value} {picked' : Table α}
    (h : (selectors.foldlM (pick matcher named) picked).result = .ok picked') :
    ∀ s ∈ selectors, s.tooLong = false := by
  induction selectors generalizing picked with
  | nil => exact List.forall_mem_nil _
  | cons s rest ih =>
      rw [List.foldlM_cons] at h
      obtain ⟨picked₁, hresult₁, hresult⟩ := Logged.bind_eq_ok_iff.mp h
      exact List.forall_mem_cons.mpr ⟨tooLong_of_pick hresult₁, ih hresult⟩

/-! ## The selection from a layer -/

section

variable [HoldsAtoms α] {l : Layer α} {selectors : List Value}

theorem result_select? (hne : selectors ≠ []) :
    (l.select? matcher selectors).result = l.named.bind fun named =>
      (selectors.foldlM (pick matcher named) []).result.map some := by
  have hempty : selectors.isEmpty = false := by
    cases selectors with
    | nil => exact absurd rfl hne
    | cons s rest => rfl
  unfold select?
  rw [hempty, if_neg Bool.false_ne_true]
  show (_ >>= fun named => some <$> selectors.foldlM (pick matcher named) []).result = _
  rw [Logged.result_bind]
  refine congrArg _ (funext fun named => ?_)
  exact Logged.result_bind _ _

/-- Whoever gets a selection has given selectors that can be read, and the entries can be read
too. -/
theorem readable_of_select? (hne : selectors ≠ []) {found : Option (Table α)}
    (h : (l.select? matcher selectors).result = .ok found) :
    ∃ entries, l.entries = .ok entries ∧ (∀ e ∈ entries, e.1.tooLong = false) ∧
      ∀ s ∈ selectors, s.tooLong = false := by
  rw [result_select? hne] at h
  obtain ⟨named, hnamed, h⟩ := Except.bind_eq_ok_iff.mp h
  obtain ⟨picked, hpicked, -⟩ := Except.map_eq_ok_iff.mp h
  obtain ⟨entries, hentries, hkeys, -⟩ := named_eq_ok_iff.mp hnamed
  exact ⟨entries, hentries, hkeys, tooLong_of_foldlM_pick hpicked⟩

/-- **What is selected**: there is a selection, and it consists of the entries that one of the
selectors picks. -/
theorem exists_select?_eq (hne : selectors ≠ []) {entries : List (Value × α)}
    (hentries : l.entries = .ok entries) (hkeys : ∀ e ∈ entries, e.1.tooLong = false)
    (hread : ∀ s ∈ selectors, s.tooLong = false) :
    ∃ picked, (l.select? matcher selectors).result = .ok (some picked) ∧
      IsSelection (CaselessMap.ofList (byName entries) true) picked ∧
      ∀ e, e ∈ picked ↔
        ∃ s ∈ selectors, Picks matcher (CaselessMap.ofList (byName entries) true) s e := by
  obtain ⟨picked, hpicked, hselection, hmem⟩ :=
    isSelection_nil.foldlM_pick (named_ofList_byName entries) hread
  refine ⟨picked, ?_, hselection, fun e => by simpa using hmem e⟩
  rw [result_select? hne, named_eq_ok_iff.mpr ⟨entries, hentries, hkeys, rfl⟩]
  exact Except.map_eq_ok_iff.mpr ⟨picked, hpicked, rfl⟩

end

/-- Selections of the same entries agree up to their order. -/
theorem IsSelection.perm {picked' : Table α} (h : IsSelection named picked)
    (h' : IsSelection named picked') (hmem : ∀ e, e ∈ picked ↔ e ∈ picked') :
    picked.Perm picked' :=
  (List.perm_ext_iff_of_nodup h.distinct.nodup h'.distinct.nodup).mpr hmem

end Layer

/-! ## A matcher for simple patterns -/

namespace Pattern

/-- Whether a text starts like a source, in which a dot stands for any character. -/
def startsLike : (source text : List Char) → Bool
  | [], _ => true
  | _ :: _, [] => false
  | c :: source, d :: text => (c == '.' || c == d) && startsLike source text

/-- The matcher for sources that hold no other marks than dots and a caret in front, which stands
for the start of a text. -/
def plainMatcher : Matcher := fun p text =>
  match p.source.toList with
  | '^' :: source => startsLike source text.toList
  | source => text.toList.tails.any (startsLike source)

end Pattern

/-! ## Views by other selectors -/

namespace Value

theorem filter_eq_ok_iff {v w : Value} {selectors : List Value} :
    (v.filter matcher selectors).result = .ok w ↔
      ∃ found, (v.layer.select? matcher selectors).result = .ok found ∧
        w = found.elim v fun picked => .node (.view picked v) := by
  unfold filter
  rw [Logged.bind_eq_ok_iff]
  refine exists_congr fun found => and_congr_right fun _ => ?_
  cases found with
  | none => exact ⟨fun h => (Except.ok.inj h).symm, fun h => congrArg Except.ok h.symm⟩
  | some picked => exact ⟨fun h => (Except.ok.inj h).symm, fun h => congrArg Except.ok h.symm⟩

/-- **The order of selectors makes no difference**, nor does a repetition: selectors with the same
members give a view of the same pairs. A further selector that can be read never takes away a pair
and never changes a value. -/
theorem filter_of_subset {v w : Value} {selectors : List Value} (hne : selectors ≠ [])
    (h : (v.filter matcher selectors).result = .ok w) :
    ∃ picked : Table Value, w = .node (.view picked v) ∧ picked.Distinct ∧
      ∀ more : List Value, selectors ⊆ more → (∀ s ∈ more, s ∉ selectors → s.tooLong = false) →
        ∃ picked' : Table Value, (v.filter matcher more).result = .ok (.node (.view picked' v)) ∧
          picked'.Distinct ∧ picked ⊆ picked' ∧
          (more ⊆ selectors → picked'.Perm picked) := by
  obtain ⟨found, hfound, rfl⟩ := filter_eq_ok_iff.mp h
  obtain ⟨entries, hentries, hkeys, hread⟩ := Layer.readable_of_select? hne hfound
  obtain ⟨picked, hpicked, hselection, hmem⟩ :=
    Layer.exists_select?_eq hne hentries hkeys hread
  obtain rfl : some picked = found := Except.ok.inj (hpicked.symm.trans hfound)
  refine ⟨picked, rfl, hselection.distinct, fun more hsub hadded => ?_⟩
  have hmore : ∀ s ∈ more, s.tooLong = false := by
    intro s hs
    by_cases hold : s ∈ selectors
    · exact hread s hold
    · exact hadded s hs hold
  have hne' : more ≠ [] := by
    rintro rfl
    exact hne (List.subset_nil.mp hsub)
  obtain ⟨picked', hpicked', hselection', hmem'⟩ :=
    Layer.exists_select?_eq hne' hentries hkeys hmore
  have hkept : picked ⊆ picked' := by
    intro e he
    obtain ⟨s, hs, hpicks⟩ := (hmem e).mp he
    exact (hmem' e).mpr ⟨s, hsub hs, hpicks⟩
  refine ⟨picked', filter_eq_ok_iff.mpr ⟨_, hpicked', rfl⟩, hselection'.distinct, hkept, ?_⟩
  intro hback
  refine hselection'.perm hselection fun e => ⟨fun he => ?_, fun he => hkept he⟩
  obtain ⟨s, hs, hpicks⟩ := (hmem' e).mp he
  exact (hmem e).mpr ⟨s, hback hs, hpicks⟩

/-- A dictionary with two keys that differ only in letter case. -/
def caseTwins : Value := .dict [(.text "A", .int 1), (.text "a", .int 2), (.text "b", .int 3)]

/-- The names `A` and `a` stand for one entry; the pattern finds it under `a` only, whether it comes
before the name or behind it. -/
theorem filter_caseTwins_of_subset :
    (caseTwins.filter Pattern.plainMatcher [.text "A", .atom (.pattern ⟨".", false⟩)]).result =
        .ok (.node
          (.view [(.text "A", .int 2), (.text "a", .int 2), (.text "b", .int 3)] caseTwins)) ∧
      ∃ picked : Table Value,
        (caseTwins.filter Pattern.plainMatcher
            [.atom (.pattern ⟨".", false⟩), .text "A", .text "A"]).result =
          .ok (.node (.view picked caseTwins)) ∧
        picked.Perm [(.text "A", .int 2), (.text "a", .int 2), (.text "b", .int 3)] := by
  have hfirst :
      (caseTwins.filter Pattern.plainMatcher [.text "A", .atom (.pattern ⟨".", false⟩)]).result =
      .ok (.node (.view [(.text "A", .int 2), (.text "a", .int 2), (.text "b", .int 3)]
        caseTwins)) := by rfl
  refine ⟨hfirst, ?_⟩
  obtain ⟨picked, hview, -, hmore⟩ := filter_of_subset (List.cons_ne_nil _ _) hfirst
  obtain ⟨rfl, -⟩ := Node.view.inj (Value.node.inj hview)
  obtain ⟨picked', hpicked', -, -, hperm⟩ :=
    hmore [.atom (.pattern ⟨".", false⟩), .text "A", .text "A"] (by simp) (by simp)
  exact ⟨picked', hpicked', hperm (by simp)⟩

end Value

end LooseData
