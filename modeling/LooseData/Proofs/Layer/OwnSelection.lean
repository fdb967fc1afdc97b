import LooseData.Proofs.Layer.OwnKeys
import LooseData.Proofs.Layer.Selection
import LooseData.View

set_option autoImplicit false

/-! # Whether a view shows the entries that were asked for

A pattern asks for every entry in whose name it occurs, and a name for the entry of exactly this
name, or, if there is none, for one of the name up to letter case (`Layer.Due`). A view is right if
it shows that and nothing else (`Layer.ShowsOwn`).

But the entries are found by names without letter case, and of the entries whose names are alike
only the last one is left. So a view is right exactly if every entry that is asked for has the value
of the last one alike, and its spelling too, unless the entry is asked for by its name
(`Layer.showsOwn_iff`). A lookup through the view has the value of the last one alike wherever the
view shows the name at all (`Value.filter_showsOwn_iff`).
-/

namespace LooseData

variable {α : Type} {matcher : Matcher}

namespace Value

/-- Whether a selector is a pattern. -/
def isPattern : Value → Bool
  | .atom (.pattern _) => true
  | _ => false

/-- A selector calls a name: as a pattern it occurs in it, otherwise it reads as it. -/
def Calls (matcher : Matcher) (selector : Value) (name : String) : Prop :=
  match selector with
  | .atom (.pattern p) => matcher p name = true
  | selector => selector.shown = name

theorem calls_iff_shown {selector : Value} (h : selector.isPattern = false) {name : String} :
    selector.Calls matcher name ↔ selector.shown = name := by
  unfold Calls
  split
  · cases h
  · rfl

end Value

namespace Layer

/-! ## What a view should show -/

/-- What a selector asks for among own entries: the entries of the names that it calls. A name that
no entry has is given the value of an entry that has it up to letter case. -/
def Due (matcher : Matcher) (own : List (Label × α)) (selector : Value) (name : String) (v : α) :
    Prop :=
  selector.Calls matcher name ∧ ((.text name, v) ∈ own ∨
    selector.isPattern = false ∧ (∀ w, (.text name, w) ∉ own) ∧
      ∃ d ∈ own, d.1.fold = (Label.text name).fold ∧ d.2 = v)

/-- A view shows what its selectors ask for, each entry with its own value, and nothing else. -/
structure ShowsOwn (matcher : Matcher) (own : List (Label × α)) (selectors : List Value)
    (picked : Table α) : Prop where
  exact : ∀ s ∈ selectors, ∀ name v, (.text name, v) ∈ own → s.Calls matcher name →
    (.text name, v) ∈ picked
  alike : ∀ s ∈ selectors, s.isPattern = false → (∀ w, (.text s.shown, w) ∉ own) →
    (∃ v, Due matcher own s s.shown v) →
      ∃ v, Due matcher own s s.shown v ∧ (.text s.shown, v) ∈ picked
  only : ∀ e ∈ picked, ∃ s ∈ selectors, ∃ name, e.1 = .text name ∧ Due matcher own s name e.2

/-- Every own entry that is called has the value of the last entry alike, and the spelling of that
entry unless it is called by its name. -/
def Prevails (matcher : Matcher) (own : List (Label × α)) (selectors : List Value) : Prop :=
  ∀ name w, (.text name, w) ∈ own → (∃ s ∈ selectors, s.Calls matcher name) →
    ∃ last, CaselessMap.lastAlike own (.text name) = some (last, w) ∧
      (last = .text name ∨ ∃ s ∈ selectors, s.isPattern = false ∧ s.shown = name)

/-! ## What a view does show -/

section

variable {own : List (Label × α)} {selectors : List Value} {picked : Table α}

/-- A pattern asks for the names that it calls and that are the last of those alike; a name asks for
itself. -/
theorem asks_ofList_iff {selector : Value} {name : String} :
    Asks matcher (CaselessMap.ofList own true) selector name ↔
      selector.Calls matcher name ∧ (selector.isPattern = true →
        ∃ v, CaselessMap.lastAlike own (.text name) = some (.text name, v)) := by
  have hlabels : .text name ∈ (CaselessMap.ofList own true).labels ↔
      ∃ v, CaselessMap.lastAlike own (.text name) = some (.text name, v) := by
    constructor
    · intro h
      obtain ⟨⟨label, v⟩, hmem, rfl⟩ := List.mem_map.mp h
      exact ⟨v, CaselessMap.mem_entries_ofList.mp hmem⟩
    · rintro ⟨v, hv⟩
      exact List.mem_map.mpr ⟨(.text name, v), CaselessMap.mem_entries_ofList.mpr hv, rfl⟩
  by_cases hpattern : selector.isPattern = true
  · unfold Value.isPattern at hpattern
    split at hpattern
    · show _ ∧ _ ↔ _
      rw [hlabels, and_comm]
      exact and_congr_right fun _ => ⟨fun h _ => h, fun h => h rfl⟩
    · cases hpattern
  · have hne : ∀ p, selector ≠ .atom (.pattern p) := by
      rintro p rfl
      exact hpattern rfl
    rw [asks_iff_shown hne, Value.calls_iff_shown (Bool.eq_false_iff.mpr hpattern)]
    exact ⟨fun h => ⟨h, fun h' => absurd h' hpattern⟩, And.left⟩

/-- What a view of own entries shows: what one of the selectors picks. -/
def Shows (matcher : Matcher) (own : List (Label × α)) (selectors : List Value)
    (picked : Table α) : Prop :=
  ∀ e, e ∈ picked ↔ ∃ s ∈ selectors, Picks matcher (CaselessMap.ofList own true) s e

theorem get?_ofList_eq_some_iff {label : Label} {v : α} :
    (CaselessMap.ofList own true).get? label = some v ↔
      ∃ last, CaselessMap.lastAlike own label = some (last, v) := by
  rw [CaselessMap.get?_ofList, Option.map_eq_some_iff]
  constructor
  · rintro ⟨⟨last, w⟩, hlast, rfl⟩
    exact ⟨last, hlast⟩
  · rintro ⟨last, hlast⟩
    exact ⟨_, hlast, rfl⟩

theorem picks_ofList_iff {selector : Value} {name : String} {v : α} :
    Picks matcher (CaselessMap.ofList own true) selector (.text name, v) ↔
      Asks matcher (CaselessMap.ofList own true) selector name ∧
        ∃ last, CaselessMap.lastAlike own (.text name) = some (last, v) := by
  constructor
  · rintro ⟨other, hasks, hfound, hname⟩
    obtain rfl : name = other := Key.same_text_iff.mp (hname ▸ Key.same_refl _)
    exact ⟨hasks, get?_ofList_eq_some_iff.mp hfound⟩
  · rintro ⟨hasks, hlast⟩
    exact ⟨name, hasks, get?_ofList_eq_some_iff.mpr hlast, rfl⟩

/-- A name that is asked for is shown with the value of the last entry alike. -/
theorem Shows.mem_of_lastAlike (hshows : Shows matcher own selectors picked) {s : Value}
    (hs : s ∈ selectors) (hpattern : s.isPattern = false) {v : α} {last : Label}
    (hlast : CaselessMap.lastAlike own (.text s.shown) = some (last, v)) :
    (.text s.shown, v) ∈ picked := by
  refine (hshows _).mpr
    ⟨s, hs, picks_ofList_iff.mpr ⟨asks_ofList_iff.mpr ⟨?_, ?_⟩, last, hlast⟩⟩
  · exact (Value.calls_iff_shown hpattern).mpr rfl
  · intro hp
    rw [hpattern] at hp
    cases hp

theorem Shows.prevails (hshows : Shows matcher own selectors picked)
    (h : ShowsOwn matcher own selectors picked) : Prevails matcher own selectors := by
  rintro name w hown ⟨s, hs, hcalls⟩
  obtain ⟨s', hs', hpicks⟩ := (hshows _).mp (h.exact s hs name w hown hcalls)
  obtain ⟨hasks, last, hlast⟩ := picks_ofList_iff.mp hpicks
  refine ⟨last, hlast, ?_⟩
  obtain ⟨hcalls', hspelling⟩ := asks_ofList_iff.mp hasks
  cases hpattern : s'.isPattern with
  | true =>
      obtain ⟨v, hv⟩ := hspelling hpattern
      exact .inl (Prod.mk.inj (Option.some.inj (hlast.symm.trans hv))).1
  | false => exact .inr ⟨s', hs', hpattern, (Value.calls_iff_shown hpattern).mp hcalls'⟩

theorem Shows.showsOwn (hshows : Shows matcher own selectors picked)
    (h : Prevails matcher own selectors) : ShowsOwn matcher own selectors picked where
  exact s hs name v hown hcalls := by
    obtain ⟨last, hlast, hlast' | ⟨s', hs', hpattern, rfl⟩⟩ := h name v hown ⟨s, hs, hcalls⟩
    · subst hlast'
      exact (hshows _).mpr ⟨s, hs, picks_ofList_iff.mpr
        ⟨asks_ofList_iff.mpr ⟨hcalls, fun _ => ⟨v, hlast⟩⟩, _, hlast⟩⟩
    · exact hshows.mem_of_lastAlike hs' hpattern hlast
  alike := by
    rintro s hs hpattern habsent ⟨v, hcalls, hown | ⟨-, -, d, hd, hfold, -⟩⟩
    · exact absurd hown (habsent v)
    · -- There may be several entries alike: it is the last of them that is shown.
      obtain ⟨⟨last, w⟩, hlast⟩ := CaselessMap.exists_lastAlike_of_mem hd
      rw [CaselessMap.lastAlike_congr hfold] at hlast
      exact ⟨w, ⟨hcalls, .inr ⟨hpattern, habsent, _, CaselessMap.mem_of_lastAlike hlast,
        CaselessMap.fold_of_lastAlike hlast, rfl⟩⟩, hshows.mem_of_lastAlike hs hpattern hlast⟩
  only e he := by
    obtain ⟨s, hs, name, hasks, hfound, hname⟩ := (hshows e).mp he
    obtain ⟨-, last, hlast⟩ := picks_ofList_iff.mp ⟨name, hasks, hfound, rfl⟩
    obtain ⟨hcalls, hspelling⟩ := asks_ofList_iff.mp hasks
    refine ⟨s, hs, name, hname, hcalls, ?_⟩
    by_cases hpresent : ∃ w, (.text name, w) ∈ own
    · -- The entry of this name has the value that the last entry alike has.
      obtain ⟨w, hw⟩ := hpresent
      obtain ⟨last', hlast', -⟩ := h name w hw ⟨s, hs, hcalls⟩
      have hvalue : w = e.2 := (Prod.mk.inj (Option.some.inj (hlast'.symm.trans hlast))).2
      rw [hvalue] at hw
      exact .inl hw
    · push Not at hpresent
      cases hpattern : s.isPattern with
      | true =>
          obtain ⟨v, hv⟩ := hspelling hpattern
          exact absurd (CaselessMap.mem_of_lastAlike hv) (hpresent v)
      | false =>
          exact .inr ⟨rfl, hpresent, _, CaselessMap.mem_of_lastAlike hlast,
            CaselessMap.fold_of_lastAlike hlast, rfl⟩

/-- **When a view shows what was asked for.** -/
theorem showsOwn_iff (hshows : Shows matcher own selectors picked) :
    ShowsOwn matcher own selectors picked ↔ Prevails matcher own selectors :=
  ⟨hshows.prevails, hshows.showsOwn⟩

end

/-- A value that is found in a selection is the one that the named entries hold. -/
theorem IsSelection.get?_eq_some {named : CaselessMap α} {picked : Table α}
    (h : IsSelection named picked) {name : String} {v : α}
    (hv : Table.get? picked (.text name) = some v) :
    (.text name, v) ∈ picked ∧ named.get? (.text name) = some v := by
  obtain ⟨front, k, back, rfl, hk, -⟩ := Table.exists_split_of_get? hv
  obtain ⟨other, rfl, hother⟩ := h.found (k, v) (by simp)
  obtain rfl := Key.same_text_iff.mp hk
  exact ⟨by simp, hother⟩

/-- Going through the entries pairs a key with what access by it finds. -/
theorem mem_ownKeys_and_access_of_mem_entries [HoldsAtoms α] {l : Layer α}
    {entries : List (Value × α)} (h : l.entries = .ok entries) {key : Value} {v : α}
    (hmem : (key, v) ∈ entries) : key ∈ l.ownKeys ∧ l.access key = .ok v := by
  obtain ⟨k, hk, hpair⟩ := Except.exists_of_mem_mapM h hmem
  obtain ⟨w, hw, heq⟩ := Except.map_eq_ok_iff.mp hpair
  obtain ⟨rfl, rfl⟩ := Prod.mk.inj heq
  exact ⟨hk, hw⟩

end Layer

namespace Value

/-! ## Looking things up through a view -/

/-- A lookup through a view gives an own entry its own value unless the view shows another one. -/
theorem find_view_eq_ok_iff {v w default : Value} (hv : v.layer.WellMade) {name : String}
    (hname : .text name ∈ v.ownKeys) (hw : v.access (.text name) = .ok w) (picked : Table Value) :
    View.find picked v (.text name) default = .ok w ↔
      ∀ u, Table.get? picked (.text name) = some u → u = w := by
  have hfind : Table.find? picked (.text name) = .ok (Table.get? picked (.text name)) := rfl
  unfold View.find
  rw [hfind]
  dsimp only [Bind.bind, Except.bind]
  cases Table.get? picked (.text name) with
  | some u =>
      constructor
      · rintro ⟨⟩ u' ⟨⟩
        rfl
      · intro h
        exact congrArg Except.ok (h u rfl)
  | none =>
      have hkey : v.hasKey (.text name) = .ok true := by
        show (v.layer.lookup _).map _ = _
        rw [hv.lookup_of_mem_ownKeys hname hw]
        rfl
      refine ⟨fun _ => nofun, fun _ => ?_⟩
      show (v.hasKey (.text name)).bind (fun b => if b = true then v.access (.text name) else _) = _
      rw [hkey]
      exact hw

section

variable {v own : Value} {entries : List (Value × Value)} {picked : Table Value} {name : String}
  (hv : v.layer.WellMade) (hentries : v.entries = .ok entries)
  (hselection : Layer.IsSelection (CaselessMap.ofList (Layer.byName entries) true) picked)
  (hown : (.text name, own) ∈ entries) (default : Value)

include hv hentries hselection hown

/-- A lookup of an own name gives the own value if the view does not show the name, or if the last
entry alike has the own value. -/
theorem find_selected_eq_ok_iff : View.find picked v (.text name) default = .ok own ↔
    Table.get? picked (.text name) = none ∨
      ∃ last, CaselessMap.lastAlike (Layer.byName entries) (.text name) = some (last, own) := by
  obtain ⟨hname, haccess⟩ := Layer.mem_ownKeys_and_access_of_mem_entries hentries hown
  rw [find_view_eq_ok_iff hv hname haccess]
  cases hget : Table.get? picked (.text name) with
  | none => exact ⟨fun _ => .inl rfl, fun _ => nofun⟩
  | some u =>
      obtain ⟨last, hlast⟩ := Layer.get?_ofList_eq_some_iff.mp (hselection.get?_eq_some hget).2
      constructor
      · intro h
        exact .inr ⟨last, h u rfl ▸ hlast⟩
      · rintro (h | ⟨last', hlast'⟩) u' ⟨⟩
        · cases h
        · exact (Prod.mk.inj (Option.some.inj (hlast.symm.trans hlast'))).2

/-- Where the view shows what was asked for, a lookup of an own name gives the own value. -/
theorem find_selected_of_showsOwn {selectors : List Value}
    (hshows : Layer.Shows matcher (Layer.byName entries) selectors picked)
    (h : Layer.ShowsOwn matcher (Layer.byName entries) selectors picked) :
    View.find picked v (.text name) default = .ok own := by
  obtain ⟨hname, haccess⟩ := Layer.mem_ownKeys_and_access_of_mem_entries hentries hown
  refine (find_view_eq_ok_iff hv hname haccess picked).mpr fun u hget => ?_
  obtain ⟨s, hs, hpicks⟩ := (hshows _).mp (hselection.get?_eq_some hget).1
  have hcalls := (Layer.asks_ofList_iff.mp (Layer.picks_ofList_iff.mp hpicks).1).1
  have hexact := h.exact s hs name own (List.mem_map.mpr ⟨_, hown, rfl⟩) hcalls
  exact Option.some.inj (hget.symm.trans (hselection.distinct.get?_of_mem hexact))

end

/-- **What a view of selected entries shows, and what is looked up through it.** There is a view if
the keys of the entries and the selectors can be written as texts. It shows what the selectors ask
for exactly if the entries that they call prevail among those alike, and then a lookup of an own
text has its own value. In any case a lookup misses the own value only of a name that the view shows
and of which another entry is the last one alike. -/
theorem filter_showsOwn_iff {v : Value} (hv : v.layer.WellMade) {entries : List (Value × Value)}
    (hentries : v.entries = .ok entries) {selectors : List Value} (hne : selectors ≠ []) :
    ((∃ w, (v.filter matcher selectors).result = .ok w) ↔
      (∀ e ∈ entries, e.1.tooLong = false) ∧ ∀ s ∈ selectors, s.tooLong = false) ∧
    ∀ w, (v.filter matcher selectors).result = .ok w →
      ∃ picked : Table Value, w = .node (.view picked v) ∧ picked.Distinct ∧
        (Layer.ShowsOwn matcher (Layer.byName entries) selectors picked ↔
          Layer.Prevails matcher (Layer.byName entries) selectors) ∧
        ∀ name own default, (.text name, own) ∈ entries →
          (View.find picked v (.text name) default = .ok own ↔
            Table.get? picked (.text name) = none ∨
              ∃ last, CaselessMap.lastAlike (Layer.byName entries) (.text name) =
                some (last, own)) ∧
          (Layer.ShowsOwn matcher (Layer.byName entries) selectors picked →
            View.find picked v (.text name) default = .ok own) := by
  refine ⟨⟨?_, ?_⟩, ?_⟩
  · rintro ⟨w, h⟩
    obtain ⟨found, hfound, -⟩ := filter_eq_ok_iff.mp h
    obtain ⟨entries', hentries', hreadable⟩ := Layer.readable_of_select? hne hfound
    obtain rfl : entries = entries' := Except.ok.inj (hentries.symm.trans hentries')
    exact hreadable
  · rintro ⟨hkeys, hread⟩
    obtain ⟨picked, hpicked, -⟩ := Layer.exists_select?_eq hne hentries hkeys hread
    exact ⟨_, filter_eq_ok_iff.mpr ⟨_, hpicked, rfl⟩⟩
  · intro w h
    obtain ⟨found, hfound, rfl⟩ := filter_eq_ok_iff.mp h
    obtain ⟨entries', hentries', hkeys, hread⟩ := Layer.readable_of_select? hne hfound
    obtain rfl : entries = entries' := Except.ok.inj (hentries.symm.trans hentries')
    obtain ⟨picked, hpicked, hselection, hshows⟩ :=
      Layer.exists_select?_eq hne hentries hkeys hread
    obtain rfl : some picked = found := Except.ok.inj (hpicked.symm.trans hfound)
    refine ⟨picked, rfl, hselection.distinct, Layer.showsOwn_iff hshows, ?_⟩
    intro name own default hown
    exact ⟨find_selected_eq_ok_iff hv hentries hselection hown default,
      find_selected_of_showsOwn hv hentries hselection hown default hshows⟩

/-- A name in other letters and a pattern, of entries whose names are not alike. -/
theorem filter_hostAndPort_showsOwn :
    (Value.dict [(.text "Host", .text "a"), (.text "port", .int 80)]).entries =
        .ok [(.text "Host", .text "a"), (.text "port", .int 80)] ∧
      ∃ picked : Table Value,
        ((Value.dict [(.text "Host", .text "a"), (.text "port", .int 80)]).filter
          Pattern.plainMatcher [.text "HOST", .atom (.pattern ⟨"^p", false⟩)]).result =
            .ok (.node (.view picked
              (.dict [(.text "Host", .text "a"), (.text "port", .int 80)]))) ∧
        Layer.ShowsOwn Pattern.plainMatcher
          (Layer.byName [(.text "Host", .text "a"), (.text "port", .int 80)])
          [.text "HOST", .atom (.pattern ⟨"^p", false⟩)] picked := by
  have hentries : (Value.dict [(.text "Host", .text "a"), (.text "port", .int 80)]).entries =
      .ok [(.text "Host", .text "a"), (.text "port", .int 80)] := by rfl
  refine ⟨hentries, ?_⟩
  have hmade :
      (Value.dict [(.text "Host", .text "a"), (.text "port", .int 80)]).layer.WellMade := by
    rintro n ⟨⟩ -
    exact List.pairwise_pair.mpr (by decide)
  have hselectors : [Value.text "HOST", .atom (.pattern ⟨"^p", false⟩)] ≠ [] :=
    List.cons_ne_nil _ _
  obtain ⟨⟨-, hreturns⟩, hview⟩ := filter_showsOwn_iff hmade hentries hselectors
  obtain ⟨w, hw⟩ := hreturns (by decide)
  obtain ⟨picked, rfl, -, hright, -⟩ := hview w hw
  refine ⟨picked, hw, hright.mpr ?_⟩
  intro name w hown _
  rcases List.mem_pair.mp hown with heq | heq
  · cases heq
    exact ⟨.text "Host", by rfl, .inl rfl⟩
  · cases heq
    exact ⟨.text "port", by rfl, .inl rfl⟩

/-- **A view does not always show what was asked for**: of two names that differ in letter case
only, the earlier one is given the value of the later one, in the view and by a lookup. -/
theorem exists_filter_not_showsOwn :
    caseTwins.entries = .ok [(.text "A", .int 1), (.text "a", .int 2), (.text "b", .int 3)] ∧
      ∃ picked : Table Value,
        (caseTwins.filter Pattern.plainMatcher [.text "A"]).result =
          .ok (.node (.view picked caseTwins)) ∧
        ¬ Layer.ShowsOwn Pattern.plainMatcher
          (Layer.byName [(.text "A", .int 1), (.text "a", .int 2), (.text "b", .int 3)])
          [.text "A"] picked ∧
        View.find picked caseTwins (.text "A") .null = .ok (.int 2) := by
  refine ⟨by rfl, [(.text "A", .int 2)], by rfl, fun h => ?_, by rfl⟩
  have hexact := h.exact (.text "A") List.mem_cons_self "A" (.int 1) List.mem_cons_self rfl
  cases List.mem_singleton.mp hexact

end Value

end LooseData
