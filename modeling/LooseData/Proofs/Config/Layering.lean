import LooseData.Config.Layers
import LooseData.Proofs.Json.Data
import LooseData.Proofs.Merge.Safety
import LooseData.Proofs.Merge.Union

set_option autoImplicit false

/-! # What a configuration of layers holds

The layers of a configuration are dictionaries, and each is laid over the ones below it
(`stacked`). Where every layer gives way to the next one, that is the union of the layers key by key
(`unionOf`). It is not where two layers hold collections that get mixed.

What is proved holds of every reader of files. Of the files it is assumed that they are read as plain
dictionaries, which all JSON objects are (`Value.IsJson.plain`).
-/

namespace LooseData

namespace Value

/-! ## Values that documents hold, as sources of a merge -/

theorem IsJson.plain {v : Value} (h : v.IsJson) : v.Plain := by
  induction h with
  | list _ ih => exact .node trivial ih
  | dict hdistinct hkeys _ ih => exact .node ⟨hdistinct, hkeys⟩ ih
  | _ => exact .atom _

theorem Plain.ordinary {v : Value} (h : v.Plain) : v.Ordinary := by
  induction h with
  | atom a => exact .atom a
  | @node n hn _ ih =>
      refine .node ?_ ih
      rcases hn.dict_or_list with ⟨entries, rfl⟩ | ⟨items, rfl⟩
      · refine ⟨hn.1, fun e he => ?_⟩
        obtain ⟨s, hs⟩ := hn.2 e he
        rw [hs]
        trivial
      · trivial

theorem Plain.not_hasCaseless {v : Value} (h : v.Plain) : ¬ v.HasCaseless := by
  intro hcaseless
  induction hcaseless with
  | here hn =>
      obtain ⟨m, rfl⟩ := hn
      cases h with
      | node hn _ => exact hn
  | inside hv _ ih =>
      cases h with
      | node _ hchildren => exact ih (hchildren _ hv)

/-- A dictionary over a dictionary is neither refused nor replaced. -/
theorem laidOver_dict_eq_overlaidBy (d e : Table Value) :
    laidOver (.dict e) (.dict d) = overlaidBy (.dict d) (.dict e) := rfl

/-- A plain dictionary laid over another one gives a plain dictionary. -/
theorem exists_overlaidBy_dict {d e : Table Value} (hd : (Value.dict d).Plain)
    (he : (Value.dict e).Plain) :
    ∃ d', overlaidBy (.dict d) (.dict e) = .dict d' ∧ (Value.dict d').Plain := by
  have hplain : (overlaidBy (.dict d) (.dict e)).Plain := he.laidOver (.dict d) hd
  rw [overlaidBy_dict_dict] at hplain ⊢
  exact ⟨_, rfl, hplain⟩

theorem overlaidBy_empty (d : Table Value) : overlaidBy (.dict d) (.dict []) = .dict d := by
  rw [overlaidBy_dict_dict]
  simp [Table.get?]

end Value

namespace Config

open Value

variable {reader : Reader}

/-- The layers laid over a configuration, the lowest first. -/
def stacked (lowest : Table Value) (uppers : List (Table Value)) : Value :=
  uppers.foldl (fun lower upper => lower.overlaidBy (.dict upper)) (.dict lowest)

/-- The layers and a configuration united key by key, the lowest layer first. -/
def unionOf (lowest : Table Value) (uppers : List (Table Value)) : Value :=
  uppers.foldl (fun lower upper => lower.unitedWith (.dict upper)) (.dict lowest)

theorem stacked_concat (lowest : Table Value) (front : List (Table Value)) (e : Table Value) :
    stacked lowest (front ++ [e]) = (stacked lowest front).overlaidBy (.dict e) :=
  List.foldl_concat _ _ _ _

theorem unionOf_concat (lowest : Table Value) (front : List (Table Value)) (e : Table Value) :
    unionOf lowest (front ++ [e]) = (unionOf lowest front).unitedWith (.dict e) :=
  List.foldl_concat _ _ _ _

theorem exists_stacked {lowest : Table Value} {uppers : List (Table Value)}
    (hlowest : (Value.dict lowest).Plain) (huppers : ∀ e ∈ uppers, (Value.dict e).Plain) :
    ∃ d, stacked lowest uppers = .dict d ∧ (Value.dict d).Plain := by
  refine List.foldlRecOn (motive := fun v => ∃ d, v = Value.dict d ∧ (Value.dict d).Plain) uppers _
    ⟨lowest, rfl, hlowest⟩ ?_
  rintro _ ⟨d, rfl, hd⟩ e he
  exact exists_overlaidBy_dict hd (huppers e he)

/-- **The step of an upper layer.** It holds its own under each path on which the layers below give
way, and the outcome is the union exactly if they give way under every path. -/
theorem stacked_concat_holds {lowest : Table Value} {front : List (Table Value)} {e : Table Value}
    (hlowest : (Value.dict lowest).Plain) (hfront : ∀ e ∈ front, (Value.dict e).Plain)
    (he : (Value.dict e).Plain) :
    (∀ path value, (Value.dict e).below? path = some value →
      (∀ current, (stacked lowest front).below? path = some current → ¬ BothDicts current value) →
      (∀ start, start <+: path → (stacked lowest front).GivesWay (.dict e) start) →
      (stacked lowest (front ++ [e])).below? path = some value) ∧
    (stacked lowest (front ++ [e]) = (stacked lowest front).unitedWith (.dict e) ↔
      ∀ path, (stacked lowest front).GivesWay (.dict e) path) := by
  rw [stacked_concat]
  obtain ⟨d, hd, hplain⟩ := exists_stacked hlowest hfront
  rw [hd, ← laidOver_dict_eq_overlaidBy]
  exact ⟨fun _ _ => below?_laidOver, laidOver_eq_unitedWith_iff hplain he⟩

/-- **The run over the layers.** -/
theorem stacked_eq_unionOf {lowest : Table Value} {uppers : List (Table Value)}
    (hlowest : (Value.dict lowest).Plain) (huppers : ∀ e ∈ uppers, (Value.dict e).Plain)
    (hgives : ∀ front e back, uppers = front ++ e :: back → ∀ path,
      (stacked lowest front).GivesWay (.dict e) path) :
    stacked lowest uppers = unionOf lowest uppers := by
  induction uppers using List.reverseRecOn with
  | nil => rfl
  | append_singleton front e ih =>
      have hfront : ∀ e ∈ front, (Value.dict e).Plain :=
        fun e he => huppers e (List.mem_append_left _ he)
      have hunion := ih hfront fun first e' back hsplit =>
        hgives first e' (back ++ [e]) (by rw [hsplit]; simp)
      rw [unionOf_concat, ← hunion]
      exact (stacked_concat_holds hlowest hfront (huppers e (by simp))).2.mpr (hgives front e [] rfl)

/-- A key of one of the layers stands in the way with a fault. -/
def Obstructed [Memory] (layers : List (Table Value)) (fault : Fault) : Prop :=
  ∃ e ∈ layers, ∃ key, (Value.dict e).HasKey key ∧ key.Obstructs False fault

theorem Obstructed.mono [Memory] {layers layers' : List (Table Value)} {fault : Fault}
    (h : Obstructed layers fault) (hsub : ∀ e ∈ layers, e ∈ layers') : Obstructed layers' fault := by
  obtain ⟨e, he, hkey⟩ := h
  exact ⟨e, hsub e he, hkey⟩

/-- The file of a layer is read as a plain dictionary with the given entries. -/
structure FoundAs (reader : Reader) (s : Surroundings) (layer : Layer) (entries : Table Value) :
    Prop where
  load : load reader layer.path (s.look layer.path) = .ok (some entries)
  plain : (Value.dict entries).Plain

theorem exists_file_of_load {path : FilePath} {entry : FileEntry} {entries : Table Value}
    (h : load reader path entry = .ok (some entries)) :
    ∃ text, entry = .file text ∧ reader text = .ok (some (.dict entries)) := by
  cases entry with
  | file text =>
      obtain ⟨v, hread, h⟩ := Except.bind_eq_ok_iff.mp h
      split at h
      · cases h
        exact ⟨text, rfl, hread⟩
      · cases h
      · cases h
      · cases h
  | _ => cases h

/-- What is done with the entries of a file that has been read. -/
theorem result_loaded_bind {β : Type} {path : FilePath} {entry : FileEntry}
    {entries : Option (Table Value)} (h : load reader path entry = .ok entries)
    (f : Option (Table Value) → Logged β) :
    ((liftM (load reader path entry) : Logged _) >>= f).result = (f entries).result := by
  rw [h]
  exact Logged.result_bind _ _

namespace Layered

variable {l : Layered} {d e : Table Value}

/-- The step of a layer: it is laid over the layers below it, or one of its keys stands in the
way. -/
theorem add_ok_or_obstructed [Memory] (hmerged : l.merged = .dict d) (hd : (Value.dict d).Plain)
    (he : (Value.dict e).Plain) (layer : Layer) :
    (∃ l', (l.add layer e).result = .ok l' ∧
        l'.merged = (Value.dict d).overlaidBy (.dict e)) ∨
      ∃ fault, (l.add layer e).result = .error fault ∧ Obstructed [e] fault := by
  rw [add, hmerged]
  have hsources : ∀ v ∈ [Value.dict e], v.Ordinary := List.forall_mem_singleton.mpr he.ordinary
  rcases exists_merge_or_obstructed (d := d) hsources with
    ⟨v, hv⟩ | ⟨fault, hfault, source, hsource, key, hkey, hobstructs⟩
  · refine .inl ⟨_, Logged.bind_eq_ok_iff.mpr ⟨v, hv, rfl⟩, ?_⟩
    exact (merge_result_eq hd he rfl rfl hv).2
  · obtain rfl := List.mem_singleton.mp hsource
    refine .inr ⟨fault, Logged.bind_eq_error_iff.mpr (.inl hfault), e, List.mem_singleton_self e,
      key, hkey, hobstructs.mono ?_⟩
    rintro ⟨v, hv, hcaseless⟩
    rcases List.mem_cons.mp hv with rfl | hv
    · exact hd.not_hasCaseless hcaseless
    · obtain rfl := List.mem_singleton.mp hv
      exact he.not_hasCaseless hcaseless

/-- The step of a layer that is found in a file. One without entries changes nothing. -/
theorem addOptional_ok_or_obstructed [Memory] {s : Surroundings} {layer : Layer}
    (hfound : FoundAs reader s layer e) (hmerged : l.merged = .dict d)
    (hd : (Value.dict d).Plain) :
    (∃ l', (addOptional reader s l layer).result = .ok l' ∧
        l'.merged = (Value.dict d).overlaidBy (.dict e)) ∨
      ∃ fault, (addOptional reader s l layer).result = .error fault ∧ Obstructed [e] fault := by
  have hload := hfound.load
  obtain ⟨text, hfile, -⟩ := exists_file_of_load hload
  rw [hfile] at hload
  rw [addOptional, hfile]
  dsimp only
  cases e with
  | nil =>
      rw [overlaidBy_empty]
      exact .inl ⟨l, result_loaded_bind hload _, hmerged⟩
  | cons first rest =>
      rw [result_loaded_bind hload]
      dsimp only
      rw [Logged.debug, Logged.result_write_bind]
      exact add_ok_or_obstructed hmerged hd hfound.plain layer

/-- **The run over the layers**, each of them found in a file. -/
theorem foldlM_ok_or_obstructed [Memory] {s : Surroundings} {above : List Layer}
    {uppers : List (Table Value)}
    (habove : List.Forall₂ (FoundAs reader s) above uppers)
    (hmerged : l.merged = .dict d) (hd : (Value.dict d).Plain) :
    (∃ l', (above.foldlM (addOptional reader s) l).result = .ok l' ∧ l'.merged = stacked d uppers) ∨
      ∃ fault, (above.foldlM (addOptional reader s) l).result = .error fault ∧
        Obstructed uppers fault := by
  induction habove generalizing l d with
  | nil => exact .inl ⟨l, rfl, hmerged⟩
  | @cons layer e above uppers hfound _ ih =>
      rw [List.foldlM_cons]
      rcases addOptional_ok_or_obstructed hfound hmerged hd with
        ⟨l₁, hl₁, hmerged₁⟩ | ⟨fault, hfault, hobstructed⟩
      · obtain ⟨d₁, hd₁, hplain₁⟩ := exists_overlaidBy_dict hd hfound.plain
        have hstacked : stacked d (e :: uppers) = stacked d₁ uppers := by
          rw [stacked, List.foldl_cons, hd₁, stacked]
        rw [hstacked]
        rcases ih (hmerged₁.trans hd₁) hplain₁ with
          ⟨l₂, hl₂, hmerged₂⟩ | ⟨fault, hfault, hobstructed⟩
        · exact .inl ⟨l₂, Logged.bind_eq_ok_iff.mpr ⟨l₁, hl₁, hl₂⟩, hmerged₂⟩
        · exact .inr ⟨fault, Logged.bind_eq_error_iff.mpr (.inr ⟨l₁, hl₁, hfault⟩),
            hobstructed.mono fun _ => List.mem_cons_of_mem e⟩
      · refine .inr ⟨fault, Logged.bind_eq_error_iff.mpr (.inl hfault), hobstructed.mono ?_⟩
        exact fun _ hmem => List.mem_cons.mpr (.inl (List.mem_singleton.mp hmem))

theorem addDefaults_eq [Memory] {path : FilePath} {entry : FileEntry}
    (hload : load reader path entry = .ok (some e)) (he : e ≠ []) :
    (l.addDefaults reader path entry).result = (l.add ⟨"built-in", path⟩ e).result := by
  obtain ⟨text, rfl, -⟩ := exists_file_of_load hload
  have hpresent : (FileEntry.file text).isPresent = true := rfl
  rw [addDefaults, if_pos hpresent, result_loaded_bind hload]
  cases e with
  | nil => exact absurd rfl he
  | cons first rest => rfl

/-- The lowest layer is laid over an empty dictionary. -/
theorem overlaidBy_of_empty (e : Table Value) : overlaidBy (.dict []) (.dict e) = .dict e := by
  rw [overlaidBy_dict_dict]
  simp [Table.has, Table.get?]

/-- **What a configuration of layers consists of**: the layers laid one over the other, unless a key
of one of them stands in the way. -/
theorem ofFiles_ok_or_obstructed [Memory] {s : Surroundings} {defaultsPath : FilePath}
    {defaults : FileEntry} {above : List Layer} {uppers : List (Table Value)}
    (hdefaults : load reader defaultsPath defaults = .ok (some e)) (he : e ≠ [])
    (hplain : (Value.dict e).Plain) (habove : List.Forall₂ (FoundAs reader s) above uppers) :
    (∃ l, (ofFiles reader s defaultsPath defaults above).result = .ok l ∧
        l.merged = stacked e uppers) ∨
      ∃ fault, (ofFiles reader s defaultsPath defaults above).result = .error fault ∧
        Obstructed (e :: uppers) fault := by
  have hempty : (Value.dict []).Plain := .node ⟨.nil, nofun⟩ nofun
  rw [ofFiles]
  rcases add_ok_or_obstructed (l := empty) rfl hempty hplain ⟨"built-in", defaultsPath⟩ with
    ⟨l₁, hl₁, hmerged₁⟩ | ⟨fault, hfault, hobstructed⟩
  · rw [overlaidBy_of_empty] at hmerged₁
    rw [← addDefaults_eq hdefaults he] at hl₁
    rcases foldlM_ok_or_obstructed habove hmerged₁ hplain with
      ⟨l, hl, hmerged⟩ | ⟨fault, hfault, hobstructed⟩
    · exact .inl ⟨l, Logged.bind_eq_ok_iff.mpr ⟨l₁, hl₁, hl⟩, hmerged⟩
    · exact .inr ⟨fault, Logged.bind_eq_error_iff.mpr (.inr ⟨l₁, hl₁, hfault⟩),
        hobstructed.mono fun _ => List.mem_cons_of_mem e⟩
  · rw [← addDefaults_eq hdefaults he] at hfault
    refine .inr ⟨fault, Logged.bind_eq_error_iff.mpr (.inl hfault), hobstructed.mono ?_⟩
    exact fun _ hmem => List.mem_cons.mpr (.inl (List.mem_singleton.mp hmem))

/-- **A configuration is the union of its layers key by key, as far as the layers give way.** Let the
defaults and the layers above them be files that are read as plain dictionaries. Unless a key of a
layer stands in the way of the merges, the configuration consists of the layers laid one over the
other. Of each layer, what it holds under a path is in the configuration of the layers up to it,
exactly as the layer has it, if not both have a dictionary there and the lower layers give way on the
path. Each layer is united with those below it exactly if they give way under every path; if they
do so for each layer, the whole configuration is the union. -/
theorem ofFiles_eq_unionOf [Memory] {s : Surroundings} {defaultsPath : FilePath}
    {defaults : FileEntry} {above : List Layer} {first : Table Value} {uppers : List (Table Value)}
    (hdefaults : load reader defaultsPath defaults = .ok (some first)) (hfirst : first ≠ [])
    (hplain : (Value.dict first).Plain) (habove : List.Forall₂ (FoundAs reader s) above uppers) :
    ((∃ l, (ofFiles reader s defaultsPath defaults above).result = .ok l ∧
        l.merged = stacked first uppers ∧
        ((∀ front e back, uppers = front ++ e :: back → ∀ path,
          (stacked first front).GivesWay (.dict e) path) → l.merged = unionOf first uppers)) ∨
      ∃ fault, (ofFiles reader s defaultsPath defaults above).result = .error fault ∧
        Obstructed (first :: uppers) fault) ∧
    ∀ front e back, uppers = front ++ e :: back →
      (∀ path value, (Value.dict e).below? path = some value →
        (∀ current, (stacked first front).below? path = some current →
          ¬ BothDicts current value) →
        (∀ start, start <+: path → (stacked first front).GivesWay (.dict e) start) →
        (stacked first (front ++ [e])).below? path = some value) ∧
      (stacked first (front ++ [e]) = (stacked first front).unitedWith (.dict e) ↔
        ∀ path, (stacked first front).GivesWay (.dict e) path) := by
  have huppers : ∀ e ∈ uppers, (Value.dict e).Plain := by
    clear hdefaults
    induction habove with
    | nil => exact List.forall_mem_nil _
    | cons hfound _ ih => exact List.forall_mem_cons.mpr ⟨hfound.plain, ih⟩
  constructor
  · refine (ofFiles_ok_or_obstructed hdefaults hfirst hplain habove).imp_left ?_
    rintro ⟨l, hl, hmerged⟩
    exact ⟨l, hl, hmerged,
      fun hgives => hmerged.trans (stacked_eq_unionOf hplain huppers hgives)⟩
  · rintro front e back rfl
    exact stacked_concat_holds hplain (fun e he => huppers e (List.mem_append_left _ he))
      (huppers e (by simp))

/-- The reader of files that are JSON documents. -/
def jsonReader : Reader := fun text => .ok (Json.ofText text).toOption

theorem isJson_of_jsonReader {text : String} {v : Value} (h : jsonReader text = .ok (some v)) :
    v.IsJson := by
  cases hread : Json.ofText text with
  | ok w =>
      rw [jsonReader, hread] at h
      obtain rfl := Option.some.inj (Except.ok.inj h)
      exact Json.isJson_ofTextIn hread
  | error fault =>
      rw [jsonReader, hread] at h
      cases h

/-- Surroundings with a text as the user's configuration. -/
def withUser (text : String) : Surroundings where
  bindings := []
  directory := .absolute []
  installation := .absolute []
  entry path := if path = .absolute ["config.yaml"] then .file text else .directory

/-- The layer of the user's configuration. -/
def userLayer : Layer := ⟨"user", .absolute ["config.yaml"]⟩

/-- Defaults that list two hosts. -/
def listedHosts : FileEntry := .file "\x7b\"hosts\": [\"a\", \"b\"]\x7d"

theorem load_listedHosts : load jsonReader (.absolute ["defaults.yaml"]) listedHosts =
    .ok (some [(.text "hosts", .list [.text "a", .text "b"])]) := by cbv

/-- A JSON document is read as a plain dictionary if it describes an object. -/
theorem plain_of_load {path : FilePath} {entry : FileEntry} {entries : Table Value}
    (h : load jsonReader path entry = .ok (some entries)) : (Value.dict entries).Plain := by
  obtain ⟨text, -, hread⟩ := exists_file_of_load h
  exact (isJson_of_jsonReader hread).plain

section

open scoped Memory

/-- A list of hosts does not take the name of one, so the mapping of the user replaces it. -/
theorem ofFiles_namedHosts :
    ∃ l, (ofFiles jsonReader (withUser "\x7b\"hosts\": \x7b\"c\": 1\x7d\x7d")
        (.absolute ["defaults.yaml"]) listedHosts [userLayer]).result = .ok l ∧
      l.merged.below? ["hosts"] = some (.dict [(.text "c", .int 1)]) := by
  obtain ⟨huser, hends⟩ :
      load jsonReader userLayer.path
        ((withUser "\x7b\"hosts\": \x7b\"c\": 1\x7d\x7d").look userLayer.path) =
          .ok (some [(.text "hosts", .dict [(.text "c", .int 1)])]) ∧
      ((ofFiles jsonReader (withUser "\x7b\"hosts\": \x7b\"c\": 1\x7d\x7d")
        (.absolute ["defaults.yaml"]) listedHosts [userLayer]).result.map fun _ => ()) = .ok () := by
    constructor
    · cbv
    · cbv
  obtain ⟨hresult, hsteps⟩ := ofFiles_eq_unionOf load_listedHosts (List.cons_ne_nil _ _)
    (plain_of_load load_listedHosts) (.cons ⟨huser, plain_of_load huser⟩ .nil)
  rcases hresult with ⟨l, hl, hmerged, -⟩ | ⟨fault, hfault, -⟩
  · refine ⟨l, hl, hmerged ▸ (hsteps [] _ [] rfl).1 ["hosts"] _ rfl ?_ fun start hstart => ?_⟩
    · rintro _ ⟨⟩ ⟨d, e, hd, -⟩
      cases hd
    · rcases List.prefix_cons_iff.mp hstart with rfl | ⟨rest, rfl, hrest⟩
      · rintro _ _ ⟨⟩ ⟨⟩ hmix
        exact absurd ⟨_, _, rfl, rfl⟩ hmix.1
      · obtain rfl := List.prefix_nil.mp hrest
        rintro _ _ ⟨⟩ ⟨⟩ hmix
        cases hmix.2
  · rw [hfault] at hends
    cases hends

/-- Two lists of hosts that get mixed: the layers above do not hold their own. -/
theorem exists_ofFiles_mixed :
    ¬ ∀ (reader : Reader) (s : Surroundings) (defaultsPath : FilePath) (defaults : FileEntry)
        (above : List Layer) (first : Table Value) (uppers : List (Table Value)),
        load reader defaultsPath defaults = .ok (some first) → first ≠ [] →
        (Value.dict first).Plain → List.Forall₂ (FoundAs reader s) above uppers →
        ∃ l, (ofFiles reader s defaultsPath defaults above).result = .ok l ∧
          ∀ front e path value, uppers = front ++ [e] →
            (Value.dict e).below? path = some value →
            (∀ current, (unionOf first front).below? path = some current →
              ¬ BothDicts current value) →
            l.merged.below? path = some value := by
  have huser : load jsonReader userLayer.path
      ((withUser "\x7b\"hosts\": [\"c\"]\x7d").look userLayer.path) =
        .ok (some [(.text "hosts", .list [.text "c"])]) := by cbv
  have habove : List.Forall₂ (FoundAs jsonReader (withUser "\x7b\"hosts\": [\"c\"]\x7d"))
      [userLayer] _ := .cons ⟨huser, plain_of_load huser⟩ .nil
  have hplain := plain_of_load load_listedHosts
  intro h
  obtain ⟨l, hl, hlayers⟩ := h _ _ _ _ _ _ _ load_listedHosts (List.cons_ne_nil _ _) hplain habove
  have hown := hlayers [] [(.text "hosts", .list [.text "c"])] ["hosts"] (.list [.text "c"]) rfl rfl
    (by rintro _ ⟨⟩ ⟨d, e, hd, -⟩; cases hd)
  rcases ofFiles_ok_or_obstructed load_listedHosts (List.cons_ne_nil _ _) hplain habove with
    ⟨l', hl', hmerged⟩ | ⟨fault, hfault, -⟩
  · obtain rfl := Except.ok.inj (hl.symm.trans hl')
    rw [hmerged] at hown
    cases hown
  · cases hl.symm.trans hfault

end

end Layered

end Config

end LooseData
