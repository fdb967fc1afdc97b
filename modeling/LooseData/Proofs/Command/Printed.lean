import LooseData.Command.Run
import LooseData.Proofs.Json.RoundTrip
import LooseData.Proofs.Tag.Depth

set_option autoImplicit false

/-! # What is printed as JSON

The value that a request finds in JSON data has a form in JSON itself, or is a method of a number
(`Request.Finds.orMethod`): so it is with whatever the handlers of the library make of such data.
Where it has one, the reader gives it back from what is printed.

There are three exceptions. An infinity or a NaN comes from a payload that is no number, or from a
numeral that is too large; the writer has names for them, and the reader refuses these. Surrogates that
stand next to each other are read as the character that they make up. And a method is printed as the
text that shows it (`Ending.ShowsJson.ofText_output`).

The libraries are any that put a text without escape characters onto the output as it is. The data
that they read from files and the collection `world` of the settings have a form in JSON.
-/

namespace LooseData

namespace Command

variable {l : Libraries} {s : Surroundings} {settings : Settings} {request : Request} {v : Value}

/-! ## What a request finds -/

/-- A request for a value finds it. -/
inductive Request.Finds (l : Libraries) (s : Surroundings) (settings : Settings) (v : Value) :
    Request → Prop where
  | parse {text : String} {config state : Option FilePath} {format : Format}
      {configValue stateValue : Value}
      (hconfig : valueOr l s config (.dict settings.world) = .ok configValue)
      (hstate : valueOr l s state .null = .ok stateValue)
      (h : (evaluate settings configValue stateValue text).result = .ok v) :
      Finds l s settings v (.parse text config state format)
  | resolve {path : String} {file : Option FilePath} {format : Format} {data : Value}
      (hdata : valueOr l s file (.dict settings.world) = .ok data)
      (h : (data.resolve (.text path)).result = .ok v) :
      Finds l s settings v (.resolve path file format)

/-- The data files of a request. -/
def Request.files : Request → List FilePath
  | .parse _ config state _ => config.toList ++ state.toList
  | .resolve _ file _ => file.toList
  | .showConfig .. => []

/-- The files hold data that have a form in JSON, as far as they can be read. -/
def HoldJson (l : Libraries) (s : Surroundings) (files : List FilePath) : Prop :=
  ∀ path ∈ files, ∀ v, dataIn l s path = .ok v → v.IsJson

theorem isJson_valueOr {file : Option FilePath} {other : Value}
    (hfiles : HoldJson l s file.toList) (hother : other.IsJson)
    (h : valueOr l s file other = .ok v) : v.IsJson := by
  cases file with
  | none =>
      obtain rfl := Except.ok.inj h
      exact hother
  | some path => exact hfiles path List.mem_cons_self v h

/-- What a text stands for has a form in JSON, or is a method, if the configuration and the state
have such a form. -/
theorem orMethod_evaluate {config state : Value} (hconfig : config.IsJson) (hstate : state.IsJson)
    {text : String} (h : (evaluate settings config state text).result = .ok v) :
    v.OrMethod Value.IsJson := by
  obtain ⟨p, hmake, -, hstate, hconfig⟩ :=
    Tag.Parser.exists_make Json.hereditary_isJson hstate hconfig settings.parsing.maxDepth
  obtain ⟨p', hmake', h⟩ := Logged.bind_eq_ok_iff.mp h
  obtain rfl : p = p' := Except.ok.inj (hmake.symm.trans hmake')
  -- The limit on the depth decides whether there is a value, but not which one.
  exact Tag.Parser.rightFold_hereditary Json.hereditary_isJson hconfig (.inl hstate)
    (Tag.Parser.rightFold_of_evaluateFrom Tag.Registry.reachable_standard.coherent h)

theorem Request.Finds.orMethod (hworld : (Value.dict settings.world).IsJson)
    (hfiles : HoldJson l s request.files) (h : request.Finds l s settings v) :
    v.OrMethod Value.IsJson := by
  cases h with
  | parse hconfig hstate h =>
      obtain ⟨hfirst, hsecond⟩ := List.forall_mem_append.mp hfiles
      exact orMethod_evaluate (isJson_valueOr hfirst hworld hconfig)
        (isJson_valueOr hsecond .null hstate) h
  | resolve hdata h =>
      exact Path.resolve_hereditary Json.hereditary_isJson
        (.inl (isJson_valueOr hfiles hworld hdata)) h

/-! ## Endings -/

/-- A run ends with what is written for a value in JSON. -/
def Ending.ShowsJson (ending : Ending) (v : Value) : Prop :=
  ∃ s, Json.write v = .ok s ∧ ending = .answered (s ++ "\n") ""

theorem showsJson_answerWith (h : (answerWith l .json v).exitCode = 0) :
    (answerWith l .json v).ShowsJson v := by
  unfold answerWith at h ⊢
  cases hwrite : Format.json.write l v with
  | ok s => exact ⟨s, hwrite, rfl⟩
  | error fault =>
      rw [hwrite] at h
      cases h

/-- A text is put onto the output as it is, if it holds no escape character. -/
def Libraries.Echoes (l : Libraries) : Prop := ∀ s : String, '\x1b' ∉ s.toList → l.echo s = s

/-- What is printed is read as the value with pairs of surrogates joined, or refused for the first
infinity or NaN in it. -/
theorem Ending.ShowsJson.ofText_output {ending : Ending} (h : ending.ShowsJson v) (hecho : l.Echoes)
    (hv : v.IsJson) :
    Json.ofText (l.output ending) = match Json.refusal? v.nonFinite with
      | none => .ok v.rejoined
      | some fault => .error fault := by
  obtain ⟨s, hwrite, rfl⟩ := h
  have hprinted := Json.printed_of_write hv hwrite
  have houtput : l.output (.answered (s ++ "\n") "") = s ++ "\n" := by
    refine hecho _ fun hescape => ?_
    have hmark : ¬ (Json.IsPlain '\x1b' ∨ '\x1b' = '\n') := by decide
    exact hmark (hprinted _ hescape)
  rw [houtput]
  exact Json.ofText_of_write hv hwrite

/-- A method is printed as the text that shows it. -/
theorem Ending.ShowsJson.of_method {ending : Ending} {m : Method}
    (h : ending.ShowsJson (.method m)) : ending.ShowsJson (.text (Value.method m).shown) := by
  obtain ⟨s, hwrite, rfl⟩ := h
  refine ⟨s, ?_, rfl⟩
  rw [← hwrite, Json.write, Json.write, Value.text, Value.method, Json.written_draft_atom,
    Json.written_draft_atom]
  rfl

/-! ## Answers -/

/-- A request for a value in JSON. -/
def Request.AsksJson : Request → Prop
  | .parse _ _ _ format | .resolve _ _ format => format = .json
  | .showConfig .. => False

theorem exitCode_of_valueOr {file : Option FilePath} {other : Value} {ending : Ending}
    (h : valueOr l s file other = .error ending) : ending.exitCode = 1 := by
  cases file with
  | none => cases h
  | some path =>
      unfold valueOr dataIn at h
      dsimp only at h
      split at h
      · split at h
        · cases h
        · obtain rfl := Except.error.inj h
          rfl
        · obtain rfl := Except.error.inj h
          rfl
      · obtain rfl := Except.error.inj h
        rfl

/-- A request for a value that has no answer is refused or fails. -/
theorem Request.exitCode_of_answer (hrequest : request.AsksJson) {ending : Ending}
    (h : request.answer l s settings = .error ending) : ending.exitCode = 1 := by
  cases request with
  | parse text config state format =>
      rcases Except.bind_eq_error_iff.mp h with h | ⟨_, -, h⟩
      · exact exitCode_of_valueOr h
      · rcases Except.bind_eq_error_iff.mp h with h | ⟨_, -, h⟩
        · exact exitCode_of_valueOr h
        · cases h
  | resolve path file format =>
      rcases Except.bind_eq_error_iff.mp h with h | ⟨_, -, h⟩
      · exact exitCode_of_valueOr h
      · cases h
  | showConfig place format => exact hrequest.elim

/-- An answer to a request for a value shows the value that is found. -/
theorem Request.exists_finds_of_answer (hrequest : request.AsksJson) {answer : Answer}
    (h : request.answer l s settings = .ok answer) (hok : answer.ending.exitCode = 0) :
    ∃ v, request.Finds l s settings v ∧ answer.ending.ShowsJson v := by
  cases request with
  | parse text config state format =>
      obtain rfl : format = .json := hrequest
      obtain ⟨configValue, hconfig, h⟩ := Except.bind_eq_ok_iff.mp h
      obtain ⟨stateValue, hstate, h⟩ := Except.bind_eq_ok_iff.mp h
      obtain rfl := Except.ok.inj h
      cases hresult : (evaluate settings configValue stateValue text).result with
      | ok v =>
          rw [Answer.of, hresult] at hok ⊢
          exact ⟨v, .parse hconfig hstate hresult, showsJson_answerWith hok⟩
      | error fault =>
          rw [Answer.of, hresult] at hok
          dsimp only [endingOfParse] at hok
          split at hok <;> cases hok
  | resolve path file format =>
      obtain rfl : format = .json := hrequest
      obtain ⟨data, hdata, h⟩ := Except.bind_eq_ok_iff.mp h
      obtain rfl := Except.ok.inj h
      cases hresult : (data.resolve (.text path)).result with
      | ok v =>
          rw [Answer.of, hresult] at hok ⊢
          exact ⟨v, .resolve hdata hresult, showsJson_answerWith hok⟩
      | error fault =>
          rw [Answer.of, hresult] at hok
          cases hok
  | showConfig place format => exact hrequest.elim

/-! ## Runs -/

section

variable {arguments : List String} {asked : Invocation}

/-- A run that comes to a request ends with the answer to it, with the reason for none, or with the
fault of its level. -/
theorem ending_run [Memory] (hasked : Invocation.read l s arguments = .ok asked)
    (hsettings : (Settings.load l.reader l.maker s []).result = .ok settings)
    (hrequest : asked.verb.read l s asked.arguments = .ok request) :
    (∃ fault, (run l s arguments).ending = .failed fault) ∨
      request.answer l s settings = .error (run l s arguments).ending ∨
      ∃ answer, request.answer l s settings = .ok answer ∧
        (run l s arguments).ending = answer.ending := by
  have hanswer : answerWhenRead l s settings asked = request.answer l s settings := by
    rw [answerWhenRead, hrequest]
    rfl
  unfold run
  rw [hasked]
  dsimp only
  rw [hsettings]
  dsimp only
  cases Logger.configure (asked.levelIn settings) with
  | error fault => exact .inl ⟨fault, rfl⟩
  | ok logger =>
      dsimp only
      rw [hanswer]
      cases request.answer l s settings with
      | error ending => exact .inr (.inl rfl)
      | ok answer => exact .inr (.inr ⟨answer, rfl, rfl⟩)

/-- **What is printed in JSON is read as the value that is found**, exactly if this is no method and
holds neither an infinity nor a NaN nor two surrogates next to each other. Let a run come to a request
for a value in JSON, among data that have a form in JSON, and let it succeed. Then the request finds a
value. If all numbers in it are finite, the reader of the library gives it back from what is printed
with pairs of surrogates joined. Otherwise the reader refuses what is printed for the first number
that is not finite, and names it. A method is read as a text. -/
theorem ofText_output_of_run [Memory] (hecho : l.Echoes)
    (hasked : Invocation.read l s arguments = .ok asked)
    (hsettings : (Settings.load l.reader l.maker s []).result = .ok settings)
    (hworld : (Value.dict settings.world).IsJson)
    (hrequest : asked.verb.read l s asked.arguments = .ok request)
    (hfiles : HoldJson l s request.files) (hjson : request.AsksJson)
    (hok : (run l s arguments).ending.exitCode = 0) :
    ∃ v, request.Finds l s settings v ∧
      (Json.ofText (l.output (run l s arguments).ending) = .ok v ↔
        v.IsJson ∧ v.nonFinite = [] ∧ v.rejoined = v) ∧
      (v.IsJson → v.nonFinite = [] →
        Json.ofText (l.output (run l s arguments).ending) = .ok v.rejoined) ∧
      (∀ d ds, v.nonFinite = d :: ds → Json.ofText (l.output (run l s arguments).ending) =
        .error (.json (.after (.constant (NumberForm.json.write d)) []))) ∧
      (v.IsJson ∨ ∃ m, v = .method m ∧
        ∃ t, Json.ofText (l.output (run l s arguments).ending) = .ok (.text t)) := by
  rcases ending_run hasked hsettings hrequest with
    ⟨fault, hfailed⟩ | hanswer | ⟨answer, hanswer, hending⟩
  · rw [hfailed] at hok
    cases hok
  · rw [Request.exitCode_of_answer hjson hanswer] at hok
    cases hok
  · rw [hending] at hok ⊢
    obtain ⟨v, hfinds, hshows⟩ := Request.exists_finds_of_answer hjson hanswer hok
    refine ⟨v, hfinds, ?_⟩
    rcases hfinds.orMethod hworld hfiles with hv | ⟨m, rfl⟩
    · rw [hshows.ofText_output hecho hv]
      cases v.nonFinite with
      | nil =>
          refine ⟨⟨fun h => ⟨hv, rfl, Except.ok.inj h⟩, fun h => congrArg Except.ok h.2.2⟩,
            fun _ _ => rfl, nofun, .inl hv⟩
      | cons d ds =>
          refine ⟨⟨nofun, fun h => nomatch h.2.1⟩, nofun, ?_, .inl hv⟩
          rintro _ _ ⟨⟩
          rfl
    · have hread := hshows.of_method.ofText_output hecho (.text _)
      have hmethod : ¬ (Value.method m).IsJson := nofun
      refine ⟨⟨fun h => ?_, fun h => absurd h.1 hmethod⟩, fun h => absurd h hmethod, nofun,
        .inr ⟨m, rfl, _, hread⟩⟩
      cases hread.symm.trans h

end

/-! ## Two runs -/

/-- Libraries for JSON documents, for settings that are all left at their defaults, and for
commands that are asked to write in JSON. -/
def jsonLibraries : Libraries where
  reader text := .ok (Json.ofText text).toOption
  writeDocument v := (Json.write v).toOption.getD ""
  maker _ := .ok {}
  listed _ := []
  layOut v := v.shown
  echo s := s
  readGroup g _ arguments :=
    match arguments with
    | [] => .error (.settled 2 "" "")
    | word :: rest => match g.commands.lookup word with
      | some command => .ok (⟨[], ""⟩, command, rest)
      | none => .error (.settled 2 "" "")
  readForm _ _ arguments :=
    match arguments with
    | ["--json", argument] => .ok ⟨[("--json", "")], argument⟩
    | _ => .error (.settled 2 "" "")

theorem echoes_jsonLibraries : jsonLibraries.Echoes := fun _ _ => rfl

/-- Surroundings without variables and without files but the defaults. -/
def bare : Surroundings where
  bindings := []
  directory := .absolute []
  installation := .absolute []
  entry path :=
    if path = .absolute ["defaults", "config.yaml"] then .file "\x7b\"version\": 1\x7d"
    else if path = .absolute [] ∨ path = .absolute ["defaults"] then .directory
    else .missing

section

open scoped Memory

theorem load_bare :
    (Settings.load jsonLibraries.reader jsonLibraries.maker bare []).result = .ok {} := by
  -- Settings hold values, which cannot be compared, so it is only decided that the files are read.
  have hfiles : (Settings.fromFiles jsonLibraries.reader bare).result.isOk = true := by
    decide +kernel
  rw [Settings.load, Logged.result_bind]
  cases h : (Settings.fromFiles jsonLibraries.reader bare).result with
  | ok entries => rfl
  | error fault =>
      rw [h] at hfiles
      cases hfiles

/-- A list is found, printed and read again. -/
theorem ofText_output_of_run_list :
    Request.Finds jsonLibraries bare {} (.list [.int 1, .text "a"])
        (.parse "json:[1,\"a\"]" none none .json) ∧
      Json.ofText (jsonLibraries.output
        (run jsonLibraries bare ["parse", "--json", "json:[1,\"a\"]"]).ending) =
        .ok (.list [.int 1, .text "a"]) := by
  have hasked : Invocation.read jsonLibraries bare ["parse", "--json", "json:[1,\"a\"]"] =
      .ok ⟨none, .parse, ["--json", "json:[1,\"a\"]"]⟩ := by cbv
  have hrequest : Verb.parse.read jsonLibraries bare ["--json", "json:[1,\"a\"]"] =
      .ok (.parse "json:[1,\"a\"]" none none .json) := by cbv
  have hlist : (evaluate {} (.dict []) .null "json:[1,\"a\"]").result =
      .ok (.list [.int 1, .text "a"]) := by cbv
  have hjson : (Value.list [.int 1, .text "a"]).IsJson := .list (by
    rw [List.forall_mem_cons, List.forall_mem_singleton]
    exact ⟨.int 1, .text "a"⟩)
  obtain ⟨v, hfinds, hiff, -⟩ :=
    ofText_output_of_run echoes_jsonLibraries hasked load_bare .emptyDict hrequest
      (List.forall_mem_nil _) rfl (by decide +kernel)
  have hsame : v = .list [.int 1, .text "a"] := by
    cases hfinds with
    | parse hconfig hstate h =>
        obtain rfl := Except.ok.inj hconfig
        obtain rfl := Except.ok.inj hstate
        exact Except.ok.inj (h.symm.trans hlist)
  subst hsame
  exact ⟨hfinds, hiff.mpr ⟨hjson, rfl, rfl⟩⟩

/-- An infinity is printed under a name that the reader refuses. -/
theorem exists_run_unreadable :
    ¬ ∀ (l : Libraries) (s : Surroundings) (arguments : List String) (asked : Invocation)
        (settings : Settings) (request : Request), l.Echoes →
        Invocation.read l s arguments = .ok asked →
        (Settings.load l.reader l.maker s []).result = .ok settings →
        (Value.dict settings.world).IsJson →
        asked.verb.read l s asked.arguments = .ok request →
        HoldJson l s request.files → request.AsksJson →
        (run l s arguments).ending.exitCode = 0 →
        ∃ v, request.Finds l s settings v ∧
          Json.ofText (l.output (run l s arguments).ending) = .ok v := by
  intro h
  have hending : (run jsonLibraries bare ["parse", "--json", "int:Infinity"]).ending =
      .answered "Infinity\n" "" := by decide +kernel
  have hread : Json.ofText (jsonLibraries.output (.answered "Infinity\n" "")) =
      .error (.json (.after (.constant "Infinity") [])) := by cbv
  obtain ⟨v, -, hv⟩ := h jsonLibraries bare ["parse", "--json", "int:Infinity"]
    ⟨none, .parse, ["--json", "int:Infinity"]⟩ {} (.parse "int:Infinity" none none .json)
    echoes_jsonLibraries (by cbv) load_bare .emptyDict (by cbv) (List.forall_mem_nil _) rfl
    (by rw [hending]; rfl)
  rw [hending, hread] at hv
  cases hv

end

end Command

end LooseData
