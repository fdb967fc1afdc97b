import LooseData.Command.Run
import LooseData.Proofs.Layer.Index
import LooseData.Proofs.Path.Moves
import LooseData.Proofs.Tag.Unhandled

set_option autoImplicit false

/-! # What the handlers of the library refuse

In data every payload is data or a method of a number: texts are data, and a handler of the library
makes nothing else of these (`Builtin.apply_hereditary`). So it can be said for each handler which
payloads it refuses and with which fault (`Builtin.apply_eq_error_iff`), and a text is refused
exactly for the innermost tag whose handler refuses its payload
(`Tag.Parser.evaluate_eq_error_iff`).
-/

namespace LooseData

open Tag

namespace Tag.Registry

/-- The handler of the library for a tag, regardless of letter case. -/
def builtin? (tag : String) : Option Builtin :=
  (builtins.find? fun e => (Label.text e.1).fold == (Label.text tag).fold).map Prod.snd

theorem entries_standard : standard.handlers.entries =
    builtins.map fun e => (.text e.1, .atom (.function (.builtin e.2))) := rfl

theorem handler?_standard (functions : Functions) (tag : String) :
    standard.handler? functions tag = (builtin? tag).map Builtin.apply := by
  have hheld : standard.held tag =
      (builtin? tag).map fun b => .atom (.function (.builtin b)) := by
    rw [held, CaselessMap.scan, entries_standard, builtin?, List.find?_map, Option.map_map,
      Option.map_map]
    rfl
  rw [handler?, hheld]
  cases builtin? tag <;> rfl

end Tag.Registry

/-! ## One handler -/

namespace Builtin

/-- Whether a handler decodes JSON. -/
def decodes : Builtin → Bool
  | .array | .json => true
  | _ => false

/-- The handler refuses a payload with a fault. -/
inductive Refuses (config state : Value) : Builtin → Value → Fault → Prop where
  /-- A text that is to be decoded is no document. -/
  | noDocument {b : Builtin} {s : String} {fault : Fault} (hb : b.decodes = true)
      (h : Json.ofText s = .error fault) : Refuses config state b (.text s) fault
  /-- What is to be decoded is neither a text nor decoded already. -/
  | noText {b : Builtin} {payload : Value} (hb : b.decodes = true)
      (hcollection : payload.isCollection = false) (htext : ∀ s, payload ≠ .text s) :
      Refuses config state b payload .notJsonText
  /-- What is to be searched for a word shows a number that is too long to be written. -/
  | tooLong {payload : Value} (h : payload.tooLong = true) :
      Refuses config state .bool payload .integerTooLong
  | config {path : Value} {fault : Fault} (h : Path.StopsAt config path fault) :
      Refuses config state .config path fault
  | state {path : Value} {fault : Fault} (hstate : state.isNull = false)
      (h : Path.StopsAt state path fault) : Refuses config state .state path fault

variable {config state : Value} {context : Context} {fault : Fault}

/-- A malformed document is refused by the decoding handlers only, and as a text. -/
theorem Refuses.of_json {payload : Value} {b : Builtin} {failure : Json.Failure}
    (h : b.Refuses config state payload (.json failure)) :
    b.decodes = true ∧ ∃ s, payload = .text s ∧ Json.ofText s = .error (.json failure) := by
  have hlookup {collection : Value} (h : Path.StopsAt collection payload (.json failure)) :
      False := by
    obtain ⟨_, key, _, _, -, -, -, hkey⟩ := h
    rcases fault_of_numeral? hkey with h | ⟨_, h⟩ <;> cases h
  cases h with
  | noDocument hb h => exact ⟨hb, _, rfl, h⟩
  | config h => exact (hlookup h).elim
  | state _ h => exact (hlookup h).elim

/-- The command reports every fault of the handlers except that of a payload that cannot be decoded
because it is no text. -/
theorem Refuses.isRefused_eq_false_iff {payload : Value} {b : Builtin}
    (h : b.Refuses config state payload fault) :
    Command.isRefused fault = false ↔ fault = .notJsonText := by
  have hnumeral {key : String} (h : numeral? key = .error fault) :
      Command.isRefused fault = false ↔ fault = .notJsonText := by
    rcases fault_of_numeral? h with rfl | ⟨_, rfl⟩ <;> exact ⟨nofun, nofun⟩
  cases h with
  | noDocument _ h =>
      rcases Json.fault_of_ofText h with ⟨_, rfl⟩ | ⟨_, rfl⟩ <;> exact ⟨nofun, nofun⟩
  | noText _ _ _ => exact ⟨fun _ => rfl, fun _ => rfl⟩
  | tooLong _ => exact ⟨nofun, nofun⟩
  | config h =>
      obtain ⟨_, _, _, _, -, -, -, hkey⟩ := h
      exact hnumeral hkey
  | state _ h =>
      obtain ⟨_, _, _, _, -, -, -, hkey⟩ := h
      exact hnumeral hkey

theorem decodePayload_eq_error_iff {b : Builtin} (hb : b.decodes = true) {v : Value}
    (hv : v.OrMethod Value.IsData) :
    decodePayload v = .error fault ↔ b.Refuses config state v fault := by
  constructor
  · intro h
    rcases hv with hv | ⟨m, rfl⟩
    · cases hv with
      | text s => exact .noDocument hb h
      | list _ => cases h
      | dict _ => cases h
      | _ =>
          obtain rfl := Except.error.inj h
          exact .noText hb rfl nofun
    · obtain rfl := Except.error.inj h
      exact .noText hb rfl nofun
  · intro h
    cases h with
    | noDocument _ h => exact h
    | noText _ hcollection htext =>
        rcases hv with hv | ⟨m, rfl⟩
        · cases hv with
          | text s => exact absurd rfl (htext s)
          | list _ => cases hcollection
          | dict _ => cases hcollection
          | _ => rfl
        · rfl
    | _ => cases hb

theorem decodePayload_hereditary {P : Value → Prop} (hP : Value.Hereditary P) {v w : Value}
    (hv : v.OrMethod P) (h : decodePayload v = .ok w) : w.OrMethod P := by
  rcases hv with hv | ⟨m, rfl⟩
  · cases hP.isData hv with
    | text s => exact .inl (hP.document h)
    | list _ =>
        obtain rfl := Except.ok.inj h
        exact .inl hv
    | dict _ =>
        obtain rfl := Except.ok.inj h
        exact .inl hv
    | _ => cases h
  · cases h

theorem result_apply_bool (context : Context) : (apply .bool context).result =
    context.payload.shown?.map fun s => .bool (countsAsTrue s) :=
  Logged.result_bind _ _

theorem result_apply_state (context : Context) : (apply .state context).result =
    if context.state.isNull then .ok (.text context.source)
    else (context.state.resolve context.payload).result := by
  show Logged.result (if context.state.isNull then _ else _) = _
  split <;> rfl

/-- **What a handler of the library refuses.** -/
theorem apply_eq_error_iff (b : Builtin) (hpayload : context.payload.OrMethod Value.IsData)
    (hconfig : context.config.OrMethod Value.IsData)
    (hstate : context.state.OrMethod Value.IsData) :
    (b.apply context).result = .error fault ↔
      b.Refuses context.config context.state context.payload fault := by
  obtain ⟨tag, payload, source, config, state⟩ := context
  dsimp only at hpayload hconfig hstate ⊢
  cases b with
  | array => exact decodePayload_eq_error_iff rfl hpayload
  | json => exact decodePayload_eq_error_iff rfl hpayload
  | bool =>
      rw [result_apply_bool, Except.map_eq_error_iff, Value.shown?]
      constructor
      · intro h
        split at h
        · rename_i hlong
          obtain rfl := Except.error.inj h
          exact .tooLong hlong
        · cases h
      · intro h
        cases h with
        | tooLong hlong => rw [if_pos hlong]
        | _ => contradiction
  | config =>
      refine (Path.resolve_eq_error_iff hconfig).trans ⟨.config, fun h => ?_⟩
      cases h with
      | config h => exact h
      | _ => contradiction
  | state =>
      rw [result_apply_state]
      constructor
      · intro h
        split at h
        · cases h
        · rename_i hnull
          exact .state (Bool.eq_false_iff.mpr hnull) ((Path.resolve_eq_error_iff hstate).mp h)
      · intro h
        cases h with
        | state hnull h =>
            rw [if_neg (by simp [hnull])]
            exact (Path.resolve_eq_error_iff hstate).mpr h
        | _ => contradiction
  | number =>
      refine ⟨nofun, fun h => ?_⟩
      cases h <;> contradiction
  | int =>
      obtain ⟨w, hw, -⟩ := payload.exists_roundHalfUp_toNumber
      have hresult : (apply .int ⟨tag, payload, source, config, state⟩).result = .ok w := hw
      rw [hresult]
      refine ⟨nofun, fun h => ?_⟩
      cases h <;> contradiction
  | none =>
      refine ⟨nofun, fun h => ?_⟩
      cases h <;> contradiction

/-- **What a handler of the library makes** of values with a hereditary property, or of methods, has
the property too, or is a method. -/
theorem apply_hereditary {P : Value → Prop} (hP : Value.Hereditary P) {b : Builtin} {v : Value}
    (hpayload : context.payload.OrMethod P) (hconfig : context.config.OrMethod P)
    (hstate : context.state.OrMethod P) (h : (b.apply context).result = .ok v) : v.OrMethod P := by
  cases b with
  | array => exact decodePayload_hereditary hP hpayload h
  | json => exact decodePayload_hereditary hP hpayload h
  | bool =>
      rw [result_apply_bool] at h
      obtain ⟨s, -, rfl⟩ := Except.map_eq_ok_iff.mp h
      exact .inl (hP.bool _)
  | config => exact Path.resolve_hereditary hP hconfig h
  | state =>
      rw [result_apply_state] at h
      split at h
      · obtain rfl := Except.ok.inj h
        exact .inl (hP.text _)
      · exact Path.resolve_hereditary hP hstate h
  | number =>
      obtain rfl := Except.ok.inj h
      exact .inl (hP.toNumber _)
  | int =>
      obtain ⟨w, hw, hnumber⟩ := context.payload.exists_roundHalfUp_toNumber
      obtain rfl : w = v := Except.ok.inj (hw.symm.trans h)
      rcases hnumber with ⟨i, rfl⟩ | ⟨d, rfl⟩
      · exact .inl (hP.int i)
      · exact .inl (hP.double d)
  | none =>
      obtain rfl := Except.ok.inj h
      exact .inl hP.null

end Builtin

/-! ## A whole text -/

namespace Tag.Parser

variable {p : Parser} {functions : Functions}

theorem tagValue_standard (tag source : String) (inner : Value) :
    p.tagValue functions .standard tag source inner =
      match Registry.builtin? tag with
      | some b => (b.apply ⟨tag, inner, source, p.config, p.state⟩).result
      | none => .ok (.text source) := by
  rw [tagValue, Registry.handler?_standard]
  cases Registry.builtin? tag <;> rfl

/-- One induction over the tags: a handler is given what the handlers inside it have made. -/
theorem rightFold_hereditary {P : Value → Prop} (hP : Value.Hereditary P)
    (hconfig : p.config.OrMethod P) (hstate : p.state.OrMethod P) {tags : List (List Char)}
    {payload : List Char} {v : Value}
    (h : p.rightFold functions .standard tags payload = .ok v) : v.OrMethod P := by
  induction tags generalizing v with
  | nil =>
      obtain rfl := Except.ok.inj h
      exact .inl (hP.text _)
  | cons tag tags ih =>
      rw [rightFold_cons] at h
      obtain ⟨inner, hinner, htag⟩ := Except.bind_eq_ok_iff.mp h
      rw [tagValue_standard] at htag
      split at htag
      · exact Builtin.apply_hereditary hP (ih hinner) hconfig hstate htag
      · obtain rfl := Except.ok.inj htag
        exact .inl (hP.text _)

/-- The parser for a state and a configuration can always be made, and its configuration has the
hereditary property of both even where it comes from the state, or is a method. -/
theorem exists_make {P : Value → Prop} (hP : Value.Hereditary P) {state config : Value}
    (hstate : P state) (hconfig : P config) (maxDepth : Option Int) :
    ∃ p, make state config maxDepth = .ok p ∧ p.maxDepth = maxDepth ∧ P p.state ∧
      p.config.OrMethod P := by
  have hfilled {v : Value} (hv : v.OrMethod P) :
      Value.OrMethod P (if v.isNull then .dict [] else v) := by
    split
    · exact .inl hP.emptyDict
    · exact hv
  unfold make
  cases config.isNull with
  | false => exact ⟨_, rfl, rfl, hstate, hfilled (.inl hconfig)⟩
  | true =>
      rw [if_pos rfl]
      cases hheld : state.access (.text "config") with
      | error fault =>
          cases ((Path.access_eq_error_iff (.inl (hP.isData hstate))).mp hheld).2
      | ok held => exact ⟨_, rfl, rfl, hstate, hfilled (hP.access (.inl hstate) hheld)⟩

/-- A tag of a text has a handler, and this refuses what the tags inside it have made of the
payload. -/
def RefusedAt (p : Parser) (functions : Functions) (s : String) (b : Builtin) (v : Value)
    (fault : Fault) : Prop :=
  ∃ outer tag inner payload, Splits s.toList (outer ++ tag :: inner) payload ∧
    Registry.builtin? (String.ofList tag) = some b ∧
    p.rightFold functions .standard inner payload = .ok v ∧
    b.Refuses p.config p.state v fault

theorem evaluate_eq_error_iff (hd : p.maxDepth = none) (hstate : p.state.OrMethod Value.IsData)
    (hconfig : p.config.OrMethod Value.IsData) {s : String} {fault : Fault} :
    (p.evaluate functions .standard (.text s)).result = .error fault ↔
      ∃ b v, p.RefusedAt functions s b v fault := by
  have hdata {tags : List (List Char)} {payload : List Char} {v : Value}
      (hv : p.rightFold functions .standard tags payload = .ok v) : v.OrMethod Value.IsData :=
    rightFold_hereditary Json.hereditary_isData hconfig hstate hv
  rw [result_evaluate hd Registry.reachable_standard, rightFold_eq_error_iff]
  constructor
  · rintro ⟨outer, tag, inner, v, htags, hv, hfault⟩
    rw [tagValue_standard] at hfault
    split at hfault
    · rename_i b hb
      have hsplits := splits_spine s.toList
      rw [htags] at hsplits
      exact ⟨b, v, outer, tag, inner, _, hsplits, hb, hv,
        (b.apply_eq_error_iff (hdata hv) hconfig hstate).mp hfault⟩
    · cases hfault
  · rintro ⟨b, v, outer, tag, inner, payload, hsplits, hb, hv, hrefuses⟩
    rw [splits_iff_spine.mp hsplits]
    refine ⟨outer, tag, inner, v, rfl, hv, ?_⟩
    rw [tagValue_standard, hb]
    exact (b.apply_eq_error_iff (hdata hv) hconfig hstate).mpr hrefuses

/-- **When evaluating a text fails, in data and without a limit on the depth.** It fails exactly
when the handler of a tag refuses its payload, and with the fault of this handler. A malformed
document is the fault only where a text is decoded; and the command reports every fault except that
of decoding a payload that is no text. -/
theorem make_evaluate_eq_error_iff {state config : Value} (hstate : state.IsData)
    (hconfig : config.IsData) :
    ∃ p, make state config none = .ok p ∧ ∀ (functions : Functions) (s : String) (fault : Fault),
      ((p.evaluate functions .standard (.text s)).result = .error fault ↔
        ∃ b v, p.RefusedAt functions s b v fault) ∧
      ∀ b v, p.RefusedAt functions s b v fault →
        (Command.isRefused fault = false ↔ fault = .notJsonText) ∧
        ∀ failure, fault = .json failure → b.decodes = true ∧
          ∃ t, v = .text t ∧ Json.ofText t = .error (.json failure) := by
  obtain ⟨p, hmake, hd, hstate, hconfig⟩ := exists_make Json.hereditary_isData hstate hconfig none
  refine ⟨p, hmake, fun functions s fault => ⟨evaluate_eq_error_iff hd (.inl hstate) hconfig, ?_⟩⟩
  rintro b v ⟨_, _, _, _, -, -, -, hrefuses⟩
  refine ⟨hrefuses.isRefused_eq_false_iff, ?_⟩
  rintro failure rfl
  exact hrefuses.of_json

/-- What the configuration holds is a number, so that there is no document to decode. -/
theorem make_evaluate_json_port :
    ∃ p, make .null (.dict [(.text "port", .int 80)]) none = .ok p ∧
      (p.evaluate (fun _ _ => .fail .notCallable) .standard (.text "json:config:port")).result =
        .error .notJsonText := by
  have hconfig : Value.IsData (.dict [(.text "port", .int 80)]) :=
    .dict (List.forall_mem_singleton.mpr (.int 80))
  obtain ⟨p, hmake, hp⟩ := make_evaluate_eq_error_iff .null hconfig
  obtain rfl := Except.ok.inj hmake
  have hport : (⟨.null, .dict [(.text "port", .int 80)], none⟩ : Parser).rightFold
      (fun _ _ => .fail .notCallable) .standard ["config".toList] "port".toList =
        .ok (.int 80) := by cbv
  have hsplits : Splits "json:config:port".toList ["json".toList, "config".toList] "port".toList :=
    splits_iff_spine.mpr (by decide)
  have hnumber : ∀ s, Value.int 80 ≠ .text s := by rintro s ⟨⟩
  exact ⟨_, rfl, (hp _ "json:config:port" .notJsonText).1.mpr
    ⟨.json, .int 80, [], "json".toList, ["config".toList], _, hsplits, rfl, hport,
      .noText rfl rfl hnumber⟩⟩

/-- Not every fault is that of a malformed document: a key with a digit that is not decimal cannot
be looked up. -/
theorem exists_fault_not_json :
    ¬ ∀ (state config : Value), state.IsData → config.IsData →
        ∀ p, make state config none = .ok p →
        ∀ (functions : Functions) (s : String) (fault : Fault),
          (p.evaluate functions .standard (.text s)).result = .error fault →
            ∃ failure, fault = .json failure := by
  intro h
  have hfault : ((⟨.null, .dict [], none⟩ : Parser).evaluate (fun _ _ => .fail .notCallable)
      .standard (.text "config:²")).result = .error (.notDecimal "²") := by cbv
  have hempty : Value.IsData (.dict []) := .dict (List.forall_mem_nil _)
  obtain ⟨failure, hjson⟩ := h .null (.dict []) .null hempty _ rfl _ _ _ hfault
  cases hjson

end Tag.Parser

end LooseData
