import LooseData.Proofs.Lookup
import LooseData.Proofs.Tag.Standard

set_option autoImplicit false

/-! # A limit on how deep tags are nested

The tags of a text are entered from the outermost on, and each is checked against the limit when it
is entered, before any handler is called. So with more tags than the limit has room for, evaluation
ends at the first tag too deep: the outcome and the log depend on the text and on the limit alone,
whatever the handlers are (`evaluateFrom_of_room_lt`). With room for all tags the limit makes no
difference at all (`evaluateFrom_of_le_room`).
-/

namespace LooseData

open Tag

namespace Tag

theorem written_append (front back : List (List Char)) (payload : List Char) :
    written (front ++ back) payload = written front (written back payload) := by
  induction front with
  | nil => rfl
  | cons tag front ih => rw [List.cons_append, written, written, ih]

namespace Parser

variable {p : Parser} {functions : Functions} {registry : Registry} {depth : Nat} {limit : Int}

/-! ## Entering tags -/

/-- What is written into the log when the first tags are entered, as many as a number says. -/
def entries : (count : Nat) → (tags : List (List Char)) → (payload : List Char) → List Record
  | 0, _, _ => []
  | _, [], _ => []
  | count + 1, tag :: tags, payload => entry tag tags payload ++ entries count tags payload

theorem evaluateFrom_of_tooDeep (h : p.tooDeep depth = true) (tag : List Char)
    (tags : List (List Char)) (payload : List Char) :
    p.evaluateFrom functions registry depth (tag :: tags) payload =
      .fail (.tooDeep (String.ofList (written (tag :: tags) payload)) (p.maxDepth.getD 0)) := by
  rw [evaluateFrom, if_pos h]

/-- One induction over the tags, from the outermost on: whatever the limit is, a value that comes
out is the right fold. -/
theorem rightFold_of_evaluateFrom (hr : registry.Coherent) {tags : List (List Char)}
    {payload : List Char} {v : Value}
    (h : (p.evaluateFrom functions registry depth tags payload).result = .ok v) :
    p.rightFold functions registry tags payload = .ok v := by
  induction tags generalizing depth v with
  | nil => exact h
  | cons tag tags ih =>
      cases hdeep : p.tooDeep depth with
      | true =>
          rw [evaluateFrom_of_tooDeep hdeep] at h
          cases h
      | false =>
          rw [evaluateFrom_of_not_tooDeep hdeep] at h
          obtain ⟨inner, hinner, htag⟩ := Logged.bind_eq_ok_iff.mp h
          rw [result_dispatch hr] at htag
          rw [rightFold_cons, ih hinner]
          exact htag

/-! ## The limit -/

/-- How many tags the limit has room for from a depth on. -/
def room (limit : Int) (depth : Nat) : Nat := (limit + 1 - depth).toNat

theorem tooDeep_iff (hp : p.maxDepth = some limit) :
    p.tooDeep depth = true ↔ room limit depth = 0 := by
  simp only [tooDeep, hp, Option.any_some, decide_eq_true_eq, room]
  omega

theorem not_tooDeep (hp : p.maxDepth = some limit) (h : room limit depth ≠ 0) :
    p.tooDeep depth = false := by
  rw [Bool.eq_false_iff]
  exact fun hdeep => h ((tooDeep_iff hp).mp hdeep)

/-- Entering a tag takes up the room of one. -/
theorem room_eq_succ (h : room limit depth ≠ 0) :
    room limit depth = room limit (depth + 1) + 1 := by
  unfold room at h ⊢
  omega

/-- One induction over the tags, from the outermost on: each takes up some room, and at the first
one without room it ends. No handler has been called by then. -/
theorem evaluateFrom_of_room_lt (hp : p.maxDepth = some limit) {tags : List (List Char)}
    (h : room limit depth < tags.length) (payload : List Char) :
    p.evaluateFrom functions registry depth tags payload =
      ⟨.error (.tooDeep (String.ofList (written (tags.drop (room limit depth)) payload)) limit),
        entries (room limit depth) tags payload⟩ := by
  induction tags generalizing depth with
  | nil => simp at h
  | cons tag tags ih =>
      rw [List.length_cons] at h
      by_cases hroom : room limit depth = 0
      · rw [evaluateFrom_of_tooDeep ((tooDeep_iff hp).mpr hroom), hroom, hp]
        rfl
      · have hsucc := room_eq_succ hroom
        have hinner := ih (by omega : room limit (depth + 1) < tags.length)
        -- The fault of the inner tag passes by the handler of this one.
        rw [evaluateFrom_of_not_tooDeep (not_tooDeep hp hroom), hinner, hsucc]
        rfl

/-- One induction over the tags: none of them is too deep, and nothing else looks at the limit. -/
theorem evaluateFrom_of_le_room (hp : p.maxDepth = some limit) {tags : List (List Char)}
    (h : tags.length ≤ room limit depth) (payload : List Char) :
    p.evaluateFrom functions registry depth tags payload =
      Parser.evaluateFrom { p with maxDepth := none } functions registry depth tags payload := by
  induction tags generalizing depth with
  | nil => rfl
  | cons tag tags ih =>
      rw [List.length_cons] at h
      have hroom : room limit depth ≠ 0 := by omega
      have hsucc := room_eq_succ hroom
      have hinner := ih (by omega : tags.length ≤ room limit (depth + 1))
      rw [evaluateFrom_of_not_tooDeep (not_tooDeep hp hroom), evaluateFrom_of_not_tooDeep rfl,
        hinner]
      rfl

end Parser

end Tag

/-! ## The handlers do not report it -/

namespace Builtin

variable {context : Context} {text : String} {limit : Int}

/-- No handler of the library reports that tags are nested too deep. -/
theorem result_apply_ne_tooDeep (b : Builtin) (context : Context) :
    (b.apply context).result ≠ .error (.tooDeep text limit) := by
  have hdecode {v : Value} : decodePayload v ≠ .error (.tooDeep text limit) := by
    intro h
    unfold decodePayload at h
    split at h
    · cases h
    · rcases Json.fault_of_decode h with (⟨_, h⟩ | ⟨_, h⟩) | h | h <;> cases h
  have hlookup {collection path : Value} :
      (collection.resolve path).result ≠ .error (.tooDeep text limit) := by
    intro h
    obtain ⟨_, key, _, _, -, -, -, hkey⟩ := Value.resolve_eq_error_iff.mp h
    rcases fault_of_numeral? hkey with h | ⟨_, h⟩ <;> cases h
  cases b with
  | array => exact hdecode
  | json => exact hdecode
  | bool =>
      rw [result_apply_bool, ne_eq, Except.map_eq_error_iff, Value.shown?]
      split <;> rintro ⟨⟩
  | config => exact hlookup
  | state =>
      rw [result_apply_state]
      split
      · rintro ⟨⟩
      · exact hlookup
  | number => rintro ⟨⟩
  | int =>
      obtain ⟨w, hw, -⟩ := context.payload.exists_roundHalfUp_toNumber
      have hresult : (apply .int context).result = .ok w := hw
      rw [hresult]
      rintro ⟨⟩
  | none => rintro ⟨⟩

end Builtin

namespace Tag

/-- Some function from outside reports by itself that tags are nested too deep. -/
def Functions.ReportTooDeep (functions : Functions) : Prop :=
  ∃ name context text limit, (functions name context).result = .error (.tooDeep text limit)

namespace Parser

variable {p : Parser} {functions : Functions} {registry : Registry} {limit : Int} {text : String}

theorem reportTooDeep_of_dispatch {tag source : String} {inner : Value}
    (h : (p.dispatch functions registry tag source inner).result = .error (.tooDeep text limit)) :
    functions.ReportTooDeep := by
  unfold dispatch at h
  rcases Logged.bind_eq_error_iff.mp h with hfind | ⟨held, -, h⟩
  · -- Every text can be looked up.
    cases hfind
  · split at h
    · cases h
    · cases h
    · rename_i f
      cases f with
      | builtin b => exact absurd h (b.result_apply_ne_tooDeep _)
      | custom name => exact ⟨name, _, text, limit, h⟩
    · cases h

/-- One induction over the tags: without a limit only a handler can report it. -/
theorem reportTooDeep_of_evaluateFrom (hp : p.maxDepth = none) {depth : Nat}
    {tags : List (List Char)} {payload : List Char}
    (h : (p.evaluateFrom functions registry depth tags payload).result =
      .error (.tooDeep text limit)) : functions.ReportTooDeep := by
  induction tags generalizing depth with
  | nil => cases h
  | cons tag tags ih =>
      rw [evaluateFrom_of_not_tooDeep (tooDeep_of_unlimited hp depth)] at h
      rcases Logged.bind_eq_error_iff.mp h with h | ⟨v, -, h⟩
      · exact ih h
      · exact reportTooDeep_of_dispatch h

/-! ## A whole text -/

/-- **What a limit on the depth does.** If a text has more tags than the limit has room for,
evaluating it fails at the first tag too deep; all that it has left by then are the records of the
tags around this one, whatever the handlers are. Any other text is evaluated as if there were no
limit. So it is reported that tags are nested too deep exactly for the texts of the first kind,
unless a function from outside reports it by itself. -/
theorem evaluate_limited (state config : Value) (limit : Int) (functions : Functions)
    (registry : Registry) {s : String} {tags : List (List Char)} {payload : List Char}
    (hs : Splits s.toList tags payload) :
    (1 ≤ tags.length ∧ limit + 1 < tags.length →
      written (tags.take (room limit 0)) (written (tags.drop (room limit 0)) payload) =
          s.toList ∧
        Parser.evaluate ⟨state, config, some limit⟩ functions registry (.text s) =
          ⟨.error (.tooDeep (String.ofList (written (tags.drop (room limit 0)) payload)) limit),
            entries (room limit 0) tags payload⟩) ∧
    (¬ (1 ≤ tags.length ∧ limit + 1 < tags.length) →
      Parser.evaluate ⟨state, config, some limit⟩ functions registry (.text s) =
        Parser.evaluate ⟨state, config, none⟩ functions registry (.text s)) ∧
    (¬ functions.ReportTooDeep →
      ((∃ text limit', (Parser.evaluate ⟨state, config, some limit⟩ functions registry
          (.text s)).result = .error (.tooDeep text limit')) ↔
        1 ≤ tags.length ∧ limit + 1 < tags.length)) := by
  have hdeep (h : 1 ≤ tags.length ∧ limit + 1 < tags.length) :
      Parser.evaluate ⟨state, config, some limit⟩ functions registry (.text s) =
        ⟨.error (.tooDeep (String.ofList (written (tags.drop (room limit 0)) payload)) limit),
          entries (room limit 0) tags payload⟩ := by
    rw [evaluate_of_splits _ _ _ hs]
    have hroom : room limit 0 < tags.length := by
      unfold room
      omega
    exact evaluateFrom_of_room_lt rfl hroom payload
  have hshallow (h : ¬ (1 ≤ tags.length ∧ limit + 1 < tags.length)) :
      Parser.evaluate ⟨state, config, some limit⟩ functions registry (.text s) =
        Parser.evaluate ⟨state, config, none⟩ functions registry (.text s) := by
    rw [evaluate_of_splits _ _ _ hs, evaluate_of_splits _ _ _ hs]
    have hroom : tags.length ≤ room limit 0 := by
      unfold room
      omega
    exact evaluateFrom_of_le_room rfl hroom payload
  refine ⟨fun h => ⟨?_, hdeep h⟩, hshallow, fun hfunctions => ⟨?_, ?_⟩⟩
  · rw [← written_append, List.take_append_drop, hs.written_eq]
  · rintro ⟨text, limit', h⟩
    by_contra hfew
    rw [hshallow hfew, evaluate_of_splits _ _ _ hs] at h
    exact hfunctions (reportTooDeep_of_evaluateFrom rfl h)
  · intro h
    rw [hdeep h]
    exact ⟨_, _, rfl⟩

/-- Three tags may be nested, and the fourth is too deep, although none of them has a handler. -/
theorem evaluate_limited_two :
    Splits "a:b:c:d:e".toList ["a".toList, "b".toList, "c".toList, "d".toList] "e".toList ∧
      ((⟨.null, .dict [], some 2⟩ : Parser).evaluate (fun _ _ => .fail .notCallable) .standard
        (.text "a:b:c:d:e")).result = .error (.tooDeep "d:e" 2) := by
  have hsplits : Splits "a:b:c:d:e".toList
      ["a".toList, "b".toList, "c".toList, "d".toList] "e".toList :=
    splits_iff_spine.mpr (by decide)
  have hlimited := (evaluate_limited .null (.dict []) 2 (fun _ _ => .fail .notCallable) .standard
    hsplits).1 (by decide)
  refine ⟨hsplits, ?_⟩
  rw [hlimited.2]
  rfl

end Parser

end Tag

end LooseData
