import LooseData.Proofs.Json.Data
import LooseData.Proofs.Layer.Unreadable
import LooseData.Proofs.Path.Walk

set_option autoImplicit false

/-! # A path as a list of moves

Reading a token is a sequence of moves: to what is held under a key, and from a text to the JSON
that it holds. So a path is a list of moves, and resolving it makes them one after another
(`Value.resolve_eq_follow`). A null on the way needs no attention, since every move from
null leads to null.

Decoding never fails. So a lookup fails at a key, which has been reached and cannot be read as a
number where that is tried (`resolve_eq_error_iff`).
-/

namespace LooseData

namespace Path

/-- One step of a lookup. -/
inductive Move where
  /-- Go to what is held under a key. -/
  | key (name : String)
  /-- Go from a text that is a JSON document to what it holds. -/
  | decode

/-- Where a move leads to. -/
def Move.perform (v : Value) : Move → Except Fault Value
  | .key name => v.access (.text name)
  | .decode => .ok (Json.decodeText v)

/-- The moves of a token: its attribute, decoding, and its indices. -/
def movesOfToken (token : String) : List Move :=
  ((parts token.toList).name.map Move.key).toList ++
    .decode :: (((parts token.toList).index.map indices).getD []).map .key

/-- The moves of a path. A path without tokens only decodes. -/
def moves (path : Value) : List Move :=
  match tokens path with
  | [] => [.decode]
  | tokens => tokens.flatMap movesOfToken

/-- The value that is reached by moves. -/
def follow (v : Value) (moves : List Move) : Except Fault Value := moves.foldlM Move.perform v

theorem follow_append (v : Value) (front back : List Move) :
    follow v (front ++ back) = (follow v front).bind fun w => follow w back := by
  unfold follow
  rw [List.foldlM_append]
  rfl

/-- An atom without items and attributes holds nothing. -/
theorem access_atom {a : Atom} (hitems : (Layer.atom a : Layer Value).sequence? = none)
    (hattributes : ∀ name, a.attribute? name = none) (name : String) :
    (Value.atom a).access (.text name) = .ok .null := by
  have hnone : (Value.text name).publicName?.bind a.attribute? = none := by
    cases (Value.text name).publicName? with
    | none => rfl
    | some name => exact hattributes name
  show Except.map _ (Layer.lookup (Layer.atom a : Layer Value) (.text name)) = _
  unfold Layer.lookup
  rw [hitems]
  dsimp only
  rw [hnone]
  rfl

/-- Null holds nothing. -/
theorem access_null (name : String) : Value.null.access (.text name) = .ok .null :=
  access_atom rfl (fun _ => rfl) name

/-- No move leads away from null. -/
theorem follow_null (moves : List Move) : follow .null moves = .ok .null := by
  induction moves with
  | nil => rfl
  | cons move rest ih =>
      have hmove : move.perform .null = .ok .null := by
        cases move with
        | key name => exact access_null name
        | decode => rfl
      rw [follow, List.foldlM_cons, hmove]
      exact ih

/-- Following the indices of an expression. -/
theorem applyIndex_eq_follow (v : Value) (expression : Option String) :
    Resolver.applyIndex v expression = follow v (((expression.map indices).getD []).map .key) := by
  cases expression with
  | none => rfl
  | some expression =>
      rw [follow, List.foldlM_map]
      rfl

/-- What a resolver reads at its token is what the moves of the token lead to. -/
theorem propertyAtIndex_aim (v : Value) (token : String) (rest : List String) :
    (Resolver.aim v (token :: rest)).propertyAtIndex = follow v (movesOfToken token) := by
  show (Resolver.propertyValue (Resolver.aim v (token :: rest))).bind
    (fun w => Resolver.applyIndex w (parts token.toList).index) = _
  rw [movesOfToken]
  simp only [applyIndex_eq_follow, Resolver.propertyValue, Resolver.aim]
  cases (parts token.toList).name with
  | none => rfl
  | some name =>
      show ((v.access (.text name)).map Json.decodeText).bind _ = (v.access (.text name)).bind _
      cases v.access (.text name) <;> rfl

/-- **Reading a token makes its moves.** -/
theorem readToken_eq_follow (v : Value) (token : String) :
    readToken v token = follow v (movesOfToken token) := by
  rw [readToken]
  cases hnull : v.isNull with
  | true => rw [if_pos rfl, Value.isNull_iff.mp hnull, follow_null]
  | false => rw [if_neg (by simp), propertyAtIndex_aim]

theorem walk_eq_follow (v : Value) (tokens : List String) :
    walk v tokens = follow v (tokens.flatMap movesOfToken) := by
  induction tokens generalizing v with
  | nil => rfl
  | cons token rest ih =>
      rw [List.flatMap_cons, follow_append, walk_cons, readToken_eq_follow]
      exact congrArg _ (funext fun w => ih w)

end Path

/-- **Resolving a path makes its moves.** -/
theorem Value.resolve_eq_follow (target path : Value) :
    (target.resolve path).result = Path.follow target (Path.moves path) := by
  unfold Path.moves
  cases htokens : Path.tokens path with
  | nil => exact resolve_of_tokens_eq_nil htokens
  | cons token rest => exact (resolve_eq_walk htokens).trans (Path.walk_eq_follow _ _)

namespace Path

/-! ## Where a lookup fails -/

/-- Whether a value looks a key up as a number: a text and a list always do, and a dictionary does
if the key is not there. -/
def LooksUpNumber (v : Value) (key : String) : Prop :=
  match v with
  | .atom (.text _) | .node (.list _) => True
  | .node (.dict entries) => Table.get? entries (.text key) = none
  | _ => False

/-- A lookup comes to a key that cannot be read as a number where that is tried. -/
def StopsAt (target path : Value) (fault : Fault) : Prop :=
  ∃ front key back v, moves path = front ++ .key key :: back ∧ follow target front = .ok v ∧
    LooksUpNumber v key ∧ numeral? key = .error fault

theorem follow_hereditary {P : Value → Prop} (hP : Value.Hereditary P) {v w : Value}
    {moves : List Move} (hv : v.OrMethod P) (h : follow v moves = .ok w) : w.OrMethod P := by
  refine Except.of_foldlM_eq_ok (P := Value.OrMethod P) (fun u move _ u' hu hmove => ?_) hv h
  cases move with
  | key name => exact hP.access hu hmove
  | decode =>
      obtain rfl := Except.ok.inj hmove
      exact Json.decodeText_hereditary hP hu

/-- Moves fail at a move to a key, since decoding never fails. -/
theorem follow_eq_error_iff {v : Value} {moves : List Move} {fault : Fault} :
    follow v moves = .error fault ↔
      ∃ front key back w, moves = front ++ .key key :: back ∧ follow v front = .ok w ∧
        w.access (.text key) = .error fault := by
  rw [follow, Except.foldlM_eq_error_iff]
  constructor
  · rintro ⟨front, move, back, w, hmoves, hfront, hfault⟩
    cases move with
    | decode => cases hfault
    | key name => exact ⟨front, name, back, w, hmoves, hfront, hfault⟩
  · rintro ⟨front, name, back, w, hmoves, hfront, hfault⟩
    exact ⟨front, .key name, back, w, hmoves, hfront, hfault⟩

/-- Data looks a key up as a number where its level does, and a method nowhere. -/
theorem looksUpNumber_iff {v : Value} (hv : v.OrMethod Value.IsData) (name : String) :
    LooksUpNumber v name ↔ v.layer.ReadsNumber name := by
  rcases hv with hdata | ⟨m, rfl⟩
  · cases hdata with
    | _ => exact Iff.rfl
  · exact Iff.rfl

theorem access_eq_error_iff {v : Value} (hv : v.OrMethod Value.IsData) {name : String}
    {fault : Fault} :
    v.access (.text name) = .error fault ↔
      LooksUpNumber v name ∧ numeral? name = .error fault := by
  rw [looksUpNumber_iff hv]
  exact Layer.access_text_eq_error_iff

/-- **A lookup in data fails only at a key** that cannot be read as a number. -/
theorem resolve_eq_error_iff {target path : Value} (htarget : target.OrMethod Value.IsData)
    {fault : Fault} :
    (target.resolve path).result = .error fault ↔ StopsAt target path fault := by
  rw [Value.resolve_eq_follow, follow_eq_error_iff]
  constructor
  · rintro ⟨front, name, back, v, hmoves, hfront, hfault⟩
    exact ⟨front, name, back, v, hmoves, hfront,
      (access_eq_error_iff (follow_hereditary Json.hereditary_isData htarget hfront)).mp hfault⟩
  · rintro ⟨front, name, back, v, hmoves, hfront, hstop⟩
    exact ⟨front, name, back, v, hmoves, hfront,
      (access_eq_error_iff (follow_hereditary Json.hereditary_isData htarget hfront)).mpr hstop⟩

theorem resolve_hereditary {P : Value → Prop} (hP : Value.Hereditary P) {target path v : Value}
    (htarget : target.OrMethod P) (h : (target.resolve path).result = .ok v) : v.OrMethod P := by
  rw [Value.resolve_eq_follow] at h
  exact follow_hereditary hP htarget h

end Path

end LooseData
