import LooseData.Path.Resolver
import LooseData.Proofs.Effect

set_option autoImplicit false

/-! # Resolving a path is a walk over its tokens

A resolver moves from token to token and keeps its place in its own state. Its result does not
show that: a path is resolved by reading its tokens one after another, each from what the one
before it has found (`resolve_eq_walk`). A null that is found on the way stays the result.
-/

namespace LooseData

open Edit

theorem Value.isNull_iff {v : Value} : v.isNull = true ↔ v = .null := by
  constructor
  · intro h
    cases v with
    | atom a =>
        cases a with
        | null => rfl
        | _ => cases h
    | node n => cases h
  · rintro rfl
    rfl

namespace Path

/-- What a value holds at a token. A null is its own result. -/
def readToken (v : Value) (token : String) : Except Fault Value :=
  if v.isNull then .ok v else (Resolver.aim v [token]).propertyAtIndex

/-- What is found by reading tokens one after another. -/
def walk (v : Value) (tokens : List String) : Except Fault Value := tokens.foldlM readToken v

theorem walk_cons (v : Value) (token : String) (rest : List String) :
    walk v (token :: rest) = (readToken v token).bind fun w => walk w rest := rfl

theorem walk_of_isNull {v : Value} (h : v.isNull = true) (tokens : List String) :
    walk v tokens = .ok v := by
  induction tokens with
  | nil => rfl
  | cons token rest ih =>
      rw [walk_cons, readToken, if_pos h]
      exact ih

end Path

namespace Resolver

open LooseData.Path

/-- Reading the present token leaves the resolver where it is. -/
theorem effect_readToken (r : Resolver) : readToken.effect r = (r.propertyAtIndex, r) := by
  unfold readToken
  rw [effect_bind_ok (effect_get r), effect_bind, effect_liftExcept]
  cases r.propertyAtIndex <;> rfl

/-- One induction over the tokens that are left. -/
theorem effect_readOn (rest : List String) (r : Resolver) :
    ((readOn rest).effect r).1 = r.propertyAtIndex.bind fun v => walk v rest := by
  induction rest generalizing r with
  | nil =>
      rw [readOn, effect_readToken]
      cases r.propertyAtIndex <;> rfl
  | cons token rest ih =>
      rw [readOn]
      cases hread : r.propertyAtIndex with
      | error fault =>
          have heffect : readToken.effect r = (.error fault, r) := by rw [effect_readToken, hread]
          rw [effect_bind_error heffect]
          rfl
      | ok v =>
          have heffect : readToken.effect r = (.ok v, r) := by rw [effect_readToken, hread]
          rw [effect_bind_ok heffect]
          show _ = walk v (token :: rest)
          cases hnull : v.isNull with
          | true =>
              rw [walk_of_isNull hnull, if_pos rfl]
              rfl
          | false =>
              rw [if_neg (by simp), effect_bind_ok (effect_become r _), ih, walk_cons,
                Path.readToken, hnull, if_neg (by simp)]
              rfl

end Resolver

/-- **Resolving a path is a walk over its tokens.** -/
theorem Value.resolve_eq_walk {target path : Value} {token : String} {rest : List String}
    (h : Path.tokens path = token :: rest) :
    (target.resolve path).result = Path.walk target (token :: rest) := by
  rw [Path.walk_cons, Path.readToken, resolve]
  cases hnull : target.isNull with
  | true =>
      rw [if_pos rfl, if_pos rfl]
      exact (Path.walk_of_isNull hnull rest).symm
  | false =>
      rw [if_neg (by simp), if_neg (by simp), Resolver.ofPath, h]
      show (Resolver.result.effect (.aim target (token :: rest))).1 = _
      unfold Resolver.result
      rw [effect_bind_ok (effect_get _)]
      exact Resolver.effect_readOn rest _

/-- A path without tokens finds the target, decoded if it is JSON. -/
theorem Value.resolve_of_tokens_eq_nil {target path : Value} (h : Path.tokens path = []) :
    (target.resolve path).result = .ok (Json.decodeText target) := by
  rw [resolve]
  split
  · rename_i hnull
    rw [isNull_iff.mp hnull]
    rfl
  · rw [Resolver.ofPath, h]
    rfl

end LooseData
