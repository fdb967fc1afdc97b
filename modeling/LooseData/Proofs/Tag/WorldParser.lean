import LooseData.Proofs.Path.Moves
import LooseData.Proofs.Tag.Unhandled
import LooseData.World

set_option autoImplicit false

/-! # A world and a parser that is given the world

A world evaluates texts with its own configuration. A parser that is given the world and no
configuration looks for one in the world. A world is a mapping of its state, and a lookup in a
mapping does not go on to its attributes, so the configuration is not found and the parser works
with an empty one (`make_world`).

The two parsers differ in nothing else. So they agree on a text unless a handler that looks at the
configuration makes something else of the value that both reach, and what a `config` tag finds
without the configuration is nothing (`make_world_evaluate`).
-/

namespace LooseData

open Tag

/-! ## Handlers and the configuration -/

/-- What the handler makes of a payload is the same with any configuration. -/
def Tag.Handler.IgnoresConfig (handler : Handler) : Prop :=
  ∀ (context : Context) (config : Value),
    (handler { context with config := config }).result = (handler context).result

/-- One handler of the library looks at the configuration. -/
theorem Builtin.ignoresConfig {b : Builtin} (hb : b ≠ .config) :
    Handler.IgnoresConfig b.apply := by
  intro context config
  cases b with
  | config => exact absurd rfl hb
  | _ => rfl

/-- No lookup leads out of an empty configuration: each move finds nothing, or stays. -/
theorem Value.eq_of_resolve_empty {path v : Value}
    (h : ((Value.dict []).resolve path).result = .ok v) : v = .null ∨ v = .dict [] := by
  rw [resolve_eq_follow] at h
  refine Except.of_foldlM_eq_ok (P := fun u => u = .null ∨ u = .dict []) ?_ (.inr rfl) h
  rintro u move - w (rfl | rfl) hmove
  · left
    have hnull : Path.follow .null [move] = .ok w := by
      rw [Path.follow, List.foldlM_cons, hmove]
      rfl
    exact Except.ok.inj (hnull.symm.trans (Path.follow_null [move]))
  · cases move with
    | decode => exact .inr (Except.ok.inj hmove).symm
    | key name =>
        left
        obtain ⟨found, hfound, rfl⟩ := Except.map_eq_ok_iff.mp hmove
        obtain ⟨number, -, rfl⟩ := Except.map_eq_ok_iff.mp hfound
        cases number <;> rfl

namespace Tag.Parser

variable {p q : Parser} {functions : Functions} {registry : Registry}

/-- The parsers part at the outermost tag of `tag :: inner`: inside it both reach the value `v`, of
which the handler of the tag makes something else for the one than for the other. -/
structure PartAt (p q : Parser) (functions : Functions) (registry : Registry) (tag : List Char)
    (inner : List (List Char)) (payload : List Char) (handler : Handler) (v : Value) : Prop where
  handler_eq : registry.handler? functions (String.ofList tag) = some handler
  left_eq : p.rightFold functions registry inner payload = .ok v
  right_eq : q.rightFold functions registry inner payload = .ok v
  differ : p.tagValue functions registry (String.ofList tag)
      (String.ofList (written (tag :: inner) payload)) v ≠
    q.tagValue functions registry (String.ofList tag)
      (String.ofList (written (tag :: inner) payload)) v

/-- Parsers with the same state can only part at a handler that looks at the configuration. -/
theorem PartAt.not_ignoresConfig (hstate : p.state = q.state) {tag : List Char}
    {inner : List (List Char)} {payload : List Char} {handler : Handler} {v : Value}
    (h : PartAt p q functions registry tag inner payload handler v) :
    ¬ handler.IgnoresConfig := by
  intro hignores
  apply h.differ
  rw [tagValue, tagValue, h.handler_eq, hstate]
  exact hignores ⟨_, v, _, q.config, q.state⟩ p.config

/-- **Two parsers agree up to a tag at which they part.** One induction over the tags, from the
innermost on. -/
theorem rightFold_eq_or_partAt (tags : List (List Char)) (payload : List Char) :
    p.rightFold functions registry tags payload = q.rightFold functions registry tags payload ∨
      ∃ outer tag inner handler v, tags = outer ++ tag :: inner ∧
        PartAt p q functions registry tag inner payload handler v := by
  induction tags with
  | nil => exact .inl rfl
  | cons tag tags ih =>
      rcases ih with hinner | ⟨outer, t, inner, handler, v, rfl, hpart⟩
      · rw [rightFold_cons, rightFold_cons]
        cases hp : p.rightFold functions registry tags payload with
        | error fault => exact .inl (by rw [← hinner, hp]; rfl)
        | ok v =>
            rw [hp] at hinner
            rw [← hinner]
            -- Both go on from `v`, so the tag itself decides.
            by_cases hsame : p.tagValue functions registry (String.ofList tag)
                (String.ofList (written (tag :: tags) payload)) v =
              q.tagValue functions registry (String.ofList tag)
                (String.ofList (written (tag :: tags) payload)) v
            · exact .inl hsame
            · right
              cases hhandler : registry.handler? functions (String.ofList tag) with
              | none =>
                  refine absurd ?_ hsame
                  rw [tagValue_of_unhandled hhandler, tagValue_of_unhandled hhandler]
              | some handler =>
                  exact ⟨[], tag, tags, handler, v, rfl, hhandler, hp, hinner.symm, hsame⟩
      · exact .inr ⟨tag :: outer, t, inner, handler, v, rfl, hpart⟩

/-- A `config` tag looks up what its payload evaluates to. -/
theorem evaluate_config (hd : p.maxDepth = none) (hr : registry.Reachable) {tag : List Char}
    (htag : IsTag tag)
    (hhandler : registry.handler? functions (String.ofList tag) = some Builtin.config.apply)
    (payload : List Char) :
    (p.evaluate functions registry (.text (String.ofList (tag ++ ':' :: payload)))).result =
      (p.evaluate functions registry (.text (String.ofList payload))).result.bind
        fun path => (p.config.resolve path).result := by
  have hspine : spine (tag ++ ':' :: payload) = (tag :: (spine payload).1, (spine payload).2) :=
    spine_of_split (split?_eq_some_iff.mpr ⟨htag, rfl⟩)
  rw [result_evaluate hd hr, result_evaluate hd hr, String.toList_ofList, String.toList_ofList,
    hspine, rightFold_cons]
  congr 1
  funext path
  rw [tagValue, hhandler]
  rfl

/-- **A parser that is given a world does not find its configuration**: the state has no entry of
that name, and nothing else is looked at. -/
theorem make_world {w : World Value} (h : Table.has w.state (.text "config") = false)
    (maxDepth : Option Int) :
    make w.toValue .null maxDepth = .ok ⟨w.toValue, .dict [], maxDepth⟩ := by
  have hitem : (Node.world w).item? (.text "config") = none := Option.isSome_eq_false_iff.mp h
    |> Option.isNone_iff_eq_none.mp
  have haccess : w.toValue.access (.text "config") = .ok .null := by
    show Except.map _ (Layer.lookupEntry (.world w) (.text "config")) = _
    have hkey : (Value.text "config").key? = some (.text "config") := rfl
    simp only [Layer.lookupEntry, hkey, hitem]
    rfl
  show Except.bind (w.toValue.access (.text "config")) _ = _
  rw [haccess]
  rfl

/-- **How a parser that is given a world evaluates, compared with the world itself.** The two can
only differ on a text where, below agreeing results, a handler looks at the configuration and makes
something else of it. And at a `config` tag they do look things up in different places: the world
in its configuration, the parser in an empty one, where it finds null or what it looks in. -/
theorem make_world_evaluate {w : World Value}
    (h : Table.has w.state (.text "config") = false) :
    ∃ p, make w.toValue .null none = .ok p ∧
      ∀ (functions : Functions) (registry : Registry), registry.Reachable →
        (∀ s, (p.evaluate functions registry (.text s)).result ≠
            ((w.parser none).evaluate functions registry (.text s)).result →
          ∃ outer tag inner payload handler v, Splits s.toList (outer ++ tag :: inner) payload ∧
            PartAt p (w.parser none) functions registry tag inner payload handler v ∧
            ¬ handler.IgnoresConfig) ∧
        ∀ tag payload, IsTag tag →
          registry.handler? functions (String.ofList tag) = some Builtin.config.apply →
          ((w.parser none).evaluate functions registry
              (.text (String.ofList (tag ++ ':' :: payload)))).result =
            ((w.parser none).evaluate functions registry
              (.text (String.ofList payload))).result.bind
                (fun path => (w.configValue.resolve path).result) ∧
          (p.evaluate functions registry
              (.text (String.ofList (tag ++ ':' :: payload)))).result =
            (p.evaluate functions registry (.text (String.ofList payload))).result.bind
              (fun path => ((Value.dict []).resolve path).result) ∧
          ∀ v, (p.evaluate functions registry
              (.text (String.ofList (tag ++ ':' :: payload)))).result = .ok v →
            v = .null ∨ v = .dict [] := by
  refine ⟨⟨w.toValue, .dict [], none⟩, make_world h none, fun functions registry hr => ⟨?_, ?_⟩⟩
  · intro s hdiffer
    have hstate : (⟨w.toValue, .dict [], none⟩ : Parser).state = (w.parser none).state := rfl
    rw [result_evaluate rfl hr, result_evaluate rfl hr] at hdiffer
    rcases rightFold_eq_or_partAt (spine s.toList).1 (spine s.toList).2 with
      hagree | ⟨outer, tag, inner, handler, v, htags, hpart⟩
    · exact absurd hagree hdiffer
    · have hsplits := splits_spine s.toList
      rw [htags] at hsplits
      exact ⟨outer, tag, inner, _, handler, v, hsplits, hpart,
        hpart.not_ignoresConfig hstate⟩
  · intro tag payload htag hhandler
    have hempty := evaluate_config (p := ⟨w.toValue, .dict [], none⟩) rfl hr htag hhandler payload
    refine ⟨evaluate_config rfl hr htag hhandler payload, hempty, ?_⟩
    intro v hv
    obtain ⟨path, -, hpath⟩ := Except.bind_eq_ok_iff.mp (hempty.symm.trans hv)
    exact Value.eq_of_resolve_empty hpath

/-- The world finds the entry of its configuration, and the parser that is given the world does
not. -/
theorem make_world_evaluate_port :
    ∃ p, make (World.toValue ⟨[(.text "port", .int 80)], []⟩) .null none = .ok p ∧
      ((World.parser ⟨[(.text "port", .int 80)], []⟩ none).evaluate
        (fun _ _ => .fail .notCallable) .standard (.text "config:port")).result = .ok (.int 80) ∧
      ∀ v, (p.evaluate (fun _ _ => .fail .notCallable) .standard (.text "config:port")).result =
        .ok v → v = .null ∨ v = .dict [] := by
  obtain ⟨p, hmake, hp⟩ := make_world_evaluate (w := ⟨[(.text "port", .int 80)], []⟩) rfl
  have htag : IsTag "config".toList := by decide
  obtain ⟨hworld, -, hparser⟩ := (hp (fun _ _ => .fail .notCallable) .standard
    Registry.reachable_standard).2 "config".toList "port".toList htag rfl
  have hport : ((Value.node (.frozen [(.text "port", .int 80)])).resolve (.text "port")).result =
      .ok (.int 80) := by cbv
  exact ⟨p, hmake, hworld.trans hport, hparser⟩

/-- A world and a parser that is given the world need not agree. -/
theorem exists_make_world_evaluate_ne :
    ¬ ∀ (w : World Value), Table.has w.state (.text "config") = false →
        ∀ p, make w.toValue .null none = .ok p →
        ∀ (functions : Functions) (registry : Registry), registry.Reachable → ∀ s,
          (p.evaluate functions registry (.text s)).result =
            ((w.parser none).evaluate functions registry (.text s)).result := by
  obtain ⟨hworld, hparser⟩ :
      ((⟨.null, .node (.frozen [(.text "a", .int 1)]), none⟩ : Parser).evaluate
        (fun _ _ => .fail .notCallable) .standard (.text "config:a")).result = .ok (.int 1) ∧
      ((⟨.null, .dict [], none⟩ : Parser).evaluate
        (fun _ _ => .fail .notCallable) .standard (.text "config:a")).result = .ok .null := by
    constructor
    · cbv
    · cbv
  intro h
  have hagree := h ⟨[(.text "a", .int 1)], []⟩ rfl _ rfl (fun _ _ => .fail .notCallable)
    .standard Registry.reachable_standard "config:a"
  cases hparser.symm.trans (hagree.trans hworld)

end Tag.Parser

end LooseData
