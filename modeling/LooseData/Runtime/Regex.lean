import LooseData.Pattern
import LooseData.Text.Alike
import LooseData.Text.Blank
import LooseData.Text.Digit
import LooseData.Text.Word

set_option autoImplicit false

/-! # Matching patterns

Only one question is put to a pattern: does it match somewhere in a text? So `Regex.ends` lists the
places where a match that starts at a given place can end, in the order of preference among
alternatives. The order matters only to an expression that has to stay with the first way in which
it matches. Counted repetition, names and looking around are not read.
-/

namespace LooseData

/-- The classes of characters with a name of their own. -/
inductive Regex.CharClass where
  | digit
  | word
  | blank
deriving DecidableEq

/-- A member of a character set. -/
inductive Regex.SetItem where
  /-- A character that is listed beside other members. -/
  | char (c : Char)
  | range (first last : Char)
  | named (cls : Regex.CharClass) (negated : Bool)
deriving DecidableEq

/-- Regular expressions. -/
inductive Regex where
  | empty
  | char (c : Char)
  | any
  | start
  | finish
  | set (negated : Bool) (items : List Regex.SetItem)
  | both (first second : Regex)
  | either (left right : Regex)
  /-- The body once or more often, as often as possible or as seldom as possible first. -/
  | repeated (greedy : Bool) (body : Regex)
  /-- The body in the first way that it matches, with no other way tried after it. -/
  | settled (body : Regex)

namespace Regex

/-- A place in a text: the characters that follow it. -/
abbrev Place := List Char

/-! ## Reading an expression -/

/-- The set that an escaped class letter stands for. -/
def classOf : Char → Option SetItem
  | 'd' => some (.named .digit false)
  | 'D' => some (.named .digit true)
  | 'w' => some (.named .word false)
  | 'W' => some (.named .word true)
  | 's' => some (.named .blank false)
  | 'S' => some (.named .blank true)
  | _ => none

/-- The character that a backslash before `c` stands for. -/
def escaped : Char → Char
  | 'n' => '\n'
  | 't' => '\t'
  | 'r' => '\r'
  | c => c

/-- The items of a character set up to its closing bracket, which may stand for itself in
first place. -/
def setItems : Nat → Bool → List Char → Option (List SetItem × List Char)
  | 0, _, _ => none
  | _ + 1, _, [] => none
  | fuel + 1, first, c :: rest =>
    if c = ']' ∧ first = false then some ([], rest)
    else
      let low : SetItem ⊕ Char × List Char := match c, rest with
        | '\\', e :: more => match classOf e with
          | some item => .inl item
          | none => .inr (escaped e, more)
        | _, _ => .inr (c, rest)
      match low with
      | .inl item => do
        let (items, after) ← setItems fuel false (rest.drop 1)
        some (item :: items, after)
      | .inr (lo, more) =>
        match more with
        | '-' :: hi :: after =>
          if hi = ']' then do
            let (items, after) ← setItems fuel false more
            some (.char lo :: items, after)
          else do
            let (hi, after) := if hi = '\\' then
              (escaped (after.headD '\\'), after.drop 1) else (hi, after)
            let (items, after) ← setItems fuel false after
            some (.range lo hi :: items, after)
        | _ => do
          let (items, after) ← setItems fuel false more
          some (.char lo :: items, after)

/-- The repetition of a body that a mark stands for. -/
def repetition (mark : Char) (greedy : Bool) (body : Regex) : Regex :=
  let once : Regex := if mark = '?' then body else .repeated greedy body
  if mark = '+' then once
  else if greedy then .either once .empty
  else .either .empty once

/-- An expression with the repetition mark that follows it. A question mark behind the mark makes
the repetition lazy, and a plus sign settles it. -/
def withRepetition (body : Regex) : List Char → Regex × List Char
  | mark :: rest =>
    if mark = '+' ∨ mark = '*' ∨ mark = '?' then
      match rest with
      | '?' :: rest => (repetition mark false body, rest)
      | '+' :: rest => (.settled (repetition mark true body), rest)
      | rest => (repetition mark true body, rest)
    else (body, mark :: rest)
  | [] => (body, [])

/-- The set of the given members. A character that is the only member is a range of its own. -/
def setOf (negated : Bool) (items : List SetItem) : Regex :=
  match items.eraseDups with
  | [.char c] => .set negated [.range c c]
  | items => .set negated items

mutual

/-- Alternatives separated by bars. -/
def alternatives : Nat → List Char → Option (Regex × List Char)
  | 0, _ => none
  | fuel + 1, cs => do
    let (left, rest) ← sequence fuel cs
    match rest with
    | '|' :: more => do
      let (right, rest) ← alternatives fuel more
      some (.either left right, rest)
    | _ => some (left, rest)

/-- A sequence of items, up to a bar, a closing parenthesis or the end. -/
def sequence : Nat → List Char → Option (Regex × List Char)
  | 0, _ => none
  | _ + 1, [] => some (.empty, [])
  | fuel + 1, c :: rest =>
    if c = '|' ∨ c = ')' then some (.empty, c :: rest)
    else do
      let (item, more) ← single fuel c rest
      let (item, more) := withRepetition item more
      let (tail, after) ← sequence fuel more
      some (.both item tail, after)

/-- One item that starts with the given character. -/
def single : Nat → Char → List Char → Option (Regex × List Char)
  | 0, _, _ => none
  | _ + 1, '.', rest => some (.any, rest)
  | _ + 1, '^', rest => some (.start, rest)
  | _ + 1, '$', rest => some (.finish, rest)
  | fuel + 1, '(', rest => do
    let inner := match rest with
      | '?' :: ':' :: more => more
      | _ => rest
    let (body, after) ← alternatives fuel inner
    match after with
    | ')' :: more => some (body, more)
    | _ => none
  | fuel + 1, '[', rest =>
    let (negated, inner) := match rest with
      | '^' :: more => (true, more)
      | _ => (false, rest)
    (setItems fuel true inner).map fun (items, after) => (setOf negated items, after)
  | _ + 1, '\\', c :: rest =>
    match classOf c with
    | some item => some (.set false [item], rest)
    | none => some (.char (escaped c), rest)
  | _ + 1, c, rest => some (.char c, rest)

end

/-- The expression that a text denotes, if it is well formed. -/
def ofText? (source : String) : Option Regex :=
  let cs := source.toList
  match alternatives (3 * cs.length + 3) cs with
  | some (r, []) => some r
  | _ => none

/-! ## Matching -/

/-- Whether a character of the text matches a character of the expression. -/
def sameChar (ignoreCase : Bool) (wanted c : Char) : Bool :=
  if ignoreCase then (Text.alike c).contains wanted else wanted == c

/-- Whether a character belongs to a class. -/
def CharClass.holds (c : Char) : CharClass → Bool
  | .digit => Text.isDecimal c
  | .word => Text.isWord c
  | .blank => Text.isBlank c

/-- Whether a character matches a member of a set. Where letter case is irrelevant, a listed
character beyond the first 65536 is still compared as it stands with the folded form. -/
def SetItem.holds (ignoreCase : Bool) (c : Char) : SetItem → Bool
  | .named cls negated => CharClass.holds c cls != negated
  | .char wanted =>
    if ignoreCase && 0x10000 ≤ wanted.toNat then wanted == Text.foldChar c
    else sameChar ignoreCase wanted c
  | .range first last =>
    (if ignoreCase then Text.alike c else [c]).any fun x => first ≤ x && x ≤ last

/-- A place added to the places reached, unless it is among them. -/
def note (reached : List Place) (place : Place) : List Place :=
  if reached.contains place then reached else reached ++ [place]

/-- Add to the places reached those that one step or several lead to from a place, as long as
every step but the last takes a character. A greedy repetition prefers the places further on, a
lazy one those before them. -/
def reach (step : Place → List Place) (greedy : Bool) :
    (fuel : Nat) → (reached : List Place) → Place → List Place
  | 0, reached, _ => reached
  | fuel + 1, reached, here =>
    (step here).foldl (fun reached next =>
      if reached.contains next then reached
      else if here.length ≤ next.length then note reached next
      else if greedy then note (reach step greedy fuel reached next) next
      else reach step greedy fuel (note reached next) next) reached

/-- The places where a match can end that starts at `here`, in a text of `total` characters, in
the order in which they are tried. -/
def ends (ignoreCase : Bool) (total : Nat) : Regex → Place → List Place
  | .empty, here => [here]
  | .char wanted, here => match here with
    | c :: rest => if sameChar ignoreCase wanted c then [rest] else []
    | [] => []
  | .any, here => match here with
    | c :: rest => if c = '\n' then [] else [rest]
    | [] => []
  | .start, here => if here.length = total then [here] else []
  | .finish, here => if here = [] ∨ here = ['\n'] then [here] else []
  | .set negated items, here => match here with
    | c :: rest =>
      if (items.any fun item => SetItem.holds ignoreCase c item) != negated then [rest] else []
    | [] => []
  | .both first second, here =>
    ((ends ignoreCase total first here).flatMap (ends ignoreCase total second)).eraseDups
  | .either left right, here =>
    (ends ignoreCase total left here ++ ends ignoreCase total right here).eraseDups
  | .repeated greedy body, here =>
    reach (ends ignoreCase total body) greedy (here.length + 1) [] here
  | .settled body, here => (ends ignoreCase total body here).take 1

/-- The places of a text, from its start to its end. -/
def places : List Char → List Place
  | [] => [[]]
  | c :: rest => (c :: rest) :: places rest

/-- Whether a pattern matches somewhere in a text. A source that is no expression matches
nowhere. -/
def matcher : Matcher := fun p text =>
  match ofText? p.source with
  | none => false
  | some r =>
    let cs := text.toList
    (places cs).any fun here => !(r.ends p.ignoreCase cs.length here).isEmpty

end Regex

end LooseData
