import LooseData.Atom

set_option autoImplicit false

/-! # Keys of mappings

A mapping can hold every atom and every tuple of keys as a key. Keys are looked up by their
canonical form: `1`, `1.0` and `true` are one key. So sameness of keys is an equivalence, and a
`Table` is a list of entries no two of which have the same key.
-/

namespace LooseData

/-- A key: an atom or a tuple of keys. -/
inductive Key where
  | atom (a : Atom)
  | tuple (items : List Key)

namespace Key

mutual

/-- Equality of keys is decidable. -/
def decEq : (a b : Key) → Decidable (a = b)
  | .atom a, .atom b =>
    if h : a = b then isTrue (congrArg Key.atom h)
    else isFalse fun e => h (Key.atom.inj e)
  | .tuple as, .tuple bs =>
    match decEqList as bs with
    | isTrue h => isTrue (congrArg Key.tuple h)
    | isFalse h => isFalse fun e => h (Key.tuple.inj e)
  | .atom _, .tuple _ => isFalse nofun
  | .tuple _, .atom _ => isFalse nofun

/-- Equality of lists of keys is decidable. -/
def decEqList : (as bs : List Key) → Decidable (as = bs)
  | [], [] => isTrue rfl
  | a :: as, b :: bs =>
    match decEq a b, decEqList as bs with
    | isTrue h, isTrue hs => isTrue (by rw [h, hs])
    | isFalse h, _ => isFalse fun e => h (List.cons.inj e).1
    | _, isFalse hs => isFalse fun e => hs (List.cons.inj e).2
  | [], _ :: _ => isFalse nofun
  | _ :: _, [] => isFalse nofun

end

instance : DecidableEq Key := decEq

/-- The key of a text. -/
def text (s : String) : Key := .atom (.text s)

/-- The key of a whole number. -/
def int (i : Int) : Key := .atom (.int i)

mutual

/-- The representative of the keys that are the same for a mapping. -/
def canon : Key → Key
  | .atom a => .atom a.canon
  | .tuple items => .tuple (canonList items)

/-- The representatives of the keys of a list. -/
def canonList : List Key → List Key
  | [] => []
  | k :: ks => canon k :: canonList ks

end

/-- Whether a mapping treats two keys as one. -/
def same (a b : Key) : Bool := a.canon == b.canon

theorem same_iff {a b : Key} : a.same b = true ↔ a.canon = b.canon := by
  simp [same]

@[simp]
theorem same_refl (a : Key) : a.same a = true := by
  simp [same]

theorem same_comm (a b : Key) : a.same b = b.same a := by
  simp only [same, BEq.comm]

theorem same_trans {a b c : Key} (h : a.same b = true) (h' : b.same c = true) :
    a.same c = true := by
  rw [same_iff] at *
  exact h.trans h'

end Key

/-! ## Tables -/

/-- The entries of a mapping in the order in which their keys were first set. -/
abbrev Table (α : Type) := List (Key × α)

namespace Table

variable {α : Type}

/-- The value stored under a key. -/
def get? : Table α → Key → Option α
  | [], _ => none
  | (k, v) :: rest, key => if k.same key then some v else get? rest key

/-- Set a key. A key that is present keeps its place and its form and gets the new value; a
new key goes to the end. -/
def set : Table α → Key → α → Table α
  | [], key, value => [(key, value)]
  | (k, v) :: rest, key, value =>
    if k.same key then (k, value) :: rest else (k, v) :: set rest key value

/-- The table without a key. -/
def erase (t : Table α) (key : Key) : Table α := t.filter fun e => !e.1.same key

/-- The keys in order. -/
def keys (t : Table α) : List Key := t.map Prod.fst

/-- The table that results from setting the given entries one after another. -/
def ofList (entries : List (Key × α)) : Table α :=
  entries.foldl (fun t e => set t e.1 e.2) []

/-- No two entries have the same key. -/
def Distinct (t : Table α) : Prop := t.Pairwise fun a b => a.1.same b.1 = false

/-- Whether the table has an entry for a key. -/
def has (t : Table α) (key : Key) : Bool := (t.get? key).isSome

end Table

end LooseData
