import Deadwood.Number.Shortest
import Deadwood.Text.Quoted

/-!
# Values of data files

`Value` is what a JSON document holds. Fields of an object keep their order, and every field name
occurs once in a value that was read from a text.

* `truthy` is the value as a condition: empty and zero values are false.
* `display` is the value as messages show it, `text` the same but with texts unquoted.
* `same` and `before?` compare values across kinds: numbers and booleans by magnitude, texts and
  lists lexicographically; other pairs have no order.
-/

namespace Deadwood

/-- A value of a data file. -/
inductive Value where
  | null
  | bool (b : Bool)
  | int (n : Int)
  | float (x : Binary64)
  | str (s : String)
  | list (items : List Value)
  | dict (fields : List (String × Value))
deriving Repr, BEq, Inhabited

namespace Value

/-- The value at a field name. -/
def field? (fields : List (String × Value)) (name : String) : Option Value :=
  (fields.find? (·.1 = name)).map (·.2)

/-- The value at a field name of an object. -/
def get? (v : Value) (name : String) : Option Value :=
  match v with
  | .dict fields => field? fields name
  | _ => none

/-- The value as a condition. -/
def truthy : Value → Bool
  | .null => false
  | .bool b => b
  | .int n => n ≠ 0
  | .float x => !x.isZero
  | .str s => !s.isEmpty
  | .list items => !items.isEmpty
  | .dict fields => !fields.isEmpty

/-! ## Display -/

mutual

/-- The value as messages show it. -/
def display : Value → String
  | .null => "None"
  | .bool b => if b then "True" else "False"
  | .int n => toString n
  | .float x => x.text
  | .str s => Text.quoted s
  | .list items => "[" ++ ", ".intercalate (displayItems items) ++ "]"
  | .dict fields => "\x7b" ++ ", ".intercalate (displayFields fields) ++ "\x7d"

/-- The items of a list, each as messages show it. -/
def displayItems : List Value → List String
  | [] => []
  | v :: rest => v.display :: displayItems rest

/-- The fields of an object, each as messages show it. -/
def displayFields : List (String × Value) → List String
  | [] => []
  | (k, v) :: rest => (Text.quoted k ++ ": " ++ v.display) :: displayFields rest

end

/-- The value as plain text: a text stands for itself, all else is displayed. -/
def text : Value → String
  | .str s => s
  | v => v.display

/-! ## Comparison -/

/-- The number that a value stands for, as a double or an integer. -/
def number? : Value → Option (Int ⊕ Binary64)
  | .bool b => some (.inl (if b then 1 else 0))
  | .int n => some (.inl n)
  | .float x => some (.inr x)
  | _ => none

/-- Exact comparison of numbers. -/
def compareNumbers : Int ⊕ Binary64 → Int ⊕ Binary64 → Option Ordering
  | .inl a, .inl b => some (compare a b)
  | .inl a, .inr y => (y.compareInt? a).map Ordering.swap
  | .inr x, .inl b => x.compareInt? b
  | .inr x, .inr y => x.compare? y

mutual

/-- Equality across kinds: numbers and booleans are equal when their magnitudes are. -/
def same : Value → Value → Bool
  | .null, .null => true
  | .str a, .str b => a = b
  | .list xs, .list ys => sameItems xs ys
  | .dict xs, .dict ys => xs.length = ys.length && sameFields xs ys
  | a, b =>
    match a.number?, b.number? with
    | some x, some y => compareNumbers x y == some .eq
    | _, _ => false

/-- Equality of lists, item by item. -/
def sameItems : List Value → List Value → Bool
  | [], [] => true
  | x :: xs, y :: ys => x.same y && sameItems xs ys
  | _, _ => false

/-- Whether every field on the left has an equal partner on the right. -/
def sameFields : List (String × Value) → List (String × Value) → Bool
  | [], _ => true
  | (k, v) :: rest, ys =>
    (match field? ys k with
      | some w => v.same w
      | none => false) && sameFields rest ys

end

mutual

/-- The strict order of two values; `none` where they have none. -/
def before? : Value → Value → Option Bool
  | .str a, .str b => some (a < b)
  | .list xs, .list ys => beforeItems? xs ys
  | a, b => do
    let x ← a.number?
    let y ← b.number?
    pure (compareNumbers x y == some .lt)

/-- The strict order of two lists: the first unequal items decide, else the length. -/
def beforeItems? : List Value → List Value → Option Bool
  | [], [] => some false
  | [], _ :: _ => some true
  | _ :: _, [] => some false
  | x :: xs, y :: ys => if x.same y then beforeItems? xs ys else x.before? y

end

end Value

end Deadwood
