import Deadwood.Calendar
import Deadwood.Ignore.Spec
import Deadwood.Text.Integer
import Deadwood.Value

/-!
# Values of a configuration

A setting is what a configuration file or a caller may give for an option: plain data, whose objects
may have names of any kind, or one of the things that only a caller can supply, such as a compiled
pattern, a symbol or a predicate.

* `display` is the setting as messages show it; `isShown` says whether it can be shown at all.
* `same` and `before?` compare settings, as far as those that can name a field have an order.
-/

namespace Deadwood

/-- A value of a kind that nothing here looks into, such as bytes or a set. -/
structure Foreign where
  /-- Whether it counts as empty. -/
  isEmpty : Bool
  /-- The value as messages show it, if it can be shown. -/
  shown? : Option String
  /-- Its kind and where it stands in this kind, if there is an order. -/
  place? : Option (String × List Nat)
deriving Inhabited

/-- The strict order of two values; `none` where they have none. -/
def Foreign.before? (f g : Foreign) : Option Bool :=
  match f.place?, g.place? with
  | some (kind, x), some (kind', y) => if kind = kind' then some (x < y) else none
  | _, _ => none

/-- A value given in a configuration. -/
inductive Setting where
  | null
  | bool (b : Bool)
  | int (n : Int)
  | float (x : Binary64)
  | str (s : String)
  | list (items : List Setting)
  | tuple (items : List Setting)
  | dict (fields : List (Setting × Setting))
  /-- The integers from `start` up to but without `stop`, in steps. -/
  | range (start stop step : Int)
  | symbol (scope name arity : Setting)
  | pattern (p : Pattern)
  | spec (s : Ignore.Spec)
  | predicate (p : Ignore.Predicate)
  /-- A date, a time or both, by its kind and its parts, the largest first. -/
  | moment (kind : String) (parts : List Nat)
  | foreign (f : Foreign)
deriving Inhabited

namespace Setting

mutual

/-- Plain data as a setting. -/
def ofValue : Value → Setting
  | .null => .null
  | .bool b => .bool b
  | .int n => .int n
  | .float x => .float x
  | .str s => .str s
  | .list items => .list (ofItems items)
  | .dict fields => .dict (ofFields fields)

/-- The items of a list as settings. -/
def ofItems : List Value → List Setting
  | [] => []
  | v :: rest => ofValue v :: ofItems rest

/-- The fields of an object as settings. -/
def ofFields : List (String × Value) → List (Setting × Setting)
  | [] => []
  | (k, v) :: rest => (.str k, ofValue v) :: ofFields rest

end

/-- The items of a tuple in parentheses; a single one is followed by a comma. -/
def parenthesized : List String → String
  | [x] => "(" ++ x ++ ",)"
  | xs => "(" ++ ", ".intercalate xs ++ ")"

mutual

/-- The setting as messages show it. -/
def display : Setting → String
  | .null => "None"
  | .bool b => if b then "True" else "False"
  | .int n => toString n
  | .float x => x.text
  | .str s => Text.quoted s
  | .list items => "[" ++ ", ".intercalate (displayItems items) ++ "]"
  | .tuple items => parenthesized (displayItems items)
  | .dict fields => "\x7b" ++ ", ".intercalate (displayFields fields) ++ "\x7d"
  | .range start stop step =>
    "range(" ++ toString start ++ ", " ++ toString stop ++
      (if step = 1 then "" else ", " ++ toString step) ++ ")"
  | .symbol scope name arity =>
    "Symbol(scope=" ++ scope.display ++ ", name=" ++ name.display ++ ", arity=" ++ arity.display ++
      ")"
  | .pattern p => p.display
  | .spec s => s.display
  | .predicate p => p.shown
  | .moment kind parts => Calendar.called kind parts
  | .foreign f => f.shown?.getD ""

/-- The items of a list, each as messages show it. -/
def displayItems : List Setting → List String
  | [] => []
  | v :: rest => v.display :: displayItems rest

/-- The fields of an object, each as messages show it. -/
def displayFields : List (Setting × Setting) → List String
  | [] => []
  | (k, v) :: rest => (k.display ++ ": " ++ v.display) :: displayFields rest

end

/-- The setting as plain text: a text stands for itself, all else is displayed. -/
def text : Setting → String
  | .str s => s
  | v => v.display

mutual

/-- Whether the setting can be shown: a number with too many digits cannot. -/
def isShown : Setting → Bool
  | .int n => Text.isShort n
  | .list items | .tuple items => areShown items
  | .dict fields => fieldsAreShown fields
  | .range start stop step => Text.isShort start && Text.isShort stop && Text.isShort step
  | .symbol scope name arity => scope.isShown && name.isShown && arity.isShown
  | .spec s => s.isShown
  | .foreign f => f.shown?.isSome
  | .null | .bool _ | .float _ | .str _ | .pattern _ | .predicate _ | .moment .. => true

/-- Whether all items of a list can be shown. -/
def areShown : List Setting → Bool
  | [] => true
  | v :: rest => v.isShown && areShown rest

/-- Whether all fields of an object can be shown. -/
def fieldsAreShown : List (Setting × Setting) → Bool
  | [] => true
  | (k, v) :: rest => k.isShown && v.isShown && fieldsAreShown rest

end

/-! ## Comparison -/

/-- The number that a setting stands for. -/
def number? : Setting → Option (Int ⊕ Binary64)
  | .bool b => some (.inl (if b then 1 else 0))
  | .int n => some (.inl n)
  | .float x => some (.inr x)
  | _ => none

mutual

/-- Equality across kinds: numbers and booleans by magnitude, tuples and symbols part by part, and
what has no parts by the way it is shown. -/
def same : Setting → Setting → Bool
  | .str s, .str t => s = t
  | .tuple xs, .tuple ys => sameItems xs ys
  | .symbol scope name arity, .symbol scope' name' arity' =>
    scope.same scope' && name.same name' && arity.same arity'
  | v, w =>
    match v.number?, w.number? with
    | some x, some y => Value.compareNumbers x y == some .eq
    | none, none => v.display = w.display
    | _, _ => false

/-- Equality of tuples, item by item. -/
def sameItems : List Setting → List Setting → Bool
  | [], [] => true
  | v :: rest, w :: rest' => v.same w && sameItems rest rest'
  | _, _ => false

end

mutual

/-- The strict order of two settings; `none` where they have none. -/
def before? : Setting → Setting → Option Bool
  | .str s, .str t => some (s < t)
  | .tuple xs, .tuple ys => beforeItems? xs ys
  | .symbol scope name arity, .symbol scope' name' arity' =>
    if !scope.same scope' then scope.before? scope'
    else if !name.same name' then name.before? name'
    else if !arity.same arity' then arity.before? arity'
    else some false
  | .moment kind parts, .moment kind' parts' => if kind = kind' then some (parts < parts') else none
  | .foreign f, .foreign g => f.before? g
  | v, w => do
    let x ← v.number?
    let y ← w.number?
    pure (Value.compareNumbers x y == some .lt)

/-- The strict order of two tuples: the first unequal items decide, else the length. -/
def beforeItems? : List Setting → List Setting → Option Bool
  | [], [] => some false
  | [], _ :: _ => some true
  | _ :: _, [] => some false
  | v :: rest, w :: rest' => if v.same w then beforeItems? rest rest' else v.before? w

end

/-- The value under a name of an object. -/
def field? (fields : List (Setting × Setting)) (name : String) : Option Setting :=
  (fields.find? fun f => match f.1 with
    | .str k => k = name
    | _ => false).map (·.2)

end Setting

end Deadwood
