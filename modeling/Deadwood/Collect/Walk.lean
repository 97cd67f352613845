import Deadwood.Collect.Uses
import Deadwood.Source.Summary

/-!
# The events of a module

`walk` goes over the statements of a module and lists what they define and use, in the order in
which they are written. It carries the imports and aliases along: an import binds for what follows,
in its function or else for the module, and an assignment of one known name to another in the
module's own code is an alias.

Nothing inside a function defines a symbol: functions and classes there belong to the outermost
function, and what is imported there is forgotten at its end.

* `Event` is a definition or a use.
* `functionEvent`, `classEvents` are the definitions of a function and of a class.
* `walk`, `walkAll`, `walkClauses` go over statements.
-/

namespace Deadwood.Collect

open Source (Expr Stmt Clause Parameters Summary summary)

/-- What a statement of a module tells. -/
inductive Event where
  /-- A definition, described up to the summary of its documentation; `top` is its name if it stands
  in the module's own code. -/
  | define (symbol : Symbol) (info : Meta) (doc : Summary) (top : Option String)
  | use (caller callee : Symbol) (line : Nat)
deriving Repr, Inhabited

/-- The uses in expressions, owned by the caller of the place. -/
def useEvents (p : Place) (n : Names) (es : List Expr) : List Event :=
  (usesAll p n es).map fun u => .use p.caller u.target u.line

/-! ## Definitions -/

/-- Whether a name is meant for internal use: it begins with an underscore, and does not begin and
end with two. -/
def isPrivate (name : String) : Bool :=
  Text.startsWith name "_" && !(Text.startsWith name "__" && Text.endsWith name "__")

/-- The visibility that a name has. -/
def visibilityOf (name : String) : String := if isPrivate name then "private" else "public"

/-- The dotted names of decorators. -/
def decoratorNames (decorators : List Expr) : List String := decorators.filterMap Expr.dotted?

/-- Whether the decorators say that a method gets no receiver. -/
def isStatic (decorators : List Expr) : Bool :=
  (decoratorNames decorators).any fun d => Dotted.last d = "staticmethod"

/-- The number of positional parameters, the receiver of a method not counted. -/
def arityOf (p : Place) (parameters : Parameters) (decorators : List Expr) : Nat :=
  let n := parameters.positional.length
  if p.inClass && !isStatic decorators then n - 1 else n

/-- The symbol of a function that is written at a place. -/
def functionSymbol (p : Place) (name : String) (parameters : Parameters) (decorators : List Expr) :
    Symbol :=
  ⟨p.scope, name, arityOf p parameters decorators⟩

/-- The definition of a function. -/
def functionEvent (p : Place) (line : Nat) (name : String) (parameters : Parameters)
    (decorators : List Expr) (body : List Stmt) : Event :=
  .define (functionSymbol p name parameters decorators)
    { visibility := visibilityOf name
      line := line
      kind := if p.inClass then "method" else "function"
      decorators := decoratorNames decorators
      implements := if p.inClass then (p.classes.head?.map (·.bases)).getD [] else [] }
    (summary body) (if p.atTop then some name else none)

/-- The decorators that make a class a record. -/
def recordDecorators : List String :=
  ["dataclass", "dataclasses.dataclass", "attr.s", "attr.attrs", "attrs.define", "attrs.frozen"]

/-- The bases that make a class a record. -/
def recordBases : List String :=
  ["NamedTuple", "typing.NamedTuple", "TypedDict", "typing.TypedDict"]

/-- Whether the fields of a class are initialized by its class statement alone. -/
def isRecord (decorators bases : List String) : Bool :=
  decorators.any recordDecorators.contains ||
    bases.any fun b => recordBases.contains b || recordBases.contains (Dotted.last b)

/-- The dotted names of the bases of a class that is written at a place. -/
def baseNames (p : Place) (n : Names) (bases : List Expr) : List String :=
  bases.filterMap fun b => b.dotted?.map fun d => (resolveDotted? p n d).getD d

/-- The names that the statements of a class define directly. -/
def memberNames (body : List Stmt) : List String := body.filterMap definedName?

/-- The class that is written at a place, seen from inside. -/
def enclosure (p : Place) (n : Names) (name : String) (bases : List Expr) (body : List Stmt) :
    Enclosure :=
  ⟨Dotted.below p.scope name, baseNames p n bases, memberNames body⟩

/-- The definitions of a class: the class and, for a record, the initializer of its fields, which
the class calls. -/
def classEvents (p : Place) (c : Enclosure) (line : Nat) (name : String) (decorators : List Expr)
    (body : List Stmt) : List Event :=
  let top := if p.atTop then some name else none
  let visibility := visibilityOf name
  let names := decoratorNames decorators
  .define (Symbol.classOf c.name)
    { visibility, line := line, kind := "class", decorators := names, implements := c.bases }
    (summary body) top ::
  if isRecord names c.bases then
    [.define (Symbol.fieldsOf c.name)
      { visibility, line := line, kind := "class", generated := true }
      .absent top,
     .use (Symbol.classOf c.name) (Symbol.fieldsOf c.name) line]
  else []

/-! ## Assignments -/

/-- The names that an assignment writes directly. -/
def assignedNames (targets : List Expr) : List String :=
  targets.filterMap fun
    | .name _ id _ => some id
    | _ => none

/-- Records that names of the module stand for another known name. -/
def aliasAssigned (p : Place) (n : Names) (targets : List Expr) (value : Expr) : Names :=
  if p.atTop then
    match value.reference?.bind (resolveDotted? p n) with
    | some target =>
      ((assignedNames targets).filter (!p.defined.contains ·)).foldl (fun n t => n.bindTop t target)
        n
    | none => n
  else n

/-- The parts of a declaration that are walked over; an annotation is no use. -/
def declaredParts : Expr → Option Expr → List Expr
  | .name .., value => value.toList
  | target, value => target :: value.toList

/-! ## Statements -/

mutual

/-- The events of a statement, and the names known behind it. -/
def walk (p : Place) (n : Names) : Stmt → List Event × Names
  | .function line name parameters decorators body =>
    let outer := useEvents p n (decorators ++ parameters.defaults ++ parameters.keywordDefaults)
    if p.inFunction then (outer ++ (walkAll p n.push body).1, n)
    else
      let inside := p.insideFunction (functionSymbol p name parameters decorators)
      (outer ++ functionEvent p line name parameters decorators body ::
        (walkAll inside n.push body).1, n)
  | .classDef line name bases keywords decorators body =>
    let outer := useEvents p n decorators
    if p.inFunction then
      let (events, n') := walkAll p n body
      (outer ++ useEvents p n (bases ++ keywords) ++ events, n')
    else
      let c := enclosure p n name bases body
      let inside := p.insideClass c
      let (events, n') := walkAll inside n body
      (outer ++ classEvents p c line name decorators body ++
        useEvents inside n (bases ++ keywords) ++ events, n')
  | .importModules names => ([], n.register p (.importModules names))
  | .importFrom level module names => ([], n.register p (.importFrom level module names))
  | .assign targets value =>
    let n' := aliasAssigned p n targets value
    (useEvents p n' (targets ++ [value]), n')
  | .augment target value => (useEvents p n [target, value], n)
  | .declare target _ value => (useEvents p n (declaredParts target value), n)
  | .evaluate value => (useEvents p n [value], n)
  | .simple parts => (useEvents p n parts, n)
  | .block _ clauses => walkClauses p n clauses

/-- The events of statements, one after the other, and the names known behind them. -/
def walkAll (p : Place) (n : Names) : List Stmt → List Event × Names
  | [] => ([], n)
  | s :: rest =>
    let (first, n') := walk p n s
    let (others, n'') := walkAll p n' rest
    (first ++ others, n'')

/-- The events of clauses, one after the other, and the names known behind them. -/
def walkClauses (p : Place) (n : Names) : List Clause → List Event × Names
  | [] => ([], n)
  | .mk header body :: rest =>
    let (first, n') := walkAll p n body
    let (others, n'') := walkClauses p n' rest
    (useEvents p n header ++ first ++ others, n'')

end

end Deadwood.Collect
