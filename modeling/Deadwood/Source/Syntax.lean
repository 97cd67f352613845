/-!
# Syntax trees of Python modules

The trees keep what an analysis of calls can see: names, attributes, calls, and the statements that
introduce names. Expressions that only combine others are one constructor, `Expr.compound`, and so
are the statements that only hold blocks, `Stmt.block`; their parts stand in the order in which they
are walked.

* `Expr` and `Stmt` are the trees.
* `Expr.depth` and `Stmt.depth` measure how deeply a tree is nested.
-/

namespace Deadwood.Source

/-! ## Expressions -/

/-- What is done with the value of a name or place. -/
inductive Use where
  | load
  | store
deriving Repr, DecidableEq, Inhabited

/-- The expressions that only combine other expressions. -/
inductive Form where
  | boolean
  | named
  | binary
  | unary
  | conditional
  | dict
  | comprehension
  | await
  | yield
  | comparison
  | formatted
  | joined
  | slice
deriving Repr, DecidableEq, Inhabited

/-- An expression. Names, attributes and calls know the line on which they begin. -/
inductive Expr where
  | name (line : Nat) (id : String) (use : Use)
  | member (line : Nat) (value : Expr) (field : String) (use : Use)
  /-- A call with its arguments and the values of its keyword arguments. -/
  | call (line : Nat) (function : Expr) (arguments : List Expr) (keywords : List Expr)
  | subscript (value : Expr) (index : Expr)
  | text (value : String)
  /-- A constant other than a text. -/
  | constant
  | starred (value : Expr)
  | tuple (items : List Expr)
  | list (items : List Expr)
  | set (items : List Expr)
  /-- A nameless function: the defaults of its keyword parameters, those of its other parameters,
  and its body. -/
  | lambda (keywordDefaults : List Expr) (defaults : List Expr) (body : Expr)
  | compound (form : Form) (parts : List Expr)
deriving Repr, Inhabited

namespace Expr

mutual

/-- The length of the longest chain of expressions, each a part of the one before. -/
def depth : Expr → Nat
  | .name .. => 1
  | .member _ value _ _ => value.depth + 1
  | .call _ function arguments keywords =>
    max function.depth (max (depthAll arguments) (depthAll keywords)) + 1
  | .subscript value index => max value.depth index.depth + 1
  | .text _ => 1
  | .constant => 1
  | .starred value => value.depth + 1
  | .tuple items => depthAll items + 1
  | .list items => depthAll items + 1
  | .set items => depthAll items + 1
  | .lambda keywordDefaults defaults body =>
    max (depthAll keywordDefaults) (max (depthAll defaults) body.depth) + 1
  | .compound _ parts => depthAll parts + 1

/-- The greatest depth of some expressions. -/
def depthAll : List Expr → Nat
  | [] => 0
  | e :: rest => max e.depth (depthAll rest)

end

end Expr

/-! ## Statements -/

/-- The parameters of a function. -/
structure Parameters where
  positional : List String := []
  defaults : List Expr := []
  keywordDefaults : List Expr := []
  /-- The annotations of the parameters and of the result. -/
  hints : List Expr := []
deriving Repr, Inhabited

/-- An imported name and the name that it gets here. -/
structure Import where
  name : String
  rename : Option String := none
deriving Repr, DecidableEq, Inhabited

/-- The statements that only hold blocks. -/
inductive BlockForm where
  | branch
  | loop
  | resource
  | attempt
  | select
deriving Repr, DecidableEq, Inhabited

mutual

/-- A statement. Definitions know the line on which they begin. -/
inductive Stmt where
  | function (line : Nat) (name : String) (parameters : Parameters) (decorators : List Expr)
      (body : List Stmt)
  | classDef (line : Nat) (name : String) (bases : List Expr) (keywords : List Expr)
      (decorators : List Expr) (body : List Stmt)
  | importModules (names : List Import)
  /-- An import from a module; the level is the number of dots in front of the module's name. -/
  | importFrom (level : Nat) (module : String) (names : List Import)
  | assign (targets : List Expr) (value : Expr)
  | augment (target : Expr) (value : Expr)
  /-- A declaration with its annotation. -/
  | declare (target hint : Expr) (value : Option Expr)
  /-- A statement that is an expression. -/
  | evaluate (value : Expr)
  /-- A statement that only uses expressions, such as a return. -/
  | simple (parts : List Expr)
  | block (form : BlockForm) (clauses : List Clause)

/-- A part of a statement: expressions and the statements that they govern. -/
inductive Clause where
  | mk (header : List Expr) (body : List Stmt)

end

deriving instance Inhabited for Clause
deriving instance Inhabited for Stmt

mutual

/-- The length of the longest chain of statements and expressions, each a part of the one before;
annotations do not count. -/
def Stmt.depth : Stmt → Nat
  | .function _ _ parameters decorators body =>
    max (Expr.depthAll decorators) (max (Expr.depthAll parameters.defaults)
      (max (Expr.depthAll parameters.keywordDefaults) (Stmt.depthAll body))) + 1
  | .classDef _ _ bases keywords decorators body =>
    max (Expr.depthAll decorators) (max (Expr.depthAll bases)
      (max (Expr.depthAll keywords) (Stmt.depthAll body))) + 1
  | .importModules _ => 1
  | .importFrom .. => 1
  | .assign targets value => max (Expr.depthAll targets) value.depth + 1
  | .augment target value => max target.depth value.depth + 1
  | .declare target _ value => max target.depth (Expr.depthAll value.toList) + 1
  | .evaluate value => value.depth + 1
  | .simple parts => Expr.depthAll parts + 1
  | .block _ clauses => Clause.depthAll clauses + 1

/-- The greatest depth of some statements. -/
def Stmt.depthAll : List Stmt → Nat
  | [] => 0
  | s :: rest => max s.depth (Stmt.depthAll rest)

/-- The depth of a clause. -/
def Clause.depth : Clause → Nat
  | .mk header body => max (Expr.depthAll header) (Stmt.depthAll body)

/-- The greatest depth of some clauses. -/
def Clause.depthAll : List Clause → Nat
  | [] => 0
  | c :: rest => max c.depth (Clause.depthAll rest)

end

end Deadwood.Source
