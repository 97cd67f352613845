/-!
# Tokens of Python source

A source text is a list of tokens: names, keywords, literals, operators and delimiters, and the
marks of its layout (the end of a logical line, one step of indentation in or out). Every token
knows the line on which it begins.
-/

namespace Deadwood.Source

/-- How a text literal is marked. -/
structure Quotation where
  /-- Backslashes stand for themselves. -/
  raw : Bool := false
  /-- The literal is a sequence of bytes. -/
  bytes : Bool := false
  /-- The literal has replacement fields. -/
  formatted : Bool := false
deriving Repr, DecidableEq, Inhabited

/-- What a token is. -/
inductive Lexeme where
  | name (id : String)
  | keyword (word : String)
  | number (imaginary : Bool)
  /-- A text literal with the characters between its quotes. -/
  | quote (form : Quotation) (body : List Char)
  /-- An operator or delimiter. -/
  | mark (symbol : String)
  | newline
  | indent
  | dedent
deriving Repr, DecidableEq, Inhabited

/-- A lexeme and the line on which it begins. -/
structure Token where
  lexeme : Lexeme
  line : Nat
deriving Repr, DecidableEq, Inhabited

/-- The reserved words. -/
def keywords : List String := [
  "False", "None", "True", "and", "as", "assert", "async", "await", "break", "class", "continue",
  "def", "del", "elif", "else", "except", "finally", "for", "from", "global", "if", "import", "in",
  "is", "lambda", "nonlocal", "not", "or", "pass", "raise", "return", "try", "while", "with",
  "yield"]

/-- The operators and delimiters, longer ones first. -/
def marks : List String := [
  "**=", "//=", ">>=", "<<=", "...",
  "!=", "%=", "&=", "**", "*=", "+=", "-=", "->", "//", "/=", ":=", "<<", "<=", "<>", "==", ">=",
  ">>", "@=", "^=", "|=",
  "%", "&", "(", ")", "*", "+", ",", "-", ".", "/", ":", ";", "<", "=", ">", "@", "[", "]", "^",
  "\x7b", "|", "\x7d", "~"]

end Deadwood.Source
