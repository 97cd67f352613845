import Deadwood.Dotted
import Deadwood.Finding
import Deadwood.Graph.Basic
import Deadwood.Text.Case

/-!
# Drawing the call graph

The defined symbols of a call graph and the calls between them as a DOT document. The symbols of a
module form a cluster; a symbol is coloured by what was found about it, and a call is dashed when
its caller is not reached.

* `Dot.quoteId` writes an identifier, `Dot.quoteEnd` the end of an edge.
* `clusterOf` is the module whose cluster a symbol belongs to.
* `drawing` lists the node and edge statements, `Drawing.text` writes the document.
-/

namespace Deadwood

namespace Dot

/-- Whether a text is a plain name. -/
def isPlainName : List Char → Bool
  | [] => false
  | c :: rest => (c.isAlpha || c = '_') && rest.all fun d => d.isAlphanum || d = '_'

/-- Whether a text is a number without a sign. -/
def isUnsigned (cs : List Char) : Bool :=
  match cs.span Char.isDigit with
  | ([], '.' :: rest) => !rest.isEmpty && rest.all Char.isDigit
  | ([], _) => false
  | (_, []) => true
  | (_, '.' :: rest) => rest.all Char.isDigit
  | _ => false

/-- Whether a text is a number. -/
def isNumber : List Char → Bool
  | '-' :: rest => isUnsigned rest
  | cs => isUnsigned cs

/-- Whether a text is written in angle brackets. -/
def isAngled (cs : List Char) : Bool :=
  2 ≤ cs.length && cs.head? = some '<' && cs.getLast? = some '>'

/-- The words that mean something in a document. -/
def reserved : List String := ["node", "edge", "graph", "digraph", "subgraph", "strict"]

/-- Puts a backslash before every double quote that has none; `odd` says whether an odd number of
backslashes stands before. -/
def escapeQuotes (odd : Bool) : List Char → List Char
  | [] => []
  | '\\' :: rest => '\\' :: escapeQuotes (!odd) rest
  | '"' :: rest =>
    if odd then '"' :: escapeQuotes false rest else '\\' :: '"' :: escapeQuotes false rest
  | c :: rest => c :: escapeQuotes false rest

/-- An identifier as it is written. -/
def quoteId (s : String) : String :=
  let cs := s.toList
  if isAngled cs then s
  else if (isPlainName cs || isNumber cs) && !reserved.contains (Text.lower s) then s
  else .ofList ('"' :: escapeQuotes false cs ++ ['"'])

/-- The end of an edge as it is written; behind colons stand a field of the node and a direction. -/
def quoteEnd (s : String) : String :=
  match Text.cutFirst ':' s with
  | none => quoteId s
  | some (node, rest) =>
    if rest = "" then quoteId node
    else match Text.cutFirst ':' rest with
      | none => quoteId node ++ ":" ++ quoteId rest
      | some (field, compass) =>
        quoteId node ++ ":" ++ quoteId field ++ if compass = "" then "" else ":" ++ compass

/-- Attributes as they are written. -/
def attributes (pairs : List (String × String)) : String :=
  " ".intercalate (pairs.map fun p => quoteId p.1 ++ "=" ++ quoteId p.2)

end Dot

/-! ## What is drawn -/

/-- What a symbol shows in the drawing. -/
def Symbol.label (s : Symbol) : String :=
  if s.name = bodyName then "📄 " ++ s.scope
  else if s.name = recordName then
    let short := Dotted.last s.scope
    if s.arity = 0 then "📦 " ++ short else short ++ "\x7b...\x7d"
  else s.signature

/-- The colour of a symbol with findings of the given kinds. -/
def fillColor (kinds : List FindingKind) (isLive : Bool) : String :=
  if kinds.contains .recursiveOnly then "#FF9800"
  else if kinds.contains .unused then "#F44336"
  else if kinds.contains .narrowable then "#FFC107"
  else if isLive then "#4CAF50"
  else "#FFFFFF"

/-- The longest beginning of a scope that is a module, or else the whole scope. -/
def clusterOf (modules : List String) (scope : String) : String :=
  (((Dotted.enclosing scope).filter (· ≠ "")).find? modules.contains).getD scope

/-- A node of the drawing. -/
structure DrawnNode where
  symbol : Symbol
  color : String
deriving Repr, DecidableEq, Inhabited

/-- An edge of the drawing. -/
structure DrawnEdge where
  caller : Symbol
  callee : Symbol
  /-- Whether its caller is reached. -/
  isLive : Bool
deriving Repr, DecidableEq, Inhabited

/-- A drawing: clusters of nodes, in the order of their names, and edges. -/
structure Drawing where
  title : String
  clusters : List (String × List DrawnNode)
  edges : List DrawnEdge
deriving Repr, Inhabited

/-- The drawing of a call graph. -/
def drawing (g : ProjectGraph) (findings : List Finding) (live : List Symbol) (title : String) :
    Drawing :=
  let modules := (g.definitions.filter (·.name = Symbol.bodyName)).map (·.scope)
  let node (s : Symbol) : DrawnNode :=
    ⟨s, fillColor ((findings.filter (·.symbol = s)).map (·.kind)) (live.contains s)⟩
  let clusters : Table String (List DrawnNode) := g.definitions.foldl
    (fun t s => t.update (clusterOf modules s.scope) fun old => old.getD [] ++ [node s]) ∅
  { title := if title = "" then "Call Graph" else title
    clusters := clusters.entries.mergeSort fun a b => a.1 ≤ b.1
    edges := (g.sortedEdges.filter fun e => g.isDefined e.1 && g.isDefined e.2).map fun e =>
      ⟨e.1, e.2, live.contains e.1⟩ }

/-! ## The document -/

namespace Drawing

/-- The line of a node. -/
def nodeLine (n : DrawnNode) : String :=
  "\t\t" ++ Dot.quoteId n.symbol.text ++ " [" ++
    Dot.attributes [("label", n.symbol.label), ("fillcolor", n.color)] ++ "]\n"

/-- The line of an edge. -/
def edgeLine (e : DrawnEdge) : String :=
  "\t" ++ Dot.quoteEnd e.caller.text ++ " -> " ++ Dot.quoteEnd e.callee.text ++ " [" ++
    Dot.attributes (if e.isLive then [("color", "black"), ("style", "solid")]
      else [("color", "#BBBBBB"), ("style", "dashed")]) ++ "]\n"

/-- The lines of a cluster. -/
def clusterLines (c : String × List DrawnNode) : String :=
  "\tsubgraph " ++ Dot.quoteId ("cluster_" ++ c.1) ++ " \x7b\n\t\t" ++
    Dot.attributes [("color", "#999999"), ("label", c.1), ("style", "dashed")] ++ "\n" ++
    String.join (c.2.map nodeLine) ++ "\t\x7d\n"

/-- The document of a drawing. -/
def text (d : Drawing) : String :=
  "digraph callclinic \x7b\n" ++
    "\tgraph [" ++ Dot.attributes [("label", d.title), ("labelloc", "t"), ("rankdir", "LR"),
      ("splines", "spline")] ++ "]\n" ++
    "\tnode [" ++ Dot.attributes [("fontname", "Helvetica"), ("shape", "box"),
      ("style", "rounded,filled")] ++ "]\n" ++
    "\tedge [arrowhead=vee]\n" ++
    String.join (d.clusters.map clusterLines) ++ String.join (d.edges.map edgeLine) ++ "\x7d\n"

end Drawing

/-- The formats in which a drawing can be rendered. -/
def drawingFormats : List String := [
  "bmp", "canon", "cgimage", "cmap", "cmapx", "cmapx_np", "dot", "dot_json", "eps", "exr",
    "fig", "gd",
  "gd2", "gif", "gtk", "gv", "ico", "imap", "imap_np", "ismap", "jp2", "jpe", "jpeg", "jpg", "json",
  "json0", "pct", "pdf", "pic", "pict", "plain", "plain-ext", "png", "pov", "ps", "ps2",
    "psd", "sgi",
  "svg", "svg_inline", "svgz", "tga", "tif", "tiff", "tk", "vml", "vmlz", "vrml", "wbmp",
    "webp", "x11",
  "xdot", "xdot1.2", "xdot1.4", "xdot_json", "xlib"]

/-- Whether a drawing can be rendered in a format. -/
def isDrawingFormat (format : String) : Bool := drawingFormats.contains (Text.lower format)

end Deadwood
