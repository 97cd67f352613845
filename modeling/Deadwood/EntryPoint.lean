import Deadwood.Dotted
import Deadwood.Fact
import Deadwood.Text.Case

/-!
# Guessing entry points

A definition may be called from outside the analysed code: by a framework, by the language itself or
by a test runner. Each `Rule` recognises one such use. A definition is a likely root if a rule
applies to it, unless its scope looks like an internal package; the code of a module is exempt from
that veto.
-/

namespace Deadwood.EntryPoint

/-- A named guess. -/
structure Rule where
  name : String
  applies : Symbol → Meta → Bool

/-- Names and arities of functions that well-known frameworks call. -/
def frameworkCallbacks : List (String × Int) :=
  [("setUp", 0), ("tearDown", 0), ("setUpClass", 0), ("tearDownClass", 0), ("setUpModule", 0),
    ("tearDownModule", 0), ("asyncSetUp", 0), ("asyncTearDown", 0), ("pytest_configure", 1),
    ("pytest_addoption", 1), ("pytest_collection_modifyitems", 3), ("pytest_generate_tests", 1),
    ("pytest_sessionstart", 1), ("pytest_sessionfinish", 2), ("emit", 1), ("run", 0),
    ("connection_made", 1), ("connection_lost", 1), ("data_received", 1), ("datagram_received", 2),
    ("generic_visit", 1), ("default", 1), ("setup", 0), ("setup", 1),
    ("load_ipython_extension", 1)]

/-- Last segments of decorators that register a function with a framework. -/
def frameworkDecorators : List String :=
  ["route", "get", "post", "put", "patch", "delete", "head", "options", "websocket", "api_view",
    "action", "receiver", "register", "command", "group", "callback", "task", "shared_task",
    "periodic_task", "fixture", "hookimpl", "hookspec", "on_event", "exception_handler",
    "middleware", "before_request", "after_request", "teardown_request", "errorhandler",
    "validator", "field_validator", "model_validator", "root_validator", "property",
    "cached_property", "setter", "getter", "deleter", "overload", "abstractmethod",
    "singledispatch", "contextmanager", "asynccontextmanager", "entrypoint"]

/-- Ends of the names of classes whose methods a framework calls. -/
def frameworkClassEnds : List String :=
  ["View", "ViewSet", "Admin", "Command", "Middleware", "Handler", "Visitor", "Transformer",
    "Consumer", "Serializer", "Plugin", "Migration"]

/-- Parts of the names of modules with helpers for tests. -/
def testHelperMarks : List String :=
  ["conftest", "factories", "factory", "fixtures", "testing", "test_helpers"]

/-- Names of internal packages. -/
def internalSegments : List String :=
  ["internal", "_internal", "private", "_private", "helpers", "_helpers"]

/-- The segments of a scope that are not empty. -/
def segments (scope : String) : List String := (Dotted.segments scope).filter (· ≠ "")

/-- Whether a symbol's scope looks like an internal package. -/
def isInternal (s : Symbol) : Bool :=
  (segments s.scope).any fun seg => internalSegments.contains (Text.lower seg)

/-- Whether there is documentation that is not hidden and not blank. -/
def isDocumented (info : Meta) : Bool :=
  match info.doc with
  | .null | .bool false => false
  | doc => Text.trim doc.text ≠ ""

/-- Whether a name has two underscores on each side of something. -/
def isDunder (name : String) : Bool :=
  4 < name.length && Text.startsWith name "__" && Text.endsWith name "__"

/-- Whether a segment names a place for tests. -/
def isTestSegment (seg : String) : Bool :=
  Text.startsWith seg "test_" || Text.endsWith seg "_test" || seg = "tests" || seg = "test"

/-- Whether a symbol stands among tests. -/
def inTestScope (s : Symbol) : Bool :=
  (segments s.scope).any isTestSegment || Text.startsWith (Dotted.last s.scope) "Test"

/-- The rule that is used only on request: documented definitions are public. -/
def documentedRule : Rule := ⟨"public_documentation", fun _ info => isDocumented info⟩

/-- The rules that are always used, in order, without the first. -/
def laterRules : List Rule :=
  [⟨"module_body", fun s _ => s.name = Symbol.bodyName⟩,
    ⟨"dunder_method", fun s _ => s.name ≠ Symbol.recordName && isDunder s.name⟩,
    ⟨"entry_point", fun s _ =>
      s.name = "main" || s.name = "cli" || Dotted.last s.scope = "__main__"⟩,
    ⟨"test_function", fun s _ =>
      inTestScope s && (Text.startsWith s.name "test" || Text.startsWith s.name "Test")⟩,
    ⟨"framework_callback", fun s _ => frameworkCallbacks.contains (s.name, s.arity)⟩,
    ⟨"framework_decorator", fun _ info =>
      info.decorators.any fun d => frameworkDecorators.contains (Dotted.last d)⟩,
    ⟨"framework_class_method", fun s info =>
      info.kind = "method" && frameworkClassEnds.any (Text.endsWith (Dotted.last s.scope))⟩,
    ⟨"external_override", fun _ info => info.kind = "method" && !info.implements.isEmpty⟩,
    ⟨"test_helper", fun s _ =>
      (segments s.scope).any fun seg => testHelperMarks.any (Text.contains (Text.lower seg))⟩]

/-- The rules; `documented` adds the one for documented definitions. -/
def rules (documented : Bool) : List Rule :=
  ⟨"explicit_export", fun _ info => info.export⟩ ::
    ((if documented then [documentedRule] else []) ++ laterRules)

/-- The names of the rules that apply. -/
def applying (rules : List Rule) (s : Symbol) (info : Meta) : List String :=
  (rules.filter fun r => r.applies s info).map (·.name)

/-- Whether a definition is probably called from outside. -/
def isLikely (rules : List Rule) (s : Symbol) (info : Meta) : Bool :=
  (!isInternal s || s.name = Symbol.bodyName) && rules.any fun r => r.applies s info

end Deadwood.EntryPoint
