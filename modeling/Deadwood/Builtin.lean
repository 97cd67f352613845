import Deadwood.Table

/-!
# The built-in names of Python

The names that are known in every module, and what the built-in types among them have as attributes.

* `isBuiltin` says whether a name is known everywhere.
* `builtinAttributes?` lists the attributes of a built-in type; `none` if the name is not a type.
-/

namespace Deadwood

/-- The names that are known in every module. -/
def builtinNames : List String := [
  "ArithmeticError", "AssertionError", "AttributeError", "BaseException", "BaseExceptionGroup",
  "BlockingIOError", "BrokenPipeError", "BufferError", "BytesWarning", "ChildProcessError",
  "ConnectionAbortedError", "ConnectionError", "ConnectionRefusedError", "ConnectionResetError",
  "DeprecationWarning", "EOFError", "Ellipsis", "EncodingWarning", "EnvironmentError", "Exception",
  "ExceptionGroup", "False", "FileExistsError", "FileNotFoundError", "FloatingPointError",
  "FutureWarning", "GeneratorExit", "IOError", "ImportError", "ImportWarning", "IndentationError",
  "IndexError", "InterruptedError", "IsADirectoryError", "KeyError", "KeyboardInterrupt",
  "LookupError", "MemoryError", "ModuleNotFoundError", "NameError", "None", "NotADirectoryError",
  "NotImplemented", "NotImplementedError", "OSError", "OverflowError", "PendingDeprecationWarning",
  "PermissionError", "ProcessLookupError", "RecursionError", "ReferenceError", "ResourceWarning",
  "RuntimeError", "RuntimeWarning", "StopAsyncIteration", "StopIteration", "SyntaxError",
  "SyntaxWarning", "SystemError", "SystemExit", "TabError", "TimeoutError", "True", "TypeError",
  "UnboundLocalError", "UnicodeDecodeError", "UnicodeEncodeError", "UnicodeError",
  "UnicodeTranslateError", "UnicodeWarning", "UserWarning", "ValueError", "Warning",
  "ZeroDivisionError", "__build_class__", "__debug__", "__doc__", "__import__", "__loader__",
  "__name__", "__package__", "__spec__", "abs", "aiter", "all", "anext", "any", "ascii", "bin",
  "bool", "breakpoint", "bytearray", "bytes", "callable", "chr", "classmethod", "compile",
  "complex", "copyright", "credits", "delattr", "dict", "dir", "divmod", "enumerate", "eval",
  "exec", "exit", "filter", "float", "format", "frozenset", "getattr", "globals", "hasattr", "hash",
  "help", "hex", "id", "input", "int", "isinstance", "issubclass", "iter", "len", "license", "list",
  "locals", "map", "max", "memoryview", "min", "next", "object", "oct", "open", "ord", "pow",
  "print", "property", "quit", "range", "repr", "reversed", "round", "set", "setattr", "slice",
  "sorted", "staticmethod", "str", "sum", "super", "tuple", "type", "vars", "zip"]

/-- Whether a name is known in every module. -/
def isBuiltin (name : String) : Bool := builtinNames.contains name

/-- The attributes that every type has. -/
def typeAttributes : List String := [
  "__base__", "__bases__", "__basicsize__", "__call__", "__class__", "__delattr__", "__dict__",
  "__dictoffset__", "__dir__", "__doc__", "__eq__", "__flags__", "__format__", "__ge__",
  "__getattribute__", "__getstate__", "__gt__", "__hash__", "__init__", "__init_subclass__",
  "__instancecheck__", "__itemsize__", "__le__", "__lt__", "__module__", "__mro__", "__name__",
  "__ne__", "__new__", "__or__", "__prepare__", "__qualname__", "__reduce__", "__reduce_ex__",
  "__repr__", "__ror__", "__setattr__", "__sizeof__", "__str__", "__subclasscheck__",
  "__subclasses__", "__subclasshook__", "__text_signature__", "__weakrefoffset__", "mro"]

/-- The attributes that every exception has. -/
def exceptionAttributes : List String := [
  "__cause__", "__context__", "__setstate__", "__suppress_context__", "__traceback__", "add_note",
  "args", "with_traceback"]

/-- Groups of built-in types that have the same attributes beyond the common ones. -/
def builtinTypes : List (List String × List String) := [
  (["ArithmeticError", "AssertionError", "BaseException", "BufferError", "BytesWarning",
    "DeprecationWarning", "EOFError", "EncodingWarning", "Exception", "FloatingPointError",
    "FutureWarning", "GeneratorExit", "ImportWarning", "IndexError", "KeyError",
    "KeyboardInterrupt", "LookupError", "MemoryError", "NotImplementedError", "OverflowError",
    "PendingDeprecationWarning", "RecursionError", "ReferenceError", "ResourceWarning",
    "RuntimeError", "RuntimeWarning", "StopAsyncIteration", "SyntaxWarning", "SystemError",
    "TypeError", "UnicodeError", "UnicodeWarning", "UserWarning", "ValueError", "Warning",
    "ZeroDivisionError", "object", "type"],
    []),
  (["AttributeError"],
    ["name", "obj"]),
  (["BaseExceptionGroup"],
    ["__class_getitem__", "derive", "exceptions", "message", "split", "subgroup"]),
  (["BlockingIOError", "BrokenPipeError", "ChildProcessError", "ConnectionAbortedError",
    "ConnectionError", "ConnectionRefusedError", "ConnectionResetError", "EnvironmentError",
    "FileExistsError", "FileNotFoundError", "IOError", "InterruptedError", "IsADirectoryError",
    "NotADirectoryError", "OSError", "PermissionError", "ProcessLookupError", "TimeoutError"],
    ["characters_written", "errno", "filename", "filename2", "strerror"]),
  (["ExceptionGroup"],
    ["__annotations__", "__class_getitem__", "__weakref__", "derive", "exceptions", "message",
     "split", "subgroup"]),
  (["ImportError", "ModuleNotFoundError"],
    ["msg", "name", "path"]),
  (["IndentationError", "SyntaxError", "TabError"],
    ["end_lineno", "end_offset", "filename", "lineno", "msg", "offset", "print_file_and_line",
     "text"]),
  (["NameError", "UnboundLocalError"],
    ["name"]),
  (["StopIteration"],
    ["value"]),
  (["SystemExit"],
    ["code"]),
  (["UnicodeDecodeError", "UnicodeEncodeError", "UnicodeTranslateError"],
    ["encoding", "end", "object", "reason", "start"]),
  (["bool", "int"],
    ["__abs__", "__add__", "__and__", "__bool__", "__ceil__", "__divmod__", "__float__",
     "__floor__", "__floordiv__", "__getnewargs__", "__index__", "__int__", "__invert__",
     "__lshift__", "__mod__", "__mul__", "__neg__", "__pos__", "__pow__", "__radd__", "__rand__",
     "__rdivmod__", "__rfloordiv__", "__rlshift__", "__rmod__", "__rmul__", "__round__", "__rpow__",
     "__rrshift__", "__rshift__", "__rsub__", "__rtruediv__", "__rxor__", "__sub__", "__truediv__",
     "__trunc__", "__xor__", "as_integer_ratio", "bit_count", "bit_length", "conjugate",
     "denominator", "from_bytes", "imag", "numerator", "real", "to_bytes"]),
  (["bytearray"],
    ["__add__", "__alloc__", "__contains__", "__delitem__", "__getitem__", "__iadd__", "__imul__",
     "__iter__", "__len__", "__mod__", "__mul__", "__rmod__", "__rmul__", "__setitem__", "append",
     "capitalize", "center", "clear", "copy", "count", "decode", "endswith", "expandtabs", "extend",
     "find", "fromhex", "hex", "index", "insert", "isalnum", "isalpha", "isascii", "isdigit",
     "islower", "isspace", "istitle", "isupper", "join", "ljust", "lower", "lstrip", "maketrans",
     "partition", "pop", "remove", "removeprefix", "removesuffix", "replace", "reverse", "rfind",
     "rindex", "rjust", "rpartition", "rsplit", "rstrip", "split", "splitlines", "startswith",
     "strip", "swapcase", "title", "translate", "upper", "zfill"]),
  (["bytes"],
    ["__add__", "__bytes__", "__contains__", "__getitem__", "__getnewargs__", "__iter__", "__len__",
     "__mod__", "__mul__", "__rmod__", "__rmul__", "capitalize", "center", "count", "decode",
     "endswith", "expandtabs", "find", "fromhex", "hex", "index", "isalnum", "isalpha", "isascii",
     "isdigit", "islower", "isspace", "istitle", "isupper", "join", "ljust", "lower", "lstrip",
     "maketrans", "partition", "removeprefix", "removesuffix", "replace", "rfind", "rindex",
     "rjust", "rpartition", "rsplit", "rstrip", "split", "splitlines", "startswith", "strip",
     "swapcase", "title", "translate", "upper", "zfill"]),
  (["classmethod", "staticmethod"],
    ["__func__", "__get__", "__isabstractmethod__", "__wrapped__"]),
  (["complex"],
    ["__abs__", "__add__", "__bool__", "__complex__", "__getnewargs__", "__mul__", "__neg__",
     "__pos__", "__pow__", "__radd__", "__rmul__", "__rpow__", "__rsub__", "__rtruediv__",
     "__sub__", "__truediv__", "conjugate", "imag", "real"]),
  (["dict"],
    ["__class_getitem__", "__contains__", "__delitem__", "__getitem__", "__ior__", "__iter__",
     "__len__", "__reversed__", "__setitem__", "clear", "copy", "fromkeys", "get", "items", "keys",
     "pop", "popitem", "setdefault", "update", "values"]),
  (["enumerate"],
    ["__class_getitem__", "__iter__", "__next__"]),
  (["filter", "map"],
    ["__iter__", "__next__"]),
  (["float"],
    ["__abs__", "__add__", "__bool__", "__ceil__", "__divmod__", "__float__", "__floor__",
     "__floordiv__", "__getformat__", "__getnewargs__", "__int__", "__mod__", "__mul__", "__neg__",
     "__pos__", "__pow__", "__radd__", "__rdivmod__", "__rfloordiv__", "__rmod__", "__rmul__",
     "__round__", "__rpow__", "__rsub__", "__rtruediv__", "__sub__", "__truediv__", "__trunc__",
     "as_integer_ratio", "conjugate", "fromhex", "hex", "imag", "is_integer", "real"]),
  (["frozenset"],
    ["__and__", "__class_getitem__", "__contains__", "__iter__", "__len__", "__rand__", "__rsub__",
     "__rxor__", "__sub__", "__xor__", "copy", "difference", "intersection", "isdisjoint",
     "issubset", "issuperset", "symmetric_difference", "union"]),
  (["list"],
    ["__add__", "__class_getitem__", "__contains__", "__delitem__", "__getitem__", "__iadd__",
     "__imul__", "__iter__", "__len__", "__mul__", "__reversed__", "__rmul__", "__setitem__",
     "append", "clear", "copy", "count", "extend", "index", "insert", "pop", "remove", "reverse",
     "sort"]),
  (["memoryview"],
    ["__delitem__", "__enter__", "__exit__", "__getitem__", "__iter__", "__len__", "__setitem__",
     "c_contiguous", "cast", "contiguous", "f_contiguous", "format", "hex", "itemsize", "nbytes",
     "ndim", "obj", "readonly", "release", "shape", "strides", "suboffsets", "tobytes", "tolist",
     "toreadonly"]),
  (["property"],
    ["__delete__", "__get__", "__isabstractmethod__", "__set__", "__set_name__", "deleter", "fdel",
     "fget", "fset", "getter", "setter"]),
  (["range"],
    ["__bool__", "__contains__", "__getitem__", "__iter__", "__len__", "__reversed__", "count",
     "index", "start", "step", "stop"]),
  (["reversed"],
    ["__iter__", "__length_hint__", "__next__", "__setstate__"]),
  (["set"],
    ["__and__", "__class_getitem__", "__contains__", "__iand__", "__ior__", "__isub__", "__iter__",
     "__ixor__", "__len__", "__rand__", "__rsub__", "__rxor__", "__sub__", "__xor__", "add",
     "clear", "copy", "difference", "difference_update", "discard", "intersection",
     "intersection_update", "isdisjoint", "issubset", "issuperset", "pop", "remove",
     "symmetric_difference", "symmetric_difference_update", "union", "update"]),
  (["slice"],
    ["indices", "start", "step", "stop"]),
  (["str"],
    ["__add__", "__contains__", "__getitem__", "__getnewargs__", "__iter__", "__len__", "__mod__",
     "__mul__", "__rmod__", "__rmul__", "capitalize", "casefold", "center", "count", "encode",
     "endswith", "expandtabs", "find", "format", "format_map", "index", "isalnum", "isalpha",
     "isascii", "isdecimal", "isdigit", "isidentifier", "islower", "isnumeric", "isprintable",
     "isspace", "istitle", "isupper", "join", "ljust", "lower", "lstrip", "maketrans", "partition",
     "removeprefix", "removesuffix", "replace", "rfind", "rindex", "rjust", "rpartition", "rsplit",
     "rstrip", "split", "splitlines", "startswith", "strip", "swapcase", "title", "translate",
     "upper", "zfill"]),
  (["super"],
    ["__get__", "__self__", "__self_class__", "__thisclass__"]),
  (["tuple"],
    ["__add__", "__class_getitem__", "__contains__", "__getitem__", "__getnewargs__", "__iter__",
     "__len__", "__mul__", "__rmul__", "count", "index"]),
  (["zip"],
    ["__iter__", "__next__", "__setstate__"])]

/-- Whether a built-in type is an exception: its name has a capital letter. -/
def isException (name : String) : Bool := name.toList.head?.any Char.isUpper

/-- The attributes of a built-in type. -/
def builtinAttributes? (name : String) : Option (List String) :=
  (builtinTypes.find? fun group => group.1.contains name).map fun group =>
    typeAttributes ++ (if isException name then exceptionAttributes else []) ++ group.2

end Deadwood
