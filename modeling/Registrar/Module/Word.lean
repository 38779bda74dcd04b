/-! # Words with a meaning

Some words belong to the grammar, some more are kept in modules, and others have a meaning in a few
places only and are names everywhere else.
-/

namespace Registrar.Module

def keywords : List String :=
  ["break", "case", "catch", "class", "const", "continue", "debugger", "default", "delete", "do",
    "else", "export", "extends", "false", "finally", "for", "function", "if", "import", "in",
    "instanceof", "new", "null", "return", "super", "switch", "this", "throw", "true", "try",
    "typeof", "var", "void", "while", "with"]

/-- Words that no expression may refer to as names. -/
def strictWords : List String :=
  ["await", "enum", "implements", "interface", "let", "package", "private", "protected", "public",
    "static", "yield"]

def contextualWords : List String :=
  ["abstract", "accessor", "any", "as", "assert", "asserts", "async", "bigint", "boolean",
    "declare", "from", "get", "global", "infer", "intrinsic", "is", "keyof", "meta", "namespace",
    "never", "number", "object", "of", "readonly", "require", "satisfies", "set", "string",
    "symbol", "target", "type", "undefined", "unique", "unknown", "using"]

def isReferenceWord (word : String) : Bool :=
  !keywords.contains word && !strictWords.contains word

/-- Whether a variable may be called so. Waiting has a meaning all over a module; the other strict
words are let through. -/
def isBindingWord (word : String) : Bool := !keywords.contains word && word ≠ "await"

end Registrar.Module
