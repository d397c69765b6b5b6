/-!
# Names

An identifier is a name unless it is reserved. A raw identifier keeps its mark and is therefore
never reserved.
-/

namespace StateMachines.Source

/-- The reserved identifiers. -/
def keywords : List String :=
  ["_", "abstract", "as", "async", "await", "become", "box", "break", "const", "continue",
    "crate", "do", "dyn", "else", "enum", "extern", "false", "final", "fn", "for", "if", "impl",
    "in", "let", "loop", "macro", "match", "mod", "move", "mut", "override", "priv", "pub", "ref",
    "return", "Self", "self", "static", "struct", "super", "trait", "true", "try", "type",
    "typeof", "unsafe", "unsized", "use", "virtual", "where", "while", "yield"]

/-- Whether an identifier can be given as a name to something. -/
def isName (s : String) : Bool := s ∉ keywords

/-- The reserved identifiers that refer to a place in the tree of modules, or to a type. -/
def placeWords : List String := ["super", "self", "Self", "crate"]

end StateMachines.Source
