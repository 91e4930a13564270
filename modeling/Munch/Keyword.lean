/-!
# Reserved words

The match is exact and case-sensitive.
-/

namespace Munch

/-- The reserved words, in the order in which listings show them. -/
def keywords : List String := ["if", "else", "while", "return", "int", "float"]

def isKeyword (text : String) : Bool := keywords.contains text

theorem isKeyword_iff {text : String} : isKeyword text = true ↔ text ∈ keywords := by
  simp [isKeyword]

end Munch
