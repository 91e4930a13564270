/-!
# Texts that may be missing
-/

namespace Munch.Text

/-- An empty text counts as none. -/
def given? : Option String → Option String
  | some "" => none
  | text => text

theorem given?_some (text : String) : given? (some text) = if text = "" then none else some text := by
  split
  next h => rw [h, given?]
  next h =>
    unfold given?
    split
    next heq => exact absurd (Option.some.inj heq) h
    next => rfl

end Munch.Text
