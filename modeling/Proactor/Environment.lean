import Proactor.Bytes
import Proactor.Text.Blank
import Proactor.Text.Readable

/-!
# Environments

Variables with values of arbitrary bytes, and typed look-ups that never fail: a value that is
unset, not text, or not readable counts as absent. All look-ups but the plain text one ignore
blanks at both ends of the value.
-/

namespace Proactor

/-- Variables by name. -/
structure Environment where
  entries : List (String × Bytes) := []
  deriving Repr, Inhabited

namespace Environment

/-- The text that bytes encode, if they encode one. -/
def textOf? (value : Bytes) : Option String := String.fromUTF8? ⟨value.toArray⟩

/-- The environment whose variables hold texts. -/
def ofTexts (entries : List (String × String)) : Environment :=
  ⟨entries.map fun (name, value) => (name, value.toUTF8.toList)⟩

/-- The text of a variable, as it stands. -/
def text? (env : Environment) (key : String) : Option String :=
  (env.entries.lookup key).bind textOf?

/-- The text of a variable, or `default`. -/
def text (env : Environment) (key default : String) : String := (env.text? key).getD default

/-- The value of a variable, if it is set and readable. -/
def get? {α : Type} [Readable α] (env : Environment) (key : String) : Option α :=
  (env.text? key).bind fun value => Readable.read? (Text.trim value)

/-- The value of a variable, or `default`. -/
def get {α : Type} [Readable α] (env : Environment) (key : String) (default : α) : α :=
  (env.get? key).getD default

/-- The truth value that a flag word stands for, in any case of its letters. -/
def flagWord? (word : String) : Option Bool :=
  let w := Text.lower (Text.trim word)
  if ["1", "true", "yes", "on"].contains w then some true
  else if ["0", "false", "no", "off"].contains w then some false
  else none

/-- The truth value of a flag, or `default`. -/
def flag (env : Environment) (key : String) (default : Bool) : Bool :=
  ((env.text? key).bind flagWord?).getD default

end Environment

end Proactor
