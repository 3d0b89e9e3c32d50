import MiniC.Unicode.Alphabetic
import MiniC.Unicode.Numeric

/-!
# Character classes

Four classes of characters decide how a source is cut.  Blanks are the space,
the tab, the carriage return and the newline, which is `Char.isWhitespace`.
Digits are the ten of ASCII, which is `Char.isDigit`.  Words begin with a letter
of any script or an underscore and go on with letters, numeric characters of any
script and underscores, as defined here.
-/

namespace MiniC

open Unicode (isAlphabetic isNumeric)

/-- A word may begin with this character. -/
def startsWord (c : Char) : Bool := c == '_' || isAlphabetic c

/-- A word that has begun may go on with this character. -/
def continuesWord (c : Char) : Bool := c == '_' || isAlphabetic c || isNumeric c

theorem continuesWord_of_startsWord {c : Char} (h : startsWord c = true) :
    continuesWord c = true := by
  simp [continuesWord, show (c == '_' || isAlphabetic c) = true from h]

/-- How many newlines a text holds, which is how many lines it goes down. -/
def newlines (text : List Char) : Nat := text.count '\n'

@[simp] theorem newlines_nil : newlines [] = 0 := rfl

@[simp] theorem newlines_append (a b : List Char) : newlines (a ++ b) = newlines a + newlines b :=
  List.count_append

/-! ## Tests -/

example : [' ', '\t', '\r', '\n'].all (fun c => !continuesWord c) = true := by decide
example : (startsWord '_', startsWord '7', continuesWord '7', continuesWord '-') =
    (true, false, true, false) := by decide

end MiniC
