/-!
# Diagnostics

A diagnostic is a problem with the line it was found on.  A problem is lexical,
found while the source is cut into tokens, or syntactic, found while the tokens
are read as a program.  The wording of the lexical problems is fixed here.  A
syntactic problem brings its own wording and quotes the token it blames.
-/

namespace MiniC

/-- What a diagnostic is about. -/
inductive Problem where
  /-- A character with which no token begins.  It is passed over. -/
  | strayCharacter (c : Char)
  /-- A comment that is opened and not closed. -/
  | openComment
  /-- A token that does not fit the grammar, quoted as `found`. -/
  | syntactic (message found : String)
deriving DecidableEq, Repr

namespace Problem

/-- Tells the problems found while the source is cut into tokens. -/
def isLexical : Problem → Bool
  | strayCharacter _ | openComment => true
  | syntactic .. => false

/-- What went wrong, in words. -/
def message : Problem → String
  | strayCharacter c => s!"Unexpected character '{c}'"
  | openComment => "Unterminated comment"
  | syntactic message _ => message

/-- The text that is blamed. -/
def found : Problem → String
  | strayCharacter c => String.singleton c
  | openComment => "/*"
  | syntactic _ found => found

end Problem

/-- A problem and the line it was found on. -/
structure Diagnostic where
  /-- The line, counted from one. -/
  line : Nat
  /-- The problem. -/
  problem : Problem
deriving DecidableEq, Repr

namespace Diagnostic

/-- Tells the diagnostics of lexical problems. -/
def isLexical (d : Diagnostic) : Bool := d.problem.isLexical

/-- What went wrong, in words. -/
def message (d : Diagnostic) : String := d.problem.message

/-- The text that is blamed. -/
def found (d : Diagnostic) : String := d.problem.found

/-- The stage that a diagnostic comes from, as it is named to the reader. -/
def stage (d : Diagnostic) : String := if d.isLexical then "Lexical error" else "Syntax error"

/-- A diagnostic as one line of text. -/
def render (d : Diagnostic) : String :=
  s!"{d.stage} at line {d.line}: {d.message} (found: {d.found})"

/-! ## Tests -/

example : message ⟨3, .strayCharacter '@'⟩ = "Unexpected character '@'" := by decide
example : found ⟨3, .openComment⟩ = "/*" := by decide
example : stage ⟨3, .syntactic "Missing" ";"⟩ = "Syntax error" := by decide

end Diagnostic

end MiniC
