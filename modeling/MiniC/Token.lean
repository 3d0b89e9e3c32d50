import MiniC.Kind

/-!
# Tokens

A token is a kind, the text it was read from and the line on which that text
begins.  Tokens are also built by hand, so the three need not fit together: any
kind may carry any text and any line.
-/

namespace MiniC

/-- A kind with its text and its line. -/
structure Token where
  /-- The kind. -/
  kind : Kind
  /-- The text as it stands in the source, empty for the end marker. -/
  lexeme : String
  /-- The line on which the text begins, counted from one. -/
  line : Nat
deriving DecidableEq, Repr

namespace Token

/-- The marker that ends a scan whose last line is `line`. -/
def endMarker (line : Nat) : Token := ⟨.endMarker, "", line⟩

/-- How a diagnostic quotes a token: by its text, or by the name of its kind
when it has no text. -/
def label (t : Token) : String := if t.lexeme = "" then t.kind.name else t.lexeme

/-- A token as one line of a listing. -/
def render (t : Token) : String :=
  if t.lexeme = "" then s!"{t.kind.name} N/A (line {t.line})"
  else s!"{t.kind.name} '{t.lexeme}' (line {t.line})"

/-! ## Tests -/

example : label (.endMarker 4) = "EOF_TOKEN" := by decide
example : label ⟨.sign .semicolon, ";", 1⟩ = ";" := by decide

end Token

end MiniC
