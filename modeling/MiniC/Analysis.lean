import MiniC.Lexical.Scan
import MiniC.Verdict

/-!
# Analysis of a source

The analysis of a source is its tokens with all that is wrong with it: first what
the scan found, then what the grammar found, each in the order of the source.  A
lexical problem does not keep the grammar from reading the tokens there are.
-/

namespace MiniC

/-- The tokens of a source and its diagnostics. -/
structure Analysis where
  /-- The tokens, comments and end marker among them. -/
  tokens : List Token
  /-- The diagnostics, the lexical ones first. -/
  diagnostics : Collector
deriving DecidableEq, Repr

namespace Analysis

/-- The analysis of a scan. -/
def ofScan (s : Scan) : Analysis where
  tokens := s.tokens
  diagnostics := s.diagnostics ++ (Verdict.ofTokens s.tokens).diagnostics

/-- The analysis of a source. -/
def ofSource (source : String) : Analysis := ofScan (.ofSource source)

/-- Nothing is wrong with the source. -/
def success (a : Analysis) : Bool := a.diagnostics.isEmpty

/-! ## Tests -/

example : (ofSource "int a = 5;\nif (a > 1) \x7b a = a - 1; \x7d").success = true := by
  decide +kernel

example : (ofSource "int a = 1\n@ = ;").diagnostics.toList =
    [⟨2, .strayCharacter '@'⟩, ⟨1, .syntactic "Missing ';' after variable declaration" "1"⟩] := by
  decide +kernel

end Analysis

end MiniC
