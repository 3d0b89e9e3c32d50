import MiniC.Diagnostic
import MiniC.Grammar.Rule
import MiniC.Token

/-!
# Sentences

Of a row of tokens the grammar reads the *sentence*: what comes before the first
end marker, without the comments.  The rules see the kinds of a sentence alone.
Its texts and lines come back when a report is turned into a diagnostic, which
quotes the token that the report blames.

The end of a sentence is quoted as an end marker, on the line of the first end
marker of the row.  A row without one ends on the line of its last token, and the
empty row on line one.
-/

namespace MiniC

open Grammar (Report)

/-- The tokens that the grammar reads. -/
structure Sentence where
  /-- The tokens, none of which is a comment or an end marker. -/
  tokens : Array Token
  /-- The line on which the sentence ends. -/
  endLine : Nat
deriving DecidableEq, Repr

namespace Sentence

/-- The line on which a row of tokens ends. -/
def endLineOf (row : List Token) : Nat :=
  match row.find? (·.kind == .endMarker) with
  | some t => t.line
  | none => (row.getLast?.map Token.line).getD 1

/-- The sentence of a row of tokens. -/
def ofTokens (row : List Token) : Sentence where
  tokens := ((row.filter (!·.kind.isComment)).takeWhile (·.kind != .endMarker)).toArray
  endLine := endLineOf row

/-- The kinds of the tokens, in order. -/
def kinds (s : Sentence) : List Kind := s.tokens.toList.map Token.kind

/-! ## Places in a sentence -/

/-- The index at which `ahead` lies ahead. -/
def position (s : Sentence) (ahead : List Kind) : Nat := s.tokens.size - ahead.length

/-- The index of the token that a report blames. -/
def blamed (s : Sentence) (r : Report) : Nat :=
  if r.complaint.blamesPrevious then s.position r.ahead - 1 else s.position r.ahead

/-- The line of the token at an index, or of the end of the sentence. -/
def lineAt (s : Sentence) (i : Nat) : Nat :=
  match s.tokens[i]? with
  | some t => t.line
  | none => s.endLine

/-- How the token at an index is quoted, or the end of the sentence. -/
def labelAt (s : Sentence) (i : Nat) : String :=
  match s.tokens[i]? with
  | some t => t.label
  | none => Kind.endMarker.name

/-- A report as a diagnostic. -/
def diagnose (s : Sentence) (r : Report) : Diagnostic :=
  ⟨s.lineAt (s.blamed r), .syntactic r.complaint.message (s.labelAt (s.blamed r))⟩

/-! ## Tests -/

example : endLineOf [] = 1 := by decide
example : endLineOf [⟨.number, "1", 7⟩, .endMarker 3, .endMarker 5] = 3 := by decide
example : (ofTokens [⟨.lineComment, "//", 1⟩, ⟨.number, "1", 2⟩, .endMarker 3, ⟨.number, "2", 4⟩]) =
    ⟨#[⟨.number, "1", 2⟩], 3⟩ := by decide

end Sentence

end MiniC
