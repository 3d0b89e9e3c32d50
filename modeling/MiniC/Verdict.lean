import MiniC.Collector
import MiniC.Grammar.Program
import MiniC.Sentence

/-!
# Verdicts

A verdict is what the grammar has to say of a sentence: the rounds over its kinds,
and the diagnostics that their reports come to.  A sentence is accepted if there
is nothing to report.
-/

namespace MiniC

open Grammar (Report Round rounds topDeclaration)

/-- A sentence with the rounds over it. -/
structure Verdict where
  /-- The sentence. -/
  sentence : Sentence
  /-- The rounds over its kinds. -/
  rounds : List Round
deriving DecidableEq, Repr

namespace Verdict

/-- The verdict on a sentence. -/
def ofSentence (s : Sentence) : Verdict := ⟨s, Grammar.rounds topDeclaration s.kinds⟩

/-- The verdict on a row of tokens. -/
def ofTokens (row : List Token) : Verdict := ofSentence (.ofTokens row)

/-- The reports of all rounds, in order. -/
def reports (v : Verdict) : List Report := v.rounds.flatMap (·.outcome.reports)

/-- What is wrong with the sentence, in order. -/
def diagnostics (v : Verdict) : Collector := .ofList (v.reports.map v.sentence.diagnose)

/-- The sentence is a program. -/
def accepted (v : Verdict) : Bool := v.diagnostics.isEmpty

/-- A sentence is accepted if no round reports anything. -/
theorem accepted_iff (v : Verdict) : v.accepted = true ↔ v.reports = [] := by
  rw [accepted, Collector.isEmpty_iff, diagnostics, Collector.toList_ofList, List.map_eq_nil_iff]

end Verdict

end MiniC
