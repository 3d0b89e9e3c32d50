import MiniC.Proofs.Grammar.Rounds
import MiniC.Proofs.Sentence
import MiniC.Verdict

/-!
# What is accepted

A row of tokens is accepted exactly if the kinds that the grammar reads of it have a
derivation tree that is not too deep and in which every `else` belongs to the
nearest conditional.  That is `accepted_iff_derivation`.
-/

namespace MiniC

open Grammar (StatementTree)

/-- A row of tokens is accepted if and only if the kinds that are read of it have a
derivation with at most 256 levels in which every `else` belongs to the nearest
conditional. -/
theorem accepted_iff_derivation (row : List Token) :
    (Verdict.ofTokens row).accepted = true ↔
      ∃ ds : StatementTree .declarations,
        ds.yield = kindsRead row ∧ ds.depth ≤ 256 ∧ ds.NearestElse [] := by
  rw [Verdict.accepted_iff, Verdict.reports, List.flatMap_eq_nil_iff, ← kinds_ofTokens]
  constructor
  · exact Grammar.whole_of_rounds _
  · rintro ⟨ds, hy, hd, hn⟩
    have silent := Grammar.rounds_of_whole ds hd hn
    rw [hy] at silent
    exact silent

end MiniC
