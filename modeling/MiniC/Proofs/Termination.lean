import MiniC.Proofs.Contract
import MiniC.Proofs.Grammar.Calls
import MiniC.Proofs.Grammar.Footing

/-!
# Every reading ends

However malformed a row of tokens is, the rounds over it come to an end, and so does every call
of a routine on the way.  Nothing in `Walks` or `Traverses` sees to that: the routine of a block
is called with the brace still ahead, an identifier is handed back after it was taken, a
declaration may fail without a token being taken, and the next round may begin at a keyword that
no declaration begins with.

`traversal_ends` says that there is just one traversal of each row, that its marks are those of
a reading that makes progress, and that no routine comes to call itself unless a construct is
opened on the way.
-/

namespace MiniC

open Grammar (AtOnce DirectCall Mark Routine Traverses Walks nestingLimit)

/-- The marks of a reading that makes progress. -/
structure Progress (s : Sentence) (t : List Mark) : Prop where
  /-- A round leaves fewer tokens than it found. -/
  rounds : ∀ p next, .resumed p next ∈ t → p < next ∧ next ≤ s.tokens.size
  /-- A loop that goes round has taken a token at least. -/
  loops : ∀ p next, .turned p next ∈ t → p < next ∧ next ≤ s.tokens.size
  /-- Of each routine there are few calls open at once, however many tokens there are. -/
  calls : ∀ q, AtOnce q (256 + 1) t

/-- Every row is read to its end, with progress in every round and every loop, and few calls
open at once.  Every call ends, wherever it is made.  Only through constructs does a routine come
to call itself. -/
theorem traversal_ends :
    (∀ row, ∃ t,
      (∀ w t', Traverses (some nestingLimit) (.ofTokens row) .start w t' ↔
        w = .final (.ofTokens row) ∧ t' = t) ∧
      Progress (.ofTokens row) t) ∧
    (∀ (x : Standing) (q : Routine), ∃ passed w t, ∀ passed' w' t',
      Walks (some nestingLimit) x.sentence (.call q) x.walker passed' w' t' ↔
        passed' = passed ∧ w' = w ∧ t' = t) ∧
    ∀ q, ¬ Relation.TransGen DirectCall q q := by
  refine ⟨fun row => ?_, fun x q => ?_, Grammar.not_directly_self⟩
  · obtain ⟨t, _, only⟩ := Grammar.exists_recounts (.ofTokens row)
    have traverses := (only _ _).mpr ⟨rfl, rfl⟩
    have inOrder := traverses.inOrder_start
    refine ⟨t, only, fun p next resumed => ?_, fun p next turned => ?_, fun q => ?_⟩
    · obtain ⟨_, fits⟩ := inOrder.fits_of_mem resumed
      exact fits
    · obtain ⟨_, fits⟩ := inOrder.fits_of_mem turned
      exact fits
    · exact traverses.atOnce rfl
  · obtain ⟨t, h⟩ := Standing.walks_call_iff.mpr ⟨rfl, rfl⟩
    refine ⟨_, _, t, fun passed' w' t' => ⟨fun h' => h'.unique h, ?_⟩⟩
    rintro ⟨rfl, rfl, rfl⟩
    exact h

end MiniC
