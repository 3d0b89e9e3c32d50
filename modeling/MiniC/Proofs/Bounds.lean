import MiniC.Proofs.Grammar.Footing
import MiniC.Proofs.Lexical.Head

/-!
# Nothing is looked up where there is nothing

A source is scanned and a row of tokens is read by index, and an index may be out of range.  A
range of the source may end before it begins, a token may be looked up before the first one, and
a counter may go below zero.  Nothing in the rules would tell, since they are handed the
characters and the kinds that lie ahead.

So what is said here is said of a head and of a walker, who work by index and are free to go
wrong.  `nothing_out_of_bounds` says that they never do: on every source the head finds what the
scan finds, and every range it takes lies in the source.  Over every row there is one traversal,
it comes to the verdict on the row, and it leaves no mark that is out of bounds.
-/

namespace MiniC

open Grammar (InOrder Mark Traverses Walker nestingLimit)

/-- Marks that are within bounds. -/
structure InBounds (s : Sentence) (t : List Mark) : Prop where
  /-- Where the walker looks at the token before, there is one. -/
  looked : ∀ p, .lookedBack p ∈ t → 1 ≤ p ∧ p ≤ s.tokens.size
  /-- Where it steps back, it has just taken an identifier, and that comes next again. -/
  stepped : ∀ u p v, t = u ++ .steppedBack p :: v →
    0 < p ∧ s.kinds[p - 1]? = some .identifier ∧ u.getLast? = some (.took (p - 1))
  /-- The counter goes down from above zero. -/
  closed : ∀ depth, .closed depth ∈ t → 0 < depth
  /-- Where the token before is blamed, there is one. -/
  blamed : ∀ p, .blamedBehind p ∈ t → 0 < p ∧ (Walker.behind? s p).isSome = true

/-- Marks that are in order are within bounds. -/
theorem inBounds_of_inOrder {s : Sentence} {t : List Mark}
    (h : InOrder (some nestingLimit) s [] t) : InBounds s t where
  looked p looked := by
    obtain ⟨_, fits⟩ := h.fits_of_mem looked
    exact fits
  stepped u p v he := h u _ v he
  closed depth closed := by
    obtain ⟨_, fits⟩ := h.fits_of_mem closed
    exact fits
  blamed p blamed := by
    obtain ⟨_, positive, within⟩ := h.fits_of_mem blamed
    cases p with
    | zero => exact absurd positive (Nat.lt_irrefl 0)
    | succ p => exact ⟨positive, by simpa [Walker.behind?] using Nat.lt_of_succ_le within⟩

/-- Whatever the source is, every range that is taken lies in it.  Whatever the row is, no token
is looked up, blamed or handed back where there is none, and no construct is left that was not
opened. -/
theorem nothing_out_of_bounds :
    (∀ source : String,
      (Head.front.run source.toList).tokens ++ [.endMarker (Head.front.run source.toList).line] =
          (Scan.ofSource source).tokens ∧
        (Head.front.run source.toList).diagnostics = (Scan.ofSource source).diagnostics.toList ∧
        Head.InRange source.toList (Head.front.run source.toList)) ∧
    ∀ row, ∃ t,
      (∀ w t', Traverses (some nestingLimit) (.ofTokens row) .start w t' ↔
        w = .final (.ofTokens row) ∧ t' = t) ∧
        InBounds (.ofTokens row) t := by
  constructor
  · intro source
    obtain ⟨tokens, diagnostics, _⟩ := Head.scan_eq source
    exact ⟨tokens, diagnostics, Head.InRange.run .nil⟩
  · intro row
    obtain ⟨t, _, only⟩ := Grammar.exists_recounts (.ofTokens row)
    have traverses := (only _ _).mpr ⟨rfl, rfl⟩
    exact ⟨t, only, inBounds_of_inOrder traverses.inOrder_start⟩

end MiniC
