/-!
# Ascending ranges of code points

A property of characters is given by a table: a list of closed ranges of code
points, the lowest first, that do not touch.  A look-up stops at the first range
that does not lie below the code point it looks for.  `contains_iff` says that
on an ascending table this is membership in some range.
-/

namespace MiniC.Unicode

/-- The code points from `first` to `last`, both included. -/
structure Range where
  /-- The lowest code point. -/
  first : Nat
  /-- The highest code point. -/
  last : Nat
deriving DecidableEq, Repr

/-- Looks a code point up in an ascending table. -/
def contains : List Range → Nat → Bool
  | [], _ => false
  | r :: rs, n => if r.last < n then contains rs n else decide (r.first ≤ n)

/-- Every range is not empty, and lies above all of those before it with a gap
between. -/
def Ascending : List Range → Prop
  | [] => True
  | [r] => r.first ≤ r.last
  | r :: s :: rs => r.first ≤ r.last ∧ r.last + 1 < s.first ∧ Ascending (s :: rs)

/-- Ascent can be tested. -/
instance decidableAscending : (rs : List Range) → Decidable (Ascending rs)
  | [] => inferInstanceAs (Decidable True)
  | [r] => inferInstanceAs (Decidable (r.first ≤ r.last))
  | r :: s :: rs =>
    have : Decidable (Ascending (s :: rs)) := decidableAscending (s :: rs)
    inferInstanceAs (Decidable (r.first ≤ r.last ∧ r.last + 1 < s.first ∧ Ascending (s :: rs)))

/-- Below the first range of an ascending table there is nothing. -/
theorem contains_of_lt {r : Range} {rs : List Range} {n : Nat} (h : Ascending (r :: rs))
    (hn : n < r.first) : ∀ s ∈ r :: rs, n < s.first := by
  induction rs generalizing r with
  | nil => simpa using hn
  | cons s rs ih =>
    intro t ht
    rcases List.mem_cons.mp ht with rfl | ht
    · exact hn
    · have := h.1
      have := h.2.1
      exact ih h.2.2 (by omega) t ht

/-- A look-up in an ascending table finds the code points of its ranges. -/
theorem contains_iff {rs : List Range} (h : Ascending rs) {n : Nat} :
    contains rs n = true ↔ ∃ r ∈ rs, r.first ≤ n ∧ n ≤ r.last := by
  induction rs with
  | nil => simp [contains]
  | cons r rs ih =>
    have tail : Ascending rs := by
      cases rs with
      | nil => trivial
      | cons s rs => exact h.2.2
    by_cases hr : r.last < n
    · have : ¬ n ≤ r.last := by omega
      simp [contains, hr, ih tail, this]
    · by_cases hf : r.first ≤ n
      · simpa [contains, hr, hf] using Or.inl (by omega)
      · have below := contains_of_lt h (Nat.lt_of_not_le hf)
        simp only [contains, hr, if_false, hf, decide_false, Bool.false_eq_true, false_iff]
        rintro ⟨s, hs, hsn, _⟩
        exact absurd (below s hs) (by omega)

end MiniC.Unicode
