import MiniC.Proofs.Grammar.Walker

/-!
# Calls that are open at once

A routine may be called while another call of it is still open, and the routines of the grammar
call each other in circles.  Two things keep the open calls few.  Whoever calls a routine
*directly*, with no construct opened, is *higher* than that routine, so no circle is made of
direct calls alone.  And a construct is only opened as long as fewer than `nestingLimit` are.

`not_directly_self` is the first of these.  `Walks.atOnce` puts the two together: while a call
is open that opens no construct, every further one is lower, so there is at most one call of a
routine for each construct that is open, and one more.
-/

namespace MiniC.Grammar

/-! ## Direct calls -/

/-- The routines that are called with no construct opened. -/
def Move.calls : Move → List Routine
  | pass | advance | stepBack | fail _ | nested _ => []
  | ifNext _ a b | ifTake _ a b | seq a b => a.calls ++ b.calls
  | whileTake _ a | upTo _ a | echo a _ => a.calls
  | call q => [q]

/-- The first routine calls the second one directly. -/
def DirectCall (q q' : Routine) : Prop := q' ∈ q.moves.calls

/-- How many direct calls may follow one another from this routine on. -/
def Routine.height : Routine → Nat
  | rank .operand => 0
  | rank .unary => 1
  | rank (.level .factor) => 2
  | rank (.level .term) => 3
  | rank (.level .comparison) => 4
  | rank (.level .equality) => 5
  | rank .expression => 6
  | parenthesized | simple | returned | variableDeclaration => 7
  | statement => 8
  | conditional | functionDeclaration => 9
  | declaration => 10
  | block => 11

/-- The caller is higher. -/
theorem height_lt {q q' : Routine} (h : DirectCall q q') : q'.height < q.height := by
  have lower : ∀ q' ∈ q.moves.calls, q'.height < q.height := by
    cases q with
    | rank r =>
      cases r with
      | level l => cases l <;> decide
      | _ => decide
    | _ => decide
  exact lower q' h

/-- No routine comes to call itself by direct calls. -/
theorem not_directly_self (q : Routine) : ¬ Relation.TransGen DirectCall q q := by
  intro circle
  have lower : ∀ {q'}, Relation.TransGen DirectCall q q' → q'.height < q.height := by
    intro q' path
    induction path with
    | single call => exact height_lt call
    | tail _ call ih => exact Nat.lt_trans (height_lt call) ih
  exact Nat.lt_irrefl _ (lower circle)

/-! ## Open calls -/

/-- Tells the mark of a call of this routine. -/
def Mark.enters (q : Routine) : Mark → Bool
  | entered q' _ => q' == q
  | _ => false

/-- Tells the mark of the end of such a call. -/
def Mark.leaves (q : Routine) : Mark → Bool
  | left q' => q' == q
  | _ => false

/-- Among these marks at most `n` calls of the routine are open at once, and none at the end. -/
structure AtOnce (q : Routine) (n : Nat) (t : List Mark) : Prop where
  /-- No more calls have begun than have ended, but for `n`. -/
  le : ∀ u, u <+: t → u.countP (Mark.enters q) ≤ u.countP (Mark.leaves q) + n
  /-- What has begun has ended. -/
  closed : t.countP (Mark.enters q) = t.countP (Mark.leaves q)

section

variable {s : Sentence} {m : Move} {w w' : Walker} {passed : Bool} {t t' : List Mark}
variable {q q' : Routine} {n n' depth : Nat} {a : Mark}

/-- Tells the marks of a call. -/
def Mark.ofCall : Mark → Bool
  | entered .. | left _ => true
  | _ => false

namespace AtOnce

/-- Where nothing is called, nothing is open. -/
theorem silent (h : ∀ a ∈ t, a.ofCall = false) : AtOnce q n t := by
  have none : ∀ u, u <+: t → u.countP (Mark.enters q) = 0 ∧ u.countP (Mark.leaves q) = 0 := by
    intro u hu
    constructor
    · refine List.countP_eq_zero.mpr fun a ha enters => ?_
      have silent := h a (hu.subset ha)
      cases a with
      | entered => cases silent
      | _ => cases enters
    · refine List.countP_eq_zero.mpr fun a ha leaves => ?_
      have silent := h a (hu.subset ha)
      cases a with
      | left => cases silent
      | _ => cases leaves
  refine ⟨fun u hu => ?_, ?_⟩
  · rw [(none u hu).1]
    exact Nat.zero_le _
  · rw [(none t List.prefix_rfl).1, (none t List.prefix_rfl).2]

theorem nil : AtOnce q n [] := silent nofun

theorem mono (h : AtOnce q n t) (hn : n ≤ n') : AtOnce q n' t :=
  ⟨fun u hu => Nat.le_trans (h.le u hu) (Nat.add_le_add_left hn _), h.closed⟩

theorem append (h : AtOnce q n t) (h' : AtOnce q n t') : AtOnce q n (t ++ t') := by
  constructor
  · intro u hu
    rcases List.prefix_or_prefix_of_prefix hu (List.prefix_append t t') with before | ⟨v, rfl⟩
    · exact h.le u before
    · have more := h'.le v ((List.prefix_append_right_inj t).mp hu)
      rw [List.countP_append, List.countP_append, h.closed]
      omega
  · rw [List.countP_append, List.countP_append, h.closed, h'.closed]

/-- A mark that is not of a call changes nothing. -/
theorem cons (ha : a.ofCall = false) (h : AtOnce q n t) : AtOnce q n (a :: t) :=
  append (silent (List.forall_mem_singleton.mpr ha)) h

/-- A complaint calls nothing. -/
theorem complaint {c : Complaint} {p : Nat} {d : Diagnostic} :
    AtOnce q n (Mark.complaint c p d) := .cons rfl (.cons rfl .nil)

/-- During a call, one call more is open of the routine that is called. -/
theorem called (h : AtOnce q n t) : AtOnce q (if q' = q then n + 1 else n)
    (.entered q' depth :: t ++ [.left q']) := by
  have entered (u : List Mark) : (Mark.entered q' depth :: u).countP (Mark.enters q) =
      u.countP (Mark.enters q) + if q' = q then 1 else 0 := by
    simp [List.countP_cons, Mark.enters]
  have left (u : List Mark) : (Mark.entered q' depth :: u).countP (Mark.leaves q) =
      u.countP (Mark.leaves q) := by
    simp [Mark.leaves]
  have ended : [Mark.left q'].countP (Mark.leaves q) = if q' = q then 1 else 0 := by
    simp [List.countP_cons, Mark.leaves]
  have outlasted : (t ++ [Mark.left q']).countP (Mark.enters q) = t.countP (Mark.enters q) := by
    simp [List.countP_append, Mark.enters]
  constructor
  · intro u hu
    rcases List.prefix_cons_iff.mp hu with rfl | ⟨v, rfl, hv⟩
    · exact Nat.zero_le _
    · rw [entered, left]
      rcases List.prefix_concat_iff.mp hv with rfl | during
      · rw [outlasted, List.countP_append, ended, h.closed]
        split <;> omega
      · have most := h.le v during
        split <;> omega
  · rw [List.cons_append, entered, left, outlasted, List.countP_append, ended, h.closed]

end AtOnce

/-- If the direct calls of a move are of routines below the height `n`, there is at most one call
of a routine open for each construct that can be opened, and one more of a routine below `n`. -/
theorem Walks.atOnce (h : Walks (some nestingLimit) s m w passed w' t)
    (hd : w.depth ≤ nestingLimit)
    (low : ∀ q' ∈ m.calls, q'.height < n) :
    AtOnce q (nestingLimit - w.depth + if q.height < n then 1 else 0) t := by
  induction h generalizing n with
  | pass => exact .nil
  | advance => exact .cons rfl .nil
  | advanceAtEnd => exact .nil
  | stepBack => exact .cons rfl .nil
  | fail => exact .complaint
  | failBehind => exact .cons rfl .complaint
  | next _ _ ih => exact ih hd fun q' hq => low q' (List.mem_append_left _ hq)
  | notNext _ _ ih => exact ih hd fun q' hq => low q' (List.mem_append_right _ hq)
  | take _ _ ih => exact .cons rfl (ih hd fun q' hq => low q' (List.mem_append_left _ hq))
  | notTake _ _ ih => exact ih hd fun q' hq => low q' (List.mem_append_right _ hq)
  | whileStop => exact .nil
  | whileAgain _ h _ ih more =>
    have rest := more (h.depth_eq ▸ hd) low
    rw [h.depth_eq] at rest
    exact .cons rfl ((ih hd low).append (.cons rfl rest))
  | whileBroken _ _ ih => exact .cons rfl (ih hd low)
  | upToStop => exact .nil
  | upToAgain _ h _ ih more =>
    have rest := more (h.depth_eq ▸ hd) low
    rw [h.depth_eq] at rest
    exact (ih hd low).append (.cons rfl rest)
  | upToBroken _ _ ih => exact ih hd low
  | seq h _ iha ihb =>
    have rest := ihb (h.depth_eq ▸ hd) fun q' hq => low q' (List.mem_append_right _ hq)
    rw [h.depth_eq] at rest
    exact (iha hd fun q' hq => low q' (List.mem_append_left _ hq)).append rest
  | seqFailed _ ih => exact ih hd fun q' hq => low q' (List.mem_append_left _ hq)
  | echoPassed _ ih => exact ih hd low
  | echoFailed _ ih => exact (ih hd low).append .complaint
  | @call q' w _ _ _ _ ih =>
    -- what the routine calls directly is lower than the routine itself
    have lower : q'.height < n := low q' (List.mem_singleton_self q')
    refine (ih hd fun _ hq => height_lt hq).called.mono ?_
    split
    · next he =>
      refine Nat.le_of_eq ?_
      rw [← he, if_neg (Nat.lt_irrefl _), if_pos lower]
    · split <;> split <;> omega
  | refused => exact .cons rfl .complaint
  | @nested k w w' _ _ below h ih =>
    have deeper : w.depth < nestingLimit := below nestingLimit rfl
    have inner := ih (n := k.body.height + 1) deeper fun q' hq => by
      rw [List.mem_singleton.mp hq]
      exact Nat.lt_succ_self _
    have one : w.deeper.depth = w.depth + 1 := rfl
    refine .append (.cons rfl (inner.mono ?_)) (.cons rfl .nil)
    rw [one]
    split <;> omega

/-! ### Over the rounds -/

theorem Resumes.silent {p p' : Nat} (h : Resumes s p p' t) : ∀ a ∈ t, a.ofCall = false := by
  intro a ha
  have between := h.between a ha
  cases a with
  | entered => cases between
  | left => cases between
  | _ => rfl

/-- Over a sentence, there is at most one call of a routine open for each construct that may be,
and one more. -/
theorem Traverses.atOnce (h : Traverses (some nestingLimit) s w w' t) (hd : w.depth = 0) :
    AtOnce q (nestingLimit + 1) t := by
  have round {w w' passed t} (h : Walks (some nestingLimit) s (.call .declaration) w passed w' t)
      (hd : w.depth = 0) : AtOnce q (nestingLimit + 1) t := by
    have calls := h.atOnce (q := q) (n := Routine.declaration.height + 1) (by omega)
      fun q' hq => by
        rw [List.mem_singleton.mp hq]
        exact Nat.lt_succ_self _
    refine calls.mono ?_
    rw [hd]
    split <;> omega
  induction h with
  | finished => exact .nil
  | passed _ walks _ ih =>
    exact (round walks hd).append (.cons rfl (ih (walks.depth_eq.trans hd)))
  | failed _ walks resumes _ ih =>
    exact ((round walks hd).append (.silent resumes.silent)).append
      (.cons rfl (ih (walks.depth_eq.trans hd)))

end

end MiniC.Grammar
