import MiniC.Proofs.Grammar.Parts
import MiniC.Proofs.Standing

/-!
# One loop for all operators

The four operator levels are four loops inside one another.  To a reader that builds no tree
they are one loop: an operand with its signs, and as long as an operator of any level comes
next, that operator and one more operand.

Two loops inside one another are one loop over the operators of both, which is `chain_chain`.
When the inner loop stops, it stops at an operator of the outer one or at the end of both, and
behind an operator of either an operand comes next.  `equality_eq_chain` folds the four levels
in this way.  `equality_flat` says so of readers that count what they open, wherever they
stand.
-/

namespace MiniC

namespace Grammar

open Rule (chain moreOperands)

/-! ## Loops inside one another -/

/-- Behind an operand, the loop over the operators of both is the inner loop and behind it the
outer one. -/
theorem moreOperands_or (p q : Kind → Bool) (r : Rule) : ∀ ks,
    moreOperands (fun k => p k || q k) r [] ks =
      (moreOperands q r [] ks).andThen (moreOperands p (chain q r) []) := by
  intro ks
  cases ks with
  | nil =>
    rw [Rule.moreOperands_nil, Rule.moreOperands_nil, Outcome.pass_andThen, Rule.moreOperands_nil]
  | cons k ks =>
    have shorter := (r.fits ks).1
    -- An operand of either loop is followed by the inner loop and then by the outer one.
    have behind : (r.run ks).andThen (moreOperands (fun k => p k || q k) r []) =
        ((chain q r).run ks).andThen (moreOperands p (chain q r) []) := by
      rw [Rule.chain_run, Outcome.andThen_assoc]
      exact Outcome.andThen_congr (moreOperands_or p q r _)
    rw [Rule.moreOperands_cons, Rule.moreOperands_cons (p := q), behind]
    cases hq : q k with
    | true => rw [Bool.or_true, if_pos rfl, if_pos rfl, Rule.chain_run]
    | false =>
      rw [Bool.or_false, if_neg Bool.false_ne_true, Outcome.pass_andThen, Rule.moreOperands_cons]
termination_by ks => ks.length
decreasing_by exact Nat.lt_succ_of_le shorter

/-- Two loops inside one another are one loop over the operators of both. -/
theorem chain_chain (p q : Kind → Bool) (r : Rule) :
    chain p (chain q r) = chain (fun k => p k || q k) r := by
  refine Rule.ext fun ks => ?_
  rw [Rule.chain_run, Rule.chain_run, Rule.chain_run, Outcome.andThen_assoc]
  exact Outcome.andThen_congr (moreOperands_or p q r _).symm

/-! ## The four levels -/

/-- The operators between operands with their signs, whatever their level. -/
def joinsOperands : Kind → Bool
  | .sign .equal | .sign .notEqual
  | .sign .less | .sign .lessEqual | .sign .greater | .sign .greaterEqual
  | .sign .plus | .sign .minus
  | .sign .times | .sign .divide => true
  | _ => false

theorem joinsOperands_eq (k : Kind) : joinsOperands k =
    (((joinsComparisons k || joinsTerms k) || joinsFactors k) || joinsUnaries k) := by
  cases k with
  | sign s => cases s <;> rfl
  | _ => rfl

/-- The four levels are one loop. -/
theorem equality_eq_chain (inner : Option Rule) :
    equality inner = chain joinsOperands (unary inner) := by
  rw [equality, comparison, term, factor, chain_chain, chain_chain, chain_chain]
  exact congrArg (chain · (unary inner)) (funext fun k => (joinsOperands_eq k).symm)

/-- The signs of all operators. -/
def joiningSigns : List Sign :=
  Level.equality.signs ++ Level.comparison.signs ++ Level.term.signs ++ Level.factor.signs

theorem contains_joiningSigns (k : Kind) :
    (joiningSigns.map Kind.sign).contains k = joinsOperands k := by
  cases k with
  | sign s => cases s <;> rfl
  | _ => rfl

/-- An operand with its signs, and as long as an operator comes next, that operator and one
more operand. -/
def Move.operandLoop : Move :=
  .seq (.call (.rank .unary)) (.whileTake (joiningSigns.map .sign) (.call (.rank .unary)))

/-- The one loop does what the rule for the four levels does. -/
theorem operandLoop_does (limit : Option Nat) (s : Sentence) (depth room : Nat) :
    Move.operandLoop.Does limit s depth room (equality (innerExpression room)).run := by
  have operand := (Routine.walked limit s depth room (.rank .unary)).does
  rw [equality_eq_chain]
  exact .seq operand (.moreOperands contains_joiningSigns operand)

end Grammar

open Grammar (Rank Routine equality innerExpression)

/-- From wherever a reader stands, the four levels and the one loop lead to the same place, and
that is where the rule leads. -/
theorem equality_flat (x : Standing) (passed : Bool) (y : Standing) :
    (x.Reaches (.call (.rank (.level .equality))) passed y ↔ x.Reaches .operandLoop passed y) ∧
      (x.Reaches .operandLoop passed y ↔
        x.run (fun room => equality (innerExpression room)) = (passed, y)) := by
  have levels : x.Reaches (.call (.rank (.level .equality))) passed y ↔
      x.run (fun room => equality (innerExpression room)) = (passed, y) :=
    Standing.reaches_iff
      (Routine.walked _ x.sentence x.opened x.room (.rank (.level .equality))).does
  have loop : x.Reaches .operandLoop passed y ↔
      x.run (fun room => equality (innerExpression room)) = (passed, y) :=
    Standing.reaches_iff (Grammar.operandLoop_does _ x.sentence x.opened x.room)
  exact ⟨levels.trans loop.symm, loop⟩

end MiniC
