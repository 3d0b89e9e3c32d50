import MiniC.Grammar.Statement
import MiniC.Proofs.Grammar.Tree

/-!
# The rules for the parts of the grammar

Every rank of an expression has its rule, and the rules for the operator levels are
all chains.  The sets of kinds by which the rules choose are those of the grammar.
-/

namespace MiniC.Grammar

/-! ## The sets of kinds -/

/-- The kinds that the rule for a level takes for its operators. -/
def Level.joins : Level → Kind → Bool
  | equality => joinsComparisons
  | comparison => joinsTerms
  | term => joinsFactors
  | factor => joinsUnaries

theorem Level.joins_sign (l : Level) (s : Sign) : l.joins (.sign s) = true ↔ s ∈ l.signs := by
  cases l <;> cases s <;> decide

theorem Level.joins_iff {l : Level} {k : Kind} :
    l.joins k = true ↔ ∃ s ∈ l.signs, k = .sign s := by
  constructor
  · intro h
    cases k with
    | sign s => exact ⟨s, (l.joins_sign s).mp h, rfl⟩
    | _ => cases l <;> cases h
  · rintro ⟨s, hs, rfl⟩
    exact (l.joins_sign s).mpr hs

theorem leadsUnary_iff {k : Kind} : leadsUnary k = true ↔ ∃ s ∈ leadingSigns, k = .sign s := by
  constructor
  · intro h
    cases k with
    | sign s => cases s <;> first | exact ⟨_, by decide, rfl⟩ | cases h
    | _ => cases h
  · rintro ⟨s, hs, rfl⟩
    cases s <;> first | rfl | exact absurd hs (by decide)

theorem isOperand_iff {k : Kind} : isOperand k = true ↔ k = .number ∨ k = .identifier := by
  cases k <;> simp [isOperand]

theorem isType_iff {k : Kind} : k.isType = true ↔ ∃ t ∈ typeNames, k = .keyword t := by
  constructor
  · intro h
    cases k with
    | keyword t => cases t <;> first | exact ⟨_, by decide, rfl⟩ | cases h
    | _ => cases h
  · rintro ⟨t, ht, rfl⟩
    cases t <;> first | rfl | exact absurd ht (by decide)

/-! ## The rules -/

/-- The rule for an expression one level down, if there is a level left. -/
def innerExpression : Nat → Option Rule
  | 0 => none
  | room + 1 => some (expression room)

theorem expression_eq (room : Nat) : expression room = assignment (innerExpression room) := by
  cases room <;> rfl

/-- The rule for a rank with `room` levels left. -/
def Rank.rule (room : Nat) : Rank → Rule
  | .expression => Grammar.expression room
  | .level .equality => equality (innerExpression room)
  | .level .comparison => comparison (innerExpression room)
  | .level .term => term (innerExpression room)
  | .level .factor => factor (innerExpression room)
  | .unary => Grammar.unary (innerExpression room)
  | .operand => Grammar.operand (innerExpression room)

theorem Level.rule_eq (l : Level) (room : Nat) :
    (Rank.level l).rule room = .chain l.joins (l.inner.rule room) := by
  cases l <;> rfl

end MiniC.Grammar
