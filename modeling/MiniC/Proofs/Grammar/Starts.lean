import MiniC.Proofs.Grammar.Tree

/-!
# How a tree begins

The yield of an expression, a statement or a declaration is not empty, and few kinds
can be the first of it.  By that kind the rules choose among the alternatives.
-/

namespace MiniC.Grammar

/-! ## Expressions -/

/-- The kinds with which an operand begins. -/
def operandStarts : List Kind := [.number, .identifier, .sign .leftParen]

/-- The kinds with which an expression begins. -/
def expressionStarts : List Kind := [.sign .bang, .sign .minus] ++ operandStarts

theorem ExpressionTree.starts_operand (t : ExpressionTree .operand) :
    ∃ k ∈ operandStarts, ∃ ks, t.yield = k :: ks := by
  cases t with
  | number => exact ⟨_, by decide, _, rfl⟩
  | identifier => exact ⟨_, by decide, _, rfl⟩
  | parenthesized t => exact ⟨_, by decide, _, rfl⟩

theorem ExpressionTree.starts {r : Rank} (t : ExpressionTree r) :
    ∃ k ∈ expressionStarts, ∃ ks, t.yield = k :: ks := by
  induction t with
  | assigned => exact ⟨_, by decide, _, rfl⟩
  | plain _ ih => exact ih
  | single _ ih => exact ih
  | joined left s _ right ih _ =>
    obtain ⟨k, hk, ks, hy⟩ := ih
    exact ⟨k, hk, ks ++ .sign s :: right.yield, by rw [yield, hy]; rfl⟩
  | signed s hs =>
    refine ⟨.sign s, ?_, _, rfl⟩
    cases s <;> first | decide | exact absurd hs (by decide)
  | unsigned _ ih => exact ih
  | number => exact ⟨_, by decide, _, rfl⟩
  | identifier => exact ⟨_, by decide, _, rfl⟩
  | parenthesized => exact ⟨_, by decide, _, rfl⟩

/-! ## Statements and declarations -/

/-- The kinds with which a statement begins. -/
def statementStarts : List Kind :=
  [.sign .leftBrace, .keyword .kwIf, .keyword .kwReturn] ++ expressionStarts

/-- The kinds with which a declaration begins. -/
def declarationStarts : List Kind := typeNames.map .keyword ++ statementStarts

theorem StatementTree.starts_statement (t : StatementTree .statement) :
    ∃ k ∈ statementStarts, ∃ ks, t.yield = k :: ks := by
  cases t with
  | block => exact ⟨_, by decide, _, rfl⟩
  | ifOnly => exact ⟨_, by decide, _, rfl⟩
  | ifElse => exact ⟨_, by decide, _, rfl⟩
  | returnNothing => exact ⟨_, by decide, _, rfl⟩
  | returnValue => exact ⟨_, by decide, _, rfl⟩
  | simple t =>
    obtain ⟨k, hk, ks, hy⟩ := t.starts
    exact ⟨k, List.mem_append_right _ hk, ks ++ [.sign .semicolon], by rw [yield, hy]; rfl⟩

theorem StatementTree.starts_declaration (t : StatementTree .declaration) :
    ∃ k ∈ declarationStarts, ∃ ks, t.yield = k :: ks := by
  have type : ∀ {k : Keyword}, k ∈ typeNames → .keyword k ∈ declarationStarts :=
    fun hk => List.mem_append_left _ (List.mem_map_of_mem hk)
  cases t with
  | function k hk => exact ⟨_, type hk, _, rfl⟩
  | uninitialized k hk => exact ⟨_, type hk, _, rfl⟩
  | initialized k hk => exact ⟨_, type hk, _, rfl⟩
  | stated s =>
    obtain ⟨k, hk, ks, hy⟩ := s.starts_statement
    exact ⟨k, List.mem_append_right _ hk, ks, hy⟩

/-- No row of declarations begins with an `else`. -/
theorem StatementTree.head?_yield_ne_else (ds : StatementTree .declarations) :
    ds.yield.head? ≠ some (.keyword .kwElse) := by
  cases ds with
  | nil => exact nofun
  | cons d ds =>
    obtain ⟨k, hk, ks, hy⟩ := d.starts_declaration
    rw [yield, hy]
    intro he
    have others : ∀ k ∈ declarationStarts, k ≠ .keyword .kwElse := by decide
    exact others k hk (Option.some.inj he)

end MiniC.Grammar
