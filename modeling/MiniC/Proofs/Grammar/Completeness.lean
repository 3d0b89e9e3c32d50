import MiniC.Proofs.Grammar.Outcome
import MiniC.Proofs.Grammar.Parts
import MiniC.Proofs.Grammar.Starts

/-!
# Completeness of the rules

A rule reads the whole yield of a tree and no more, if it has as many levels left as
the tree is deep and if nothing behind the yield could be read along with it.  For an
expression this is a condition on the next kind: it must be no operator of the
levels in question, and no `=`.  For a statement it is `NearestElse`.

A rule for an operator level cannot be asked to stop behind a tree of its level, as
the tree to the left of an operator is followed by that operator.  What holds is that
it reads such a tree and then goes on with its loop, which is `Rank.Reads`.
-/

namespace MiniC.Grammar

open Outcome (pass)
open Rule (moreOperands moreOperands_nil moreOperands_cons itemsUntil itemsUntil_nil
  itemsUntil_cons)

variable {room : Nat}

/-! ## Where an expression ends -/

/-- The kinds that would be read along with an expression of a rank. -/
def Rank.continues : Rank → Kind → Bool
  | .expression, k => k == .sign .assign || joinsComparisons k || joinsTerms k || joinsFactors k ||
    joinsUnaries k
  | .level .equality, k => joinsComparisons k || joinsTerms k || joinsFactors k || joinsUnaries k
  | .level .comparison, k => joinsTerms k || joinsFactors k || joinsUnaries k
  | .level .term, k => joinsFactors k || joinsUnaries k
  | .level .factor, k => joinsUnaries k
  | .unary, _ => false
  | .operand, _ => false

/-- An expression of the rank ends before these kinds. -/
def Rank.Ends (r : Rank) (rest : List Kind) : Prop :=
  ∀ k, rest.head? = some k → r.continues k = false

theorem Rank.ends_cons {r : Rank} {k : Kind} (h : r.continues k = false) (ks : List Kind) :
    r.Ends (k :: ks) := by
  intro j hj
  obtain rfl := Option.some.inj hj
  exact h

/-- What is between the operators of a level ends before them. -/
theorem Level.ends_inner {l : Level} {s : Sign} (hs : s ∈ l.signs) (ks : List Kind) :
    l.inner.Ends (.sign s :: ks) := by
  refine Rank.ends_cons ?_ ks
  cases l <;> cases s <;> first | rfl | exact absurd hs (by decide)

theorem Level.ends_iff {l : Level} {rest : List Kind} : (Rank.level l).Ends rest ↔
    l.inner.Ends rest ∧ ∀ k, rest.head? = some k → l.joins k = false := by
  have split : ∀ k, (Rank.level l).continues k = (l.joins k || l.inner.continues k) := by
    intro k
    cases l <;> simp [Rank.continues, joins, inner, Bool.or_assoc]
  constructor
  · intro h
    refine ⟨fun k hk => ?_, fun k hk => ?_⟩
    · have := h k hk
      rw [split, Bool.or_eq_false_iff] at this
      exact this.2
    · have := h k hk
      rw [split, Bool.or_eq_false_iff] at this
      exact this.1
  · rintro ⟨hi, hj⟩ k hk
    rw [split, hi k hk, hj k hk]
    rfl

theorem Rank.Ends.of_expression {rest : List Kind} (h : Rank.expression.Ends rest) :
    (Rank.level .equality).Ends rest ∧ ∀ ks, rest ≠ .sign .assign :: ks := by
  refine ⟨fun k hk => ?_, fun ks he => ?_⟩
  · have := h k hk
    rw [continues, Bool.or_eq_false_iff, Bool.or_eq_false_iff, Bool.or_eq_false_iff,
      Bool.or_eq_false_iff] at this
    obtain ⟨⟨⟨⟨-, h₁⟩, h₂⟩, h₃⟩, h₄⟩ := this
    rw [continues, h₁, h₂, h₃, h₄]
    rfl
  · have := h (.sign .assign) (by rw [he]; rfl)
    cases this

theorem Level.inner_ne_expression (l : Level) : l.inner ≠ .expression := by
  cases l <;> (intro he; cases he)

/-- An expression that is no assignment does not begin like one. -/
theorem ExpressionTree.not_assignment {r : Rank} (t : ExpressionTree r) (hr : r ≠ .expression)
    {rest : List Kind} (h : ∀ ks, rest ≠ .sign .assign :: ks) (tail : List Kind) :
    t.yield ++ rest ≠ .identifier :: .sign .assign :: tail := by
  induction t generalizing rest with
  | assigned => exact absurd rfl hr
  | plain => exact absurd rfl hr
  | @single l t ih => exact ih l.inner_ne_expression h
  | @joined l left s hs right ih _ =>
    rw [yield, List.append_assoc]
    refine ih (fun he => by cases he) fun ks he => ?_
    obtain rfl := Kind.sign.inj (List.cons.inj he).1
    cases l <;> exact absurd hs (by decide)
  | signed =>
    intro he
    cases (List.cons.inj he).1
  | unsigned _ ih => exact ih (fun he => by cases he) h
  | number =>
    intro he
    cases (List.cons.inj he).1
  | identifier => exact fun he => h tail (List.cons.inj he).2
  | parenthesized =>
    intro he
    cases (List.cons.inj he).1

/-! ## Reading an expression -/

/-- The rule for a rank reads the kinds `read` whole, before any kinds at which an
expression of the rank ends.  The rule for a level comes to its loop behind them. -/
def Rank.Reads (room : Nat) (read : List Kind) : Rank → Prop
  | .level l => ∀ rest, l.inner.Ends rest →
      ((Rank.level l).rule room).run (read ++ rest) =
        moreOperands l.joins (l.inner.rule room) [] rest
  | r => ∀ rest, r.Ends rest → (r.rule room).run (read ++ rest) = pass rest

theorem moreOperands_eq_pass {p : Kind → Bool} {r : Rule} {rest : List Kind}
    (h : ∀ k, rest.head? = some k → p k = false) : moreOperands p r [] rest = pass rest := by
  cases rest with
  | nil => exact moreOperands_nil
  | cons k ks => rw [moreOperands_cons, h k rfl, if_neg Bool.false_ne_true]

theorem Rank.Reads.run {r : Rank} {read rest : List Kind} (h : r.Reads room read)
    (hr : r.Ends rest) : (r.rule room).run (read ++ rest) = pass rest := by
  cases r with
  | level l =>
    obtain ⟨hi, hj⟩ := Level.ends_iff.mp hr
    rw [h rest hi]
    exact moreOperands_eq_pass hj
  | expression => exact h rest hr
  | unary => exact h rest hr
  | operand => exact h rest hr

theorem operand_run_of_isOperand {k : Kind} (hk : isOperand k = true) (rest : List Kind) :
    (Rank.operand.rule room).run (k :: rest) = pass rest := by
  have hne : k ≠ .sign .leftParen := by rintro rfl; cases hk
  show (operand (innerExpression room)).run (k :: rest) = pass rest
  rw [operand, Rule.opening_run_of_ne hne, Rule.one_run_cons, if_pos hk]

theorem assigned_run {n : Nat} {right : ExpressionTree .expression} {rest : List Kind}
    (h : (expression n).run (right.yield ++ rest) = pass rest) :
    (expression (n + 1)).run ((ExpressionTree.assigned right).yield ++ rest) = pass rest := by
  show ((expression n).run (right.yield ++ rest)).echo _ = pass rest
  rw [h, Outcome.echo_pass]

theorem signed_run {s : Sign} (hs : s ∈ leadingSigns) {read rest : List Kind}
    (h : (Rank.unary.rule room).run (read ++ rest) = pass rest) :
    (Rank.unary.rule room).run (.sign s :: (read ++ rest)) = pass rest := by
  have skip : leadsUnary (.sign s) = true := leadsUnary_iff.mpr ⟨s, hs, rfl⟩
  show (unary (innerExpression room)).run (.sign s :: (read ++ rest)) = pass rest
  rw [unary, Rule.skipping_run, List.dropWhile_cons_of_pos skip]
  exact h

/-- An operand does not begin with a sign. -/
theorem unsigned_run {t : ExpressionTree .operand} {rest : List Kind}
    (h : (Rank.operand.rule room).run (t.yield ++ rest) = pass rest) :
    (Rank.unary.rule room).run (t.yield ++ rest) = pass rest := by
  obtain ⟨k, hk, ks, hy⟩ := t.starts_operand
  have stop : ¬ leadsUnary k = true := by
    have : ∀ k ∈ operandStarts, ¬ leadsUnary k = true := by decide
    exact this k hk
  show (unary (innerExpression room)).run (t.yield ++ rest) = pass rest
  rw [hy] at h ⊢
  rw [unary, Rule.skipping_run, List.cons_append, List.dropWhile_cons_of_neg stop]
  exact h

theorem parenthesized_run {n : Nat} {t : ExpressionTree .expression} {rest : List Kind}
    (h : (expression n).run (t.yield ++ .sign .rightParen :: rest) =
      pass (.sign .rightParen :: rest)) :
    (Rank.operand.rule (n + 1)).run ((ExpressionTree.parenthesized t).yield ++ rest) =
      pass rest := by
  show (operand (some (expression n))).run _ = pass rest
  rw [ExpressionTree.yield, List.cons_append, List.append_assoc, operand, Option.map_some,
    Rule.opening_run_some, parenthesisTail, Rule.seq_run, List.singleton_append, h,
    Outcome.pass_andThen, Rule.exactly_run_cons]

/-- The rule for the rank of a tree reads the yield of the tree. -/
theorem ExpressionTree.reads_yield {r : Rank} (t : ExpressionTree r) (hd : t.depth ≤ room) :
    r.Reads room t.yield := by
  induction t generalizing room with
  | assigned right ih =>
    obtain ⟨n, rfl⟩ := Nat.exists_eq_add_one_of_ne_zero (Nat.ne_zero_of_lt hd)
    exact fun rest hr => assigned_run ((ih (Nat.le_of_succ_le_succ hd)).run hr)
  | plain t ih =>
    intro rest hr
    obtain ⟨he, ha⟩ := hr.of_expression
    have plain : Rank.level .equality ≠ .expression := fun he => by cases he
    show (expression room).run (t.yield ++ rest) = pass rest
    rw [expression_eq, assignment, Rule.ifNextTwo_run_of_ne (t.not_assignment plain ha)]
    exact (ih hd).run he
  | @single l t ih =>
    intro rest hr
    rw [l.rule_eq, Rule.chain_run, yield, (ih hd).run hr, Outcome.pass_andThen]
  | @joined l left s hs right ihl ihr =>
    obtain ⟨hl, hr⟩ := Nat.max_le.mp hd
    intro rest he
    rw [yield, List.append_assoc, List.cons_append, ihl hl _ (l.ends_inner hs _),
      moreOperands_cons, if_pos ((l.joins_sign s).mpr hs), (ihr hr).run he, Outcome.pass_andThen]
  | signed s hs t ih => exact fun rest hr => signed_run hs (ih hd rest hr)
  | unsigned t ih => exact fun rest _ => unsigned_run (ih hd rest fun _ _ => rfl)
  | number => exact fun rest _ => operand_run_of_isOperand rfl rest
  | identifier => exact fun rest _ => operand_run_of_isOperand rfl rest
  | parenthesized t ih =>
    obtain ⟨n, rfl⟩ := Nat.exists_eq_add_one_of_ne_zero (Nat.ne_zero_of_lt hd)
    intro rest _
    exact parenthesized_run ((ih (Nat.le_of_succ_le_succ hd)).run (Rank.ends_cons rfl rest))

/-- The rule for expressions reads an expression up to its end. -/
theorem expression_run_yield {t : ExpressionTree .expression} {rest : List Kind}
    (hd : t.depth ≤ room) (h : Rank.expression.Ends rest) :
    (expression room).run (t.yield ++ rest) = pass rest :=
  (t.reads_yield hd).run h

/-- The rule for expressions and a kind that closes the expression. -/
theorem closed_run_yield {t : ExpressionTree .expression} (hd : t.depth ≤ room) {k : Kind}
    (hk : Rank.expression.continues k = false) (c : Complaint) (rest : List Kind) :
    ((expression room).seq (.exactly k c)).run (t.yield ++ k :: rest) = pass rest := by
  rw [Rule.seq_run, expression_run_yield hd (Rank.ends_cons hk rest), Outcome.pass_andThen,
    Rule.exactly_run_cons]

/-! ## What the rules do at the first kind -/

/-- The loop of a block. -/
def blockLoop (n : Nat) : List Kind → Outcome :=
  itemsUntil (· == .sign .rightBrace) .unclosedBlock (declaration n) []

theorem statement_run_block (n : Nat) (ks : List Kind) :
    (statement (n + 1)).run (.sign .leftBrace :: ks) = blockLoop n ks := by
  rw [statement_succ, statementOf, Rule.opening_run_some]
  rfl

theorem statement_run_if (n : Nat) (ks : List Kind) :
    (statement (n + 1)).run (.keyword .kwIf :: ks) =
      (conditionalTail (expression n) (statement n)).run ks := by
  rw [statement_succ, statementOf, Rule.opening_run_of_ne (by decide), Rule.opening_run_some]

/-- At what opens no level, a statement is a `return` or an expression. -/
theorem statement_run_of_ne {k : Kind} (hb : k ≠ .sign .leftBrace) (hi : k ≠ .keyword .kwIf)
    (ks : List Kind) :
    (statement room).run (k :: ks) =
      (Rule.ifNext (· == .keyword .kwReturn) (returnTail (expression room))
        (simple (expression room))).run (k :: ks) := by
  cases room with
  | zero =>
    rw [statement_zero, statementOf, Rule.opening_run_of_ne hb, Rule.opening_run_of_ne hi]
  | succ n =>
    rw [statement_succ, statementOf, Rule.opening_run_of_ne hb, Rule.opening_run_of_ne hi]

theorem statement_run_return (ks : List Kind) :
    (statement room).run (.keyword .kwReturn :: ks) = (returnTail (expression room)).run ks := by
  rw [statement_run_of_ne (by decide) (by decide), Rule.ifNext_run_cons, if_pos BEq.rfl]

theorem statement_run_simple {k : Kind} (hk : k ∈ expressionStarts) (ks : List Kind) :
    (statement room).run (k :: ks) = (simple (expression room)).run (k :: ks) := by
  have others : ∀ k ∈ expressionStarts, k ≠ .sign .leftBrace ∧ k ≠ .keyword .kwIf ∧
      ¬ (k == .keyword .kwReturn) = true := by decide
  obtain ⟨hb, hi, hr⟩ := others k hk
  rw [statement_run_of_ne hb hi, Rule.ifNext_run_cons, if_neg hr]

theorem declaration_run_type {t : Keyword} (ht : t ∈ typeNames) (ks : List Kind) :
    (declaration room).run (.keyword t :: ks) =
      (typeTail (expression room) (statement room)).run ks := by
  rw [declaration, declarationOf, Rule.ifNext_run_cons, if_pos (isType_iff.mpr ⟨t, ht, rfl⟩)]

theorem declaration_run_statement {k : Kind} (hk : k ∈ statementStarts) (ks : List Kind) :
    (declaration room).run (k :: ks) = (statement room).run (k :: ks) := by
  have others : ∀ k ∈ statementStarts, ¬ k.isType = true := by decide
  rw [declaration, declarationOf, Rule.ifNext_run_cons, if_neg (others k hk)]

/-! ## Reading a construct

What the rules do on each construct, given that they read its parts. -/

theorem block_run {n : Nat} {ds rest : List Kind}
    (h : blockLoop n (ds ++ .sign .rightBrace :: rest) = blockLoop n (.sign .rightBrace :: rest)) :
    (statement (n + 1)).run (.sign .leftBrace :: (ds ++ .sign .rightBrace :: rest)) =
      pass rest := by
  rw [statement_run_block, h, blockLoop, itemsUntil_cons, if_pos BEq.rfl]

/-- In a block, a declaration is followed by the rest of the loop. -/
theorem blockLoop_declaration {n : Nat} {t : StatementTree .declaration} {rest : List Kind}
    (h : (declaration n).run (t.yield ++ rest) = pass rest) :
    blockLoop n (t.yield ++ rest) = blockLoop n rest := by
  have opens : ∀ k ∈ declarationStarts, ¬ (k == .sign .rightBrace) = true := by decide
  obtain ⟨k, hk, ks, hy⟩ := t.starts_declaration
  rw [hy, List.cons_append] at h ⊢
  rw [blockLoop, itemsUntil_cons, if_neg (opens k hk), h, Outcome.pass_andThen]

/-- The rule for conditionals reads a condition and goes on with the branches. -/
theorem condition_run {n : Nat} {t : ExpressionTree .expression} (hd : t.depth ≤ n)
    (ks : List Kind) :
    (statement (n + 1)).run (conditionYield t ++ ks) =
      ((statement n).andIfNext (· == .keyword .kwElse) (statement n)).run ks := by
  rw [conditionYield, List.cons_append, List.cons_append, List.append_assoc,
    List.singleton_append, statement_run_if, conditionalTail, Rule.seq_run, Rule.seq_run,
    Rule.exactly_run_cons, Outcome.pass_andThen, closed_run_yield hd rfl, Outcome.pass_andThen]

theorem ifOnly_run {n : Nat} {t : ExpressionTree .expression} (hd : t.depth ≤ n)
    {yes rest : List Kind} (hy : (statement n).run (yes ++ rest) = pass rest)
    (he : rest.head? ≠ some (.keyword .kwElse)) :
    (statement (n + 1)).run (conditionYield t ++ (yes ++ rest)) = pass rest := by
  rw [condition_run hd, Rule.andIfNext_run, hy, Outcome.pass_andThen]
  cases rest with
  | nil => rfl
  | cons k rest =>
    refine if_neg fun hk => he ?_
    rw [eq_of_beq hk]
    rfl

theorem ifElse_run {n : Nat} {t : ExpressionTree .expression} (hd : t.depth ≤ n)
    {yes no rest : List Kind}
    (hy : (statement n).run (yes ++ .keyword .kwElse :: (no ++ rest)) =
      pass (.keyword .kwElse :: (no ++ rest)))
    (hn : (statement n).run (no ++ rest) = pass rest) :
    (statement (n + 1)).run (conditionYield t ++ (yes ++ .keyword .kwElse :: (no ++ rest))) =
      pass rest := by
  rw [condition_run hd, Rule.andIfNext_run, hy, Outcome.pass_andThen]
  exact hn

theorem returnValue_run {t : ExpressionTree .expression} (hd : t.depth ≤ room)
    (rest : List Kind) :
    (statement room).run (.keyword .kwReturn :: (t.yield ++ .sign .semicolon :: rest)) =
      pass rest := by
  have more : ∀ k ∈ expressionStarts, ¬ (k == .sign .semicolon) = true := by decide
  have closed := closed_run_yield hd (k := .sign .semicolon) rfl .returnNotEnded rest
  obtain ⟨k, hk, ks, hy⟩ := t.starts
  rw [statement_run_return, returnTail]
  rw [hy, List.cons_append] at closed ⊢
  rw [Rule.ifAhead_run_cons, if_neg (more k hk)]
  exact closed

theorem simple_run {t : ExpressionTree .expression} (hd : t.depth ≤ room) (rest : List Kind) :
    (statement room).run (t.yield ++ .sign .semicolon :: rest) = pass rest := by
  have closed := closed_run_yield hd (k := .sign .semicolon) rfl .expressionNotEnded rest
  obtain ⟨k, hk, ks, hy⟩ := t.starts
  rw [hy, List.cons_append] at closed ⊢
  rw [statement_run_simple hk]
  exact closed

/-- Behind a type and a name comes a parenthesis or the rest of a variable. -/
theorem name_run {t : Keyword} (ht : t ∈ typeNames) (ks : List Kind) :
    (declaration room).run (.keyword t :: .identifier :: ks) =
      (Rule.ifNext (· == .sign .leftParen) (functionTail (statement room))
        (variableTail (expression room))).run ks := by
  rw [declaration_run_type ht, typeTail, Rule.seq_run, Rule.exactly_run_cons,
    Outcome.pass_andThen]

theorem function_run {t : Keyword} (ht : t ∈ typeNames) {body rest : List Kind}
    (h : (statement room).run (body ++ rest) = pass rest) :
    (declaration room).run (.keyword t :: .identifier :: .sign .leftParen :: .sign .rightParen ::
      (body ++ rest)) = pass rest := by
  rw [name_run ht, Rule.ifNext_run_cons, if_pos BEq.rfl, functionTail, Rule.seq_run,
    Rule.exactly_run_cons, Outcome.pass_andThen, Rule.echo_run, h, Outcome.echo_pass]

theorem uninitialized_run {t : Keyword} (ht : t ∈ typeNames) (rest : List Kind) :
    (declaration room).run (.keyword t :: .identifier :: .sign .semicolon :: rest) =
      pass rest := by
  rw [name_run ht, Rule.ifNext_run_cons, if_neg (by decide), variableTail, Rule.ifNext_run_cons,
    if_neg (by decide), ended, Rule.exactly_run_cons]

theorem initialized_run {t : Keyword} (ht : t ∈ typeNames) {value : ExpressionTree .expression}
    (hd : value.depth ≤ room) (rest : List Kind) :
    (declaration room).run (.keyword t :: .identifier :: .sign .assign ::
      (value.yield ++ .sign .semicolon :: rest)) = pass rest := by
  rw [name_run ht, Rule.ifNext_run_cons, if_neg (by decide), variableTail, Rule.ifNext_run_cons,
    if_pos BEq.rfl, Rule.seq_run, Rule.echo_run,
    expression_run_yield hd (Rank.ends_cons rfl rest), Outcome.echo_pass, Outcome.pass_andThen,
    ended, Rule.exactly_run_cons]

/-! ## Reading a statement -/

/-- The rule for a form reads the kinds `read` whole before `rest`.  For a row of
declarations it is the loop of a block, which comes to the rest of the row. -/
def Form.Reads (room : Nat) (read rest : List Kind) : Form → Prop
  | .declarations => blockLoop room (read ++ rest) = blockLoop room rest
  | .declaration => (Grammar.declaration room).run (read ++ rest) = pass rest
  | .statement => (Grammar.statement room).run (read ++ rest) = pass rest

/-- The rule for the form of a tree reads the yield of the tree. -/
theorem StatementTree.reads_yield {f : Form} (t : StatementTree f) {rest : List Kind}
    (hd : t.depth ≤ room) (hn : t.NearestElse rest) : f.Reads room t.yield rest := by
  induction t generalizing room rest with
  | nil => rfl
  | cons d ds ihd ihds =>
    obtain ⟨hdd, hds⟩ := Nat.max_le.mp hd
    rw [yield, Form.Reads, List.append_assoc, blockLoop_declaration (ihd hdd hn.1)]
    exact ihds hds hn.2
  | function k hk body ih => exact function_run hk (ih hd hn)
  | uninitialized k hk => exact uninitialized_run hk rest
  | initialized k hk value =>
    have run := initialized_run hk hd rest
    rwa [List.append_cons] at run
  | stated s ih =>
    obtain ⟨k, hk, ks, hy⟩ := s.starts_statement
    have run : (statement room).run (s.yield ++ rest) = pass rest := ih hd hn
    show (declaration room).run (s.yield ++ rest) = pass rest
    rw [hy, List.cons_append] at run ⊢
    rw [declaration_run_statement hk, run]
  | block ds ih =>
    obtain ⟨n, rfl⟩ := Nat.exists_eq_add_one_of_ne_zero (Nat.ne_zero_of_lt hd)
    have run := block_run (ih (Nat.le_of_succ_le_succ hd) hn)
    rwa [List.append_cons] at run
  | ifOnly condition yes ih =>
    obtain ⟨n, rfl⟩ := Nat.exists_eq_add_one_of_ne_zero (Nat.ne_zero_of_lt hd)
    obtain ⟨hc, hy⟩ := Nat.max_le.mp (Nat.le_of_succ_le_succ hd)
    rw [yield, Form.Reads, List.append_assoc]
    exact ifOnly_run hc (ih hy hn.1) hn.2
  | ifElse condition yes no ihy ihn =>
    obtain ⟨n, rfl⟩ := Nat.exists_eq_add_one_of_ne_zero (Nat.ne_zero_of_lt hd)
    obtain ⟨hc, hb⟩ := Nat.max_le.mp (Nat.le_of_succ_le_succ hd)
    obtain ⟨hy, hno⟩ := Nat.max_le.mp hb
    rw [yield, Form.Reads, List.append_assoc, List.append_assoc]
    exact ifElse_run hc (ihy hy hn.1) (ihn hno hn.2)
  | returnNothing =>
    show (statement room).run (.keyword .kwReturn :: .sign .semicolon :: rest) = pass rest
    rw [statement_run_return, returnTail, Rule.ifAhead_run_cons, if_pos BEq.rfl, ended,
      Rule.exactly_run_cons]
  | returnValue value =>
    have run := returnValue_run hd rest
    rwa [List.append_cons] at run
  | simple t =>
    rw [yield, Form.Reads, List.append_assoc]
    exact simple_run hd rest

/-- The rule for declarations reads a declaration that is followed by no `else` it
could take. -/
theorem declaration_run_yield {t : StatementTree .declaration} {rest : List Kind}
    (hd : t.depth ≤ room) (hn : t.NearestElse rest) :
    (declaration room).run (t.yield ++ rest) = pass rest :=
  t.reads_yield hd hn

end MiniC.Grammar
