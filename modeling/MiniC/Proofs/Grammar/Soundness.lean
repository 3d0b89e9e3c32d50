import MiniC.Proofs.Grammar.Judgment
import MiniC.Proofs.Grammar.Parts

/-!
# Soundness of the rules

A rule that passes has read what its part of the grammar derives, within the levels
that it had left.  A rule that fails has read what its part begins with, unless it
had no level left.  `expression_meets`, `statement_meets` and `declaration_meets`
say so.

A failure comes with the beginning of a tree because every rule goes on only where
the grammar can go on.  The completion is put together on the way up: what a part
has begun is completed by the part, and what must stand behind it is added.
-/

namespace MiniC.Grammar

open Rule (Meets)

variable {room : Nat}

/-! ## Expressions -/

/-- The rules one level down do what they should, if there is a level left. -/
def InnerMeets (room : Nat) : Prop :=
  ∀ n, room = n + 1 → (expression n).Meets (Rank.expression.Whole n) Rank.expression.Begun

/-- What `innerExpression` gives is the rule one level down. -/
theorem InnerMeets.of_eq {r : Rule} (h : InnerMeets room) (hr : innerExpression room = some r) :
    ∃ n, room = n + 1 ∧ r.Meets (Rank.expression.Whole n) Rank.expression.Begun := by
  cases room with
  | zero => cases hr
  | succ n =>
    cases hr
    exact ⟨n, rfl, h n rfl⟩

/-- An expression and one more kind behind it. -/
theorem closed_meets {e : Rule} (he : e.Meets (Rank.expression.Whole room) Rank.expression.Begun)
    (k : Kind) (c : Complaint) :
    (e.seq (.exactly k c)).Meets
      (fun read _ => ∃ t : ExpressionTree .expression, read = t.yield ++ [k] ∧ t.depth ≤ room)
      (fun read => ∃ t : ExpressionTree .expression, read <+: t.yield ++ [k]) := by
  refine Meets.seq he Meets.exactly ?_ ?_ ?_
  · rintro read more rest ⟨t, rfl, hd⟩ rfl
    exact ⟨t, rfl, hd⟩
  · rintro read ⟨t, ht⟩
    exact ⟨t, List.prefix_append_of_prefix ht⟩
  · rintro read rest more ⟨t, rfl, _⟩ rfl
    exact ⟨t, by rw [List.append_nil]; exact List.prefix_append _ _⟩

theorem operand_meets (h : InnerMeets room) :
    (Rank.operand.rule room).Meets (Rank.operand.Whole room) Rank.operand.Begun := by
  refine Meets.opening rfl (fun r hr => ?_) (Meets.one (fun k rest hk => ?_) ?_)
  · obtain ⟨inner, hi, rfl⟩ := Option.map_eq_some_iff.mp hr
    obtain ⟨n, rfl, hm⟩ := h.of_eq hi
    refine (closed_meets hm _ _).mono ?_ ?_
    · rintro read rest ⟨t, rfl, hd⟩
      exact ⟨.parenthesized t, rfl, Nat.succ_le_succ hd⟩
    · rintro read ⟨t, ht⟩
      refine ⟨.parenthesized t, ?_⟩
      rw [ExpressionTree.yield, List.cons_prefix_cons]
      exact ⟨rfl, ht⟩
  · rcases isOperand_iff.mp hk with rfl | rfl
    · exact ⟨.number, rfl, Nat.zero_le _⟩
    · exact ⟨.identifier, rfl, Nat.zero_le _⟩
  · exact ⟨.number, List.nil_prefix⟩

/-- Signs can be put before an operand. -/
theorem ExpressionTree.exists_signed {skipped : List Kind}
    (h : ∀ k ∈ skipped, leadsUnary k = true) (t : ExpressionTree .unary) :
    ∃ t' : ExpressionTree .unary, t'.yield = skipped ++ t.yield ∧ t'.depth = t.depth := by
  induction skipped with
  | nil => exact ⟨t, rfl, rfl⟩
  | cons k skipped ih =>
    obtain ⟨t', hy, hd⟩ := ih fun j hj => h j (List.mem_cons_of_mem k hj)
    obtain ⟨s, hs, rfl⟩ := leadsUnary_iff.mp (h k List.mem_cons_self)
    exact ⟨.signed s hs t', by rw [yield, hy]; rfl, hd⟩

theorem unary_meets (h : InnerMeets room) :
    (Rank.unary.rule room).Meets (Rank.unary.Whole room) Rank.unary.Begun := by
  refine Meets.skipping fun skipped hs => (operand_meets h).mono ?_ ?_
  · rintro read rest ⟨t, rfl, hd⟩
    obtain ⟨t', hy, hd'⟩ := ExpressionTree.exists_signed hs (.unsigned t)
    exact ⟨t', hy, hd' ▸ hd⟩
  · rintro read ⟨t, ht⟩
    obtain ⟨t', hy, _⟩ := ExpressionTree.exists_signed hs (.unsigned t)
    refine ⟨t', ?_⟩
    rw [hy, List.prefix_append_right_inj]
    exact ht

/-- A chain reads a level if its operands are what stands between the operators. -/
theorem level_meets (l : Level)
    (h : (l.inner.rule room).Meets (l.inner.Whole room) l.inner.Begun) :
    ((Rank.level l).rule room).Meets ((Rank.level l).Whole room) (Rank.level l).Begun := by
  rw [l.rule_eq]
  refine Meets.chain h ?_ ?_ ?_ ?_
  · rintro read rest ⟨t, rfl, hd⟩
    exact ⟨.single t, rfl, hd⟩
  · rintro read k more rest hk ⟨t, rfl, ht⟩ ⟨u, rfl, hu⟩
    obtain ⟨s, hs, rfl⟩ := Level.joins_iff.mp hk
    exact ⟨.joined t s hs u, rfl, Nat.max_le.mpr ⟨ht, hu⟩⟩
  · rintro read ⟨t, ht⟩
    exact ⟨.single t, ht⟩
  · rintro read rest k more hk ⟨t, rfl, _⟩ ⟨u, hu⟩
    obtain ⟨s, hs, rfl⟩ := Level.joins_iff.mp hk
    refine ⟨.joined t s hs u, ?_⟩
    rw [ExpressionTree.yield, List.prefix_append_right_inj, List.cons_prefix_cons]
    exact ⟨rfl, hu⟩

theorem levels_meet (h : InnerMeets room) (l : Level) :
    ((Rank.level l).rule room).Meets ((Rank.level l).Whole room) (Rank.level l).Begun := by
  have factor := level_meets .factor (unary_meets h)
  have term := level_meets .term factor
  have comparison := level_meets .comparison term
  cases l with
  | equality => exact level_meets .equality comparison
  | comparison => exact comparison
  | term => exact term
  | factor => exact factor

theorem assignment_meets (h : InnerMeets room) :
    (expression room).Meets (Rank.expression.Whole room) Rank.expression.Begun := by
  rw [expression_eq]
  refine Meets.ifNextTwo (Meets.echo (Meets.nested rfl fun r hr => ?_))
    ((levels_meet h .equality).mono ?_ ?_)
  · obtain ⟨n, rfl, hm⟩ := h.of_eq hr
    refine hm.mono ?_ ?_
    · rintro read rest ⟨t, rfl, hd⟩
      exact ⟨.assigned t, rfl, Nat.succ_le_succ hd⟩
    · rintro read ⟨t, ht⟩
      refine ⟨.assigned t, ?_⟩
      rw [ExpressionTree.yield, List.cons_prefix_cons, List.cons_prefix_cons]
      exact ⟨rfl, rfl, ht⟩
  · rintro read rest ⟨t, rfl, hd⟩
    exact ⟨.plain t, rfl, hd⟩
  · rintro read ⟨t, ht⟩
    exact ⟨.plain t, ht⟩

/-- The rule for expressions reads expressions. -/
theorem expression_meets (room : Nat) :
    (expression room).Meets (Rank.expression.Whole room) Rank.expression.Begun := by
  induction room with
  | zero =>
    refine assignment_meets fun n hn => ?_
    cases hn
  | succ n ih =>
    refine assignment_meets fun m hm => ?_
    cases hm
    exact ih

/-! ## Statements -/

/-- The condition of a conditional, behind the `if`. -/
theorem condition_meets (n : Nat) :
    ((Rule.exactly (.sign .leftParen) .conditionNotOpened).seq
      ((expression n).seq (.exactly (.sign .rightParen) .conditionNotClosed))).Meets
      (fun read _ => ∃ t, .keyword .kwIf :: read = conditionYield t ∧ t.depth ≤ n)
      (fun read => ∃ t, .keyword .kwIf :: read <+: conditionYield t) := by
  refine Meets.seq Meets.exactly (closed_meets (expression_meets n) _ _) ?_ ?_ ?_
  · rintro read more rest rfl ⟨t, rfl, hd⟩
    exact ⟨t, rfl, hd⟩
  · rintro read rfl
    exact ⟨plainNumber, List.prefix_append _ _⟩
  · rintro read rest more rfl ⟨t, ht⟩
    refine ⟨t, ?_⟩
    rw [conditionYield, List.cons_prefix_cons, List.singleton_append, List.cons_prefix_cons]
    exact ⟨rfl, rfl, ht⟩

/-- The branches of a conditional, behind any condition. -/
theorem branches_meet {n : Nat} {s : Rule}
    (hs : s.Meets (Form.statement.Whole n) Form.statement.Begun) :
    (s.andIfNext (· == .keyword .kwElse) s).Meets
      (fun read rest => ∀ t : ExpressionTree .expression, t.depth ≤ n →
        Form.statement.Whole (n + 1) (conditionYield t ++ read) rest)
      (fun read => ∀ t : ExpressionTree .expression,
        Form.statement.Begun (conditionYield t ++ read)) := by
  refine Meets.andIfNext hs hs ?_ ?_ ?_ ?_
  · rintro read rest ⟨yes, rfl, hd, hn⟩ hk t ht
    refine ⟨.ifOnly t yes, rfl, Nat.succ_le_succ (Nat.max_le.mpr ⟨ht, hd⟩), hn, fun he => ?_⟩
    have := hk _ he
    cases this
  · rintro read k more rest hk ⟨yes, rfl, hy, hny⟩ ⟨no, rfl, hn, hnn⟩ t ht
    obtain rfl := eq_of_beq hk
    exact ⟨.ifElse t yes no, rfl,
      Nat.succ_le_succ (Nat.max_le.mpr ⟨ht, Nat.max_le.mpr ⟨hy, hn⟩⟩), hny, hnn⟩
  · rintro read ⟨yes, hy⟩ t
    exact ⟨.ifOnly t yes, (List.prefix_append_right_inj _).mpr hy⟩
  · rintro read rest k more hk ⟨yes, rfl, _, _⟩ ⟨no, hn⟩ t
    obtain rfl := eq_of_beq hk
    refine ⟨.ifElse t yes no, ?_⟩
    rw [StatementTree.yield, List.prefix_append_right_inj, List.prefix_append_right_inj,
      List.cons_prefix_cons]
    exact ⟨rfl, hn⟩

theorem conditionalTail_meets {n : Nat}
    (hs : (statement n).Meets (Form.statement.Whole n) Form.statement.Begun) :
    (conditionalTail (expression n) (statement n)).Meets
      (fun more => Form.statement.Whole (n + 1) (.keyword .kwIf :: more))
      (fun more => Form.statement.Begun (.keyword .kwIf :: more)) := by
  refine Meets.seq (condition_meets n) (branches_meet hs) ?_ ?_ ?_
  · rintro read more rest ⟨t, ht, hd⟩ hw
    rw [← List.cons_append, ht]
    exact hw t hd
  · rintro read ⟨t, ht⟩
    exact ⟨.ifOnly t .returnNothing, List.prefix_append_of_prefix ht⟩
  · rintro read rest more ⟨t, ht, _⟩ hb
    rw [← List.cons_append, ht]
    exact hb t

/-- The declarations of a block and its closing brace, behind the opening one. -/
theorem blockTail_meets {n : Nat}
    (hd : (declaration n).Meets (Form.declaration.Whole n) Form.declaration.Begun) :
    (blockTail (declaration n)).Meets
      (fun more => Form.statement.Whole (n + 1) (.sign .leftBrace :: more))
      (fun more => Form.statement.Begun (.sign .leftBrace :: more)) := by
  -- The loop adds one declaration at a time to the row, so the row is read off first.
  have row : (blockTail (declaration n)).Meets
      (fun read rest => ∃ ds : StatementTree .declarations, read = ds.yield ++ [.sign .rightBrace] ∧
        ds.depth ≤ n ∧ ds.NearestElse (.sign .rightBrace :: rest))
      (fun read => ∃ ds : StatementTree .declarations,
        read <+: ds.yield ++ [.sign .rightBrace]) := by
    refine Meets.items hd ?_ ?_ ?_ ?_ ?_
    · intro k rest hk
      rw [eq_of_beq hk]
      exact ⟨.nil, rfl, Nat.zero_le _, trivial⟩
    · rintro read more rest ⟨d, rfl, hd, hn⟩ ⟨ds, rfl, hds, hns⟩
      rw [List.append_assoc, List.singleton_append] at hn
      exact ⟨.cons d ds, (List.append_assoc _ _ _).symm, Nat.max_le.mpr ⟨hd, hds⟩, hn, hns⟩
    · exact ⟨.nil, List.nil_prefix⟩
    · rintro read ⟨d, hd⟩
      refine ⟨.cons d .nil, ?_⟩
      rw [StatementTree.yield, List.append_assoc]
      exact List.prefix_append_of_prefix hd
    · rintro read rest more ⟨d, rfl, _, _⟩ ⟨ds, hds⟩
      refine ⟨.cons d ds, ?_⟩
      rw [StatementTree.yield, List.append_assoc, List.prefix_append_right_inj]
      exact hds
  refine row.mono ?_ ?_
  · rintro read rest ⟨ds, rfl, hd, hn⟩
    exact ⟨.block ds, rfl, Nat.succ_le_succ hd, hn⟩
  · rintro read ⟨ds, hds⟩
    refine ⟨.block ds, ?_⟩
    rw [StatementTree.yield, List.cons_prefix_cons]
    exact ⟨rfl, hds⟩

theorem statementOf_meets {inBlock inConditional : Option Rule}
    (hb : ∀ r, inBlock = some r →
      r.Meets (fun more => Form.statement.Whole room (.sign .leftBrace :: more))
        (fun more => Form.statement.Begun (.sign .leftBrace :: more)))
    (hc : ∀ r, inConditional = some r →
      r.Meets (fun more => Form.statement.Whole room (.keyword .kwIf :: more))
        (fun more => Form.statement.Begun (.keyword .kwIf :: more))) :
    (statementOf (expression room) inBlock inConditional).Meets (Form.statement.Whole room)
      Form.statement.Begun := by
  have closed := fun c => closed_meets (expression_meets room) (.sign .semicolon) c
  refine Meets.opening rfl hb (Meets.opening rfl hc (Meets.ifNext (fun k hk => ?_) ?_))
  · obtain rfl := eq_of_beq hk
    refine Meets.ifAhead (Meets.exactly.mono ?_ ?_) ((closed .returnNotEnded).mono ?_ ?_)
    · rintro read rest rfl
      exact ⟨.returnNothing, rfl, Nat.zero_le _, trivial⟩
    · rintro read rfl
      exact ⟨.returnNothing, List.prefix_append [_] [_]⟩
    · rintro read rest ⟨t, rfl, hd⟩
      exact ⟨.returnValue t, rfl, hd, trivial⟩
    · rintro read ⟨t, ht⟩
      refine ⟨.returnValue t, ?_⟩
      rw [StatementTree.yield, List.cons_prefix_cons]
      exact ⟨rfl, ht⟩
  · refine (closed .expressionNotEnded).mono ?_ ?_
    · rintro read rest ⟨t, rfl, hd⟩
      exact ⟨.simple t, rfl, hd, trivial⟩
    · rintro read ⟨t, ht⟩
      exact ⟨.simple t, ht⟩

/-! ## Declarations -/

theorem functionTail_meets {t : Keyword} (ht : t ∈ typeNames) {s : Rule}
    (hs : s.Meets (Form.statement.Whole room) Form.statement.Begun) :
    (functionTail s).Meets
      (fun more => Form.declaration.Whole room
        (.keyword t :: .identifier :: .sign .leftParen :: more))
      (fun more => Form.declaration.Begun
        (.keyword t :: .identifier :: .sign .leftParen :: more)) := by
  refine Meets.seq Meets.exactly (Meets.echo hs) ?_ ?_ ?_
  · rintro read more rest rfl ⟨body, rfl, hd, hn⟩
    exact ⟨.function t ht body, rfl, hd, hn⟩
  · rintro read rfl
    exact ⟨.function t ht .returnNothing, List.prefix_append [_, _, _] _⟩
  · rintro read rest more rfl ⟨body, hb⟩
    refine ⟨.function t ht body, ?_⟩
    rw [StatementTree.yield]
    exact (List.prefix_append_right_inj [_, _, _, _]).mpr hb

theorem variableTail_meets {t : Keyword} (ht : t ∈ typeNames) :
    (variableTail (expression room)).Meets
      (fun more => Form.declaration.Whole room (.keyword t :: .identifier :: more))
      (fun more => Form.declaration.Begun (.keyword t :: .identifier :: more)) := by
  refine Meets.ifNext (fun k hk => ?_) (Meets.exactly.mono ?_ ?_)
  · obtain rfl := eq_of_beq hk
    refine (closed_meets (Meets.echo (expression_meets room)) _ _).mono ?_ ?_
    · rintro read rest ⟨value, rfl, hd⟩
      exact ⟨.initialized t ht value, rfl, hd, trivial⟩
    · rintro read ⟨value, hv⟩
      refine ⟨.initialized t ht value, ?_⟩
      rw [StatementTree.yield]
      exact (List.prefix_append_right_inj [_, _, _]).mpr hv
  · rintro read rest rfl
    exact ⟨.uninitialized t ht, rfl, Nat.zero_le _, trivial⟩
  · rintro read rfl
    exact ⟨.uninitialized t ht, List.prefix_append [_, _] _⟩

theorem typeTail_meets {t : Keyword} (ht : t ∈ typeNames) {s : Rule}
    (hs : s.Meets (Form.statement.Whole room) Form.statement.Begun) :
    (typeTail (expression room) s).Meets
      (fun more => Form.declaration.Whole room (.keyword t :: more))
      (fun more => Form.declaration.Begun (.keyword t :: more)) := by
  have behindName : (Rule.ifNext (· == .sign .leftParen) (functionTail s)
      (variableTail (expression room))).Meets
      (fun more => Form.declaration.Whole room (.keyword t :: .identifier :: more))
      (fun more => Form.declaration.Begun (.keyword t :: .identifier :: more)) := by
    refine Meets.ifNext (fun k hk => ?_) (variableTail_meets ht)
    obtain rfl := eq_of_beq hk
    exact functionTail_meets ht hs
  refine Meets.seq Meets.exactly behindName ?_ ?_ ?_
  · rintro read more rest rfl hw
    exact hw
  · rintro read rfl
    exact ⟨.uninitialized t ht, List.prefix_append [_] _⟩
  · rintro read rest more rfl hb
    exact hb

theorem declaration_meets_of_statement
    (hs : (statement room).Meets (Form.statement.Whole room) Form.statement.Begun) :
    (declaration room).Meets (Form.declaration.Whole room) Form.declaration.Begun := by
  refine Meets.ifNext (fun k hk => ?_) (hs.mono ?_ ?_)
  · obtain ⟨t, ht, rfl⟩ := isType_iff.mp hk
    exact typeTail_meets ht hs
  · rintro read rest ⟨s, rfl, hd, hn⟩
    exact ⟨.stated s, rfl, hd, hn⟩
  · rintro read ⟨s, h⟩
    exact ⟨.stated s, h⟩

/-- The rule for statements reads statements. -/
theorem statement_meets (room : Nat) :
    (statement room).Meets (Form.statement.Whole room) Form.statement.Begun := by
  induction room with
  | zero =>
    rw [statement_zero]
    refine statementOf_meets (fun r hr => ?_) (fun r hr => ?_)
    · cases hr
    · cases hr
  | succ n ih =>
    rw [statement_succ]
    refine statementOf_meets (fun r hr => ?_) (fun r hr => ?_)
    · cases hr
      exact blockTail_meets (declaration_meets_of_statement ih)
    · cases hr
      exact conditionalTail_meets ih

/-- The rule for declarations reads declarations. -/
theorem declaration_meets (room : Nat) :
    (declaration room).Meets (Form.declaration.Whole room) Form.declaration.Begun :=
  declaration_meets_of_statement (statement_meets room)

end MiniC.Grammar
