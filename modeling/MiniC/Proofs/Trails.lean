import MiniC.Proofs.Citation
import MiniC.Proofs.Grammar.FollowUps

/-!
# What a failed declaration reports

A declaration fails with one complaint of its own.  While it is given up, the constructs it is
in add their follow-ups: first the right-hand sides of assignments, then the initializer of the
declaration they are in, and then the bodies of functions.  This row of follow-ups is a `trail`.

Only an expression can fail inside a right-hand side or an initializer.  An initializer is no
function body, so there is at most one.  And the trail is no longer than the levels allow.  A
right-hand side takes a level, except for the one that is refused, and a function body takes
none, but a declaration inside of it is inside of a block, which does.  So with `room` levels
left an expression adds at most one follow-up more than that, and a declaration at most two
more.

`failed_round_trails` says this of the diagnostics of a failed declaration, with the tokens that
they cite, and that the bound is reached.
-/

namespace MiniC

namespace Grammar

/-! ## Trails -/

/-- The follow-ups of `i` right-hand sides, `m` initializers and `j` function bodies. -/
def trail (i m j : Nat) : List Complaint :=
  List.replicate i .badRightHandSide ++ List.replicate m .badInitializer ++
    List.replicate j .badFunctionBody

theorem trail_append_rightHandSide (i : Nat) :
    trail i 0 0 ++ [.badRightHandSide] = trail (i + 1) 0 0 := by
  simp [trail, List.replicate_succ']

theorem trail_append_initializer (i : Nat) : trail i 0 0 ++ [.badInitializer] = trail i 1 0 := by
  simp [trail]

theorem trail_append_functionBody (i m j : Nat) :
    trail i m j ++ [.badFunctionBody] = trail i m (j + 1) := by
  simp [trail, List.replicate_succ']

namespace Outcome

/-! ## Outcomes of expressions -/

/-- The outcome is a pass, or a failure of an expression with at most `n` follow-ups. -/
inductive ExpressionTrails (n : Nat) : Outcome → Prop where
  /-- It is a pass. -/
  | pass (rest : List Kind) : ExpressionTrails n (.pass rest)
  /-- It is a failure, and the follow-ups are those of right-hand sides. -/
  | failure {c : Complaint} {i : Nat} (rest : List Kind) (hc : c.ofExpression = true)
    (bound : i ≤ n) : ExpressionTrails n (.failure c (trail i 0 0) rest)

variable {n : Nat} {o : Outcome}

theorem ExpressionTrails.succ (h : o.ExpressionTrails n) : o.ExpressionTrails (n + 1) := by
  cases h with
  | pass rest => exact .pass rest
  | failure rest hc bound => exact .failure rest hc (Nat.le_succ_of_le bound)

theorem expressionTrails_chained (n : Nat) :
    Chained (fun c => c.ofExpression = true) (ExpressionTrails n) where
  pass := .pass
  refusal hc ahead := .failure (i := 0) ahead hc (Nat.zero_le n)
  andThen ho hn := by
    cases ho with
    | pass rest => exact hn rfl
    | failure rest hc bound => exact .failure rest hc bound

/-- A right-hand side adds one follow-up. -/
theorem ExpressionTrails.echo (h : o.ExpressionTrails n) :
    (o.echo .badRightHandSide).ExpressionTrails (n + 1) := by
  cases h with
  | pass rest => exact .pass rest
  | failure rest hc bound =>
    rw [echo_failure, trail_append_rightHandSide]
    exact .failure rest hc (Nat.succ_le_succ bound)

/-! ## Outcomes of statements and declarations -/

/-- The outcome is a pass, or a failure with at most `n` follow-ups. -/
inductive Trails (n : Nat) : Outcome → Prop where
  /-- It is a pass. -/
  | pass (rest : List Kind) : Trails n (.pass rest)
  /-- It is a failure, and only an expression fails inside an expression. -/
  | failure {c : Complaint} {i m j : Nat} (rest : List Kind) (hc : c.follows = false)
    (once : m ≤ 1) (bound : i + m + j ≤ n) (inside : 0 < i + m → c.ofExpression = true) :
    Trails n (.failure c (trail i m j) rest)

theorem Trails.mono {n' : Nat} (h : o.Trails n) (hn : n ≤ n') : o.Trails n' := by
  cases h with
  | pass rest => exact .pass rest
  | failure rest hc once bound inside =>
    exact .failure rest hc once (Nat.le_trans bound hn) inside

theorem trails_chained (n : Nat) : Chained (fun c => c.follows = false) (Trails n) where
  pass := .pass
  refusal hc ahead := .failure (i := 0) (m := 0) (j := 0) ahead hc (Nat.zero_le 1) (Nat.zero_le n) nofun
  andThen ho hn := by
    cases ho with
    | pass rest => exact hn rfl
    | failure rest hc once bound inside => exact .failure rest hc once bound inside

theorem ExpressionTrails.trails (h : o.ExpressionTrails n) : o.Trails n := by
  cases h with
  | pass rest => exact .pass rest
  | failure rest hc bound =>
    exact .failure rest (Complaint.follows_of_ofExpression hc) (Nat.zero_le 1) bound fun _ => hc

/-- An initializer adds one follow-up to those of its expression. -/
theorem ExpressionTrails.initializer (h : o.ExpressionTrails n) :
    (o.echo .badInitializer).Trails (n + 1) := by
  cases h with
  | pass rest => exact .pass rest
  | failure rest hc bound =>
    rw [echo_failure, trail_append_initializer]
    exact .failure rest (Complaint.follows_of_ofExpression hc) (Nat.le_refl 1)
      (Nat.succ_le_succ bound) fun _ => hc

/-- A function body adds one follow-up to those of its statement. -/
theorem Trails.functionBody (h : o.Trails n) : (o.echo .badFunctionBody).Trails (n + 1) := by
  cases h with
  | pass rest => exact .pass rest
  | failure rest hc once bound inside =>
    rw [echo_failure, trail_append_functionBody]
    exact .failure rest hc once (Nat.succ_le_succ bound) inside

end Outcome

/-! ## The rules of the grammar -/

open Outcome (Chained ExpressionTrails Trails expressionTrails_chained trails_chained)

variable {n : Nat} {e s : Rule}

theorem assignment_trails {inner : Option Rule}
    (hi : ∀ r, inner = some r → r.Has (ExpressionTrails n)) :
    (assignment inner).Has (ExpressionTrails (n + 1)) := by
  have nested : (Rule.nested .expressionTooDeep inner).Has (ExpressionTrails n) :=
    (expressionTrails_chained n).nested rfl hi
  have equality : (equality inner).Has (ExpressionTrails n) :=
    (expressionTrails_chained n).equality (fun _ hc => hc) hi
  exact Chained.ifNextTwo (fun ks => (nested ks).echo) (equality.mono fun _ => .succ)

/-- An expression adds at most one follow-up more than there are levels. -/
theorem expression_trails (room : Nat) : (expression room).Has (ExpressionTrails (room + 1)) := by
  induction room with
  | zero => exact assignment_trails nofun
  | succ room ih =>
    refine assignment_trails fun r hr => ?_
    cases hr
    exact ih

theorem declarationOf_trails (he : e.Has (ExpressionTrails n)) (hs : s.Has (Trails n)) :
    (declarationOf e s).Has (Trails (n + 1)) :=
  (trails_chained (n + 1)).declarationOf (fun ks => (he ks).initializer)
    (fun ks => (hs ks).functionBody) (hs.mono fun _ h => h.mono (Nat.le_succ n))

theorem statement_trails (room : Nat) : (statement room).Has (Trails (room + 1)) := by
  have expressions : ∀ room, (expression room).Has (Trails (room + 1)) := fun room =>
    (expression_trails room).mono fun _ => ExpressionTrails.trails
  induction room with
  | zero => exact (trails_chained 1).statementOf (expressions 0) nofun nofun
  | succ room ih =>
    have chained := trails_chained (room + 2)
    have deeper {r : Rule} (h : r.Has (Trails (room + 1))) : r.Has (Trails (room + 2)) :=
      h.mono fun _ h => h.mono (Nat.le_succ _)
    refine chained.statementOf (expressions (room + 1)) (fun r hr => ?_) (fun r hr => ?_)
    · cases hr
      exact chained.blockTail (declarationOf_trails (expression_trails room) ih)
    · cases hr
      exact chained.conditionalTail (deeper (expressions room)) (deeper ih)

/-- A declaration adds at most two follow-ups more than there are levels. -/
theorem declaration_trails (room : Nat) : (declaration room).Has (Trails (room + 2)) :=
  declarationOf_trails (expression_trails room) (statement_trails room)

end Grammar

/-! ## The diagnostics of a failed declaration -/

open Grammar (Complaint Report Round trail)

/-- The diagnostics of a declaration that stopped at the place `p` of a row: the complaint `c`
and behind it the follow-ups of `i` right-hand sides, `m` initializers and `j` function
bodies. -/
structure TrailsAt (row : List Token) (p : Nat) (ds : List Diagnostic) (c : Complaint)
    (i m j : Nat) : Prop where
  /-- The complaint has another message than the follow-ups. -/
  own : c.message ∉ [Complaint.badRightHandSide.message, Complaint.badInitializer.message,
    Complaint.badFunctionBody.message]
  /-- The messages come in this order. -/
  messages : ds.map Diagnostic.message = c.message ::
    (List.replicate i Complaint.badRightHandSide.message ++
      List.replicate m Complaint.badInitializer.message ++
      List.replicate j Complaint.badFunctionBody.message)
  /-- There is one initializer at most. -/
  once : m ≤ 1
  /-- There are no more follow-ups than this. -/
  bound : i + m + j ≤ 258
  /-- Only an expression fails in a right-hand side or an initializer. -/
  inside : 0 < i ∨ 0 < m → c ∈ [.operandExpected, .unclosedParenthesis, .expressionTooDeep]
  /-- The complaint cites the token where the declaration stopped, or the one before if
  something is missing behind it. -/
  primary : ∀ d ∈ ds.head?, if c ∈ [.returnNotEnded, .expressionNotEnded, .variableNotEnded,
    .nameExpected] then 0 < p ∧ Cites row (p - 1) d else Cites row p d
  /-- The follow-ups cite the token where the declaration stopped. -/
  followUps : ∀ d ∈ ds.tail, Cites row p d

theorem message_notMem_of_follows {c : Complaint} (h : c.follows = false) :
    c.message ∉ [Complaint.badRightHandSide.message, Complaint.badInitializer.message,
      Complaint.badFunctionBody.message] := by
  cases c <;> first | decide | cases h

theorem blamesPrevious_iff {c : Complaint} : c.blamesPrevious = true ↔
    c ∈ [Complaint.returnNotEnded, .expressionNotEnded, .variableNotEnded, .nameExpected] := by
  cases c <;> decide

theorem ofExpression_iff {c : Complaint} : c.ofExpression = true ↔
    c ∈ [Complaint.operandExpected, .unclosedParenthesis, .expressionTooDeep] := by
  cases c <;> decide

theorem follows_of_mem_trail {i m j : Nat} : ∀ c ∈ trail i m j, c.follows = true := by
  intro c hc
  simp only [trail, List.mem_append, List.mem_replicate] at hc
  rcases hc with (⟨_, rfl⟩ | ⟨_, rfl⟩) | ⟨_, rfl⟩
  · rfl
  · rfl
  · rfl

/-- A report that blames the token before is not made at the front of the row. -/
theorem position_pos {row : List Token} {r : Round} (hr : r ∈ (Verdict.ofTokens row).rounds)
    {a : Report} (ha : a ∈ r.outcome.reports) (hc : a.complaint.blamesPrevious = true) :
    0 < (Sentence.ofTokens row).position a.ahead := by
  have within : a.reach ≤ (Sentence.ofTokens row).kinds.length :=
    Grammar.reach_le_of_mem_roundReports (List.mem_flatMap.mpr ⟨r, hr, ha⟩)
  rw [Report.reach, if_pos hc, Sentence.length_kinds] at within
  rw [Sentence.position]
  omega

/-- A report cites the place where it is made, or the one before if it blames that. -/
theorem cites_primary (row : List Token) {a : Report} (back : a.complaint.blamesPrevious = true →
      0 < (Sentence.ofTokens row).position a.ahead) :
    if a.complaint ∈ [.returnNotEnded, .expressionNotEnded, .variableNotEnded, .nameExpected] then
      0 < (Sentence.ofTokens row).position a.ahead ∧
        Cites row ((Sentence.ofTokens row).position a.ahead - 1)
          ((Sentence.ofTokens row).diagnose a)
    else Cites row ((Sentence.ofTokens row).position a.ahead)
      ((Sentence.ofTokens row).diagnose a) := by
  by_cases hp : a.complaint.blamesPrevious = true
  · have cites := cites_diagnose row a
    rw [Sentence.blamed, if_pos hp] at cites
    rw [if_pos (blamesPrevious_iff.mp hp)]
    exact ⟨back hp, cites⟩
  · rw [if_neg fun h => hp (blamesPrevious_iff.mpr h)]
    exact cites_position row (Bool.not_eq_true _ ▸ hp)

/-- The reports of a failure are a trail. -/
theorem trailsAt_failure (row : List Token) {c : Complaint} {i m j : Nat} {rest : List Kind}
    (hc : c.follows = false) (once : m ≤ 1) (bound : i + m + j ≤ 258)
    (inside : 0 < i + m → c.ofExpression = true)
    (back : c.blamesPrevious = true → 0 < (Sentence.ofTokens row).position rest) :
    TrailsAt row ((Sentence.ofTokens row).position rest)
      ((Grammar.Outcome.failure c (trail i m j) rest).reports.map (Sentence.ofTokens row).diagnose)
      c i m j where
  own := message_notMem_of_follows hc
  messages := by
    have texts : ((Grammar.Outcome.failure c (trail i m j) rest).reports.map
        (Sentence.ofTokens row).diagnose).map Diagnostic.message =
        c.message :: (trail i m j).map Complaint.message := by
      rw [Grammar.Outcome.failure, List.map_map, List.map_map]
      rfl
    rw [texts, trail, List.map_append, List.map_append, List.map_replicate, List.map_replicate,
      List.map_replicate]
  once := once
  bound := bound
  inside some := ofExpression_iff.mp (inside (by omega))
  primary := by
    rintro d ⟨rfl⟩
    exact cites_primary row (a := ⟨c, rest⟩) back
  followUps := by
    intro d hd
    simp only [Grammar.Outcome.failure, List.map_cons, List.tail_cons, List.map_map,
      List.mem_map, Function.comp_apply] at hd
    obtain ⟨follow, hm, rfl⟩ := hd
    have here := Complaint.blamesPrevious_of_follows (follows_of_mem_trail follow hm)
    exact cites_position row (r := ⟨follow, rest⟩) here

theorem exists_trailsAt (row : List Token) {r : Round}
    (hr : r ∈ (Verdict.ofTokens row).rounds) (hf : r.outcome.passed = false) :
    ∃ c i m j, TrailsAt row ((Sentence.ofTokens row).position r.outcome.rest)
      (r.outcome.reports.map (Sentence.ofTokens row).diagnose) c i m j := by
  have back : ∀ a ∈ r.outcome.reports, a.complaint.blamesPrevious = true →
      0 < (Sentence.ofTokens row).position a.ahead := fun a => position_pos hr
  have run : r.outcome = (Grammar.declaration 256).run r.start :=
    congrArg Round.outcome (Grammar.start_of_mem_rounds hr).1
  have trails : r.outcome.Trails 258 := run ▸ Grammar.declaration_trails 256 r.start
  generalize r.outcome = o at hf back trails ⊢
  cases trails with
  | pass rest => cases hf
  | @failure c i m j rest hc once bound inside =>
    exact ⟨c, i, m, j, trailsAt_failure row hc once bound inside
      (back ⟨c, rest⟩ List.mem_cons_self)⟩

theorem TrailsAt.length_eq {row : List Token} {p : Nat} {ds : List Diagnostic} {c : Complaint}
    {i m j : Nat} (h : TrailsAt row p ds c i m j) : ds.length = 1 + (i + m + j) := by
  have length := congrArg List.length h.messages
  simp only [List.length_map, List.length_cons, List.length_append, List.length_replicate] at length
  omega

/-- An initializer of assignments, the last of which is refused. -/
def longAssignment : List Token :=
  ⟨.keyword .kwInt, "int", 1⟩ ::
    (List.replicate 258 [⟨.identifier, "x", 1⟩, ⟨.sign .assign, "=", 1⟩]).flatten

/-- A declaration that fails makes one complaint of its own and at most 258 follow-ups, and
there are declarations with as many. -/
theorem failed_round_trails :
    (∀ row : List Token, ∀ r ∈ (Verdict.ofTokens row).rounds, r.outcome.passed = false →
      ∃ c i m j, TrailsAt row ((Sentence.ofTokens row).position r.outcome.rest)
        (r.outcome.reports.map (Sentence.ofTokens row).diagnose) c i m j) ∧
    ∃ row : List Token, ∃ r ∈ (Verdict.ofTokens row).rounds, r.outcome.passed = false ∧
      ∃ c i m j, TrailsAt row ((Sentence.ofTokens row).position r.outcome.rest)
        (r.outcome.reports.map (Sentence.ofTokens row).diagnose) c i m j ∧ i + m + j = 258 := by
  refine ⟨fun row r => exists_trailsAt row, longAssignment, ?_⟩
  have long : ∃ r ∈ (Verdict.ofTokens longAssignment).rounds, r.outcome.passed = false ∧
      r.outcome.reports.length = 259 := by decide +kernel
  obtain ⟨r, hr, hf, length⟩ := long
  obtain ⟨c, i, m, j, h⟩ := exists_trailsAt longAssignment hr hf
  have total := h.length_eq
  rw [List.length_map, length] at total
  exact ⟨r, hr, hf, c, i, m, j, h, by omega⟩

/-- A parenthesis that is not closed, in an assignment, in an initializer, in a function. -/
theorem trails_of_unclosed_parenthesis :
    ∃ r ∈ (Verdict.ofTokens (Scan.ofSource "int f() \x7b int x = y = (1;").tokens).rounds,
      r.outcome.passed = false ∧ ∃ c i m j,
        TrailsAt (Scan.ofSource "int f() \x7b int x = y = (1;").tokens 12
          (r.outcome.reports.map
            (Sentence.ofTokens (Scan.ofSource "int f() \x7b int x = y = (1;").tokens).diagnose)
          c i m j ∧ i + m + j = 3 := by
  let row := (Scan.ofSource "int f() \x7b int x = y = (1;").tokens
  let r : Round := ⟨(Sentence.ofTokens row).kinds, .failure .unclosedParenthesis
    [.badRightHandSide, .badInitializer, .badFunctionBody] [.sign .semicolon]⟩
  have hr : r ∈ (Verdict.ofTokens row).rounds := by decide +kernel
  have place : (Sentence.ofTokens row).position r.outcome.rest = 12 := by decide +kernel
  obtain ⟨c, i, m, j, h⟩ := failed_round_trails.1 row r hr rfl
  have total : 4 = 1 + (i + m + j) := h.length_eq
  rw [place] at h
  exact ⟨r, hr, rfl, c, i, m, j, h, by omega⟩

end MiniC
