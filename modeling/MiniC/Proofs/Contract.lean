import MiniC.Proofs.Grammar.FollowUps
import MiniC.Proofs.Standing

/-!
# What the routines owe to their callers

A routine that calls another one asks only whether that has passed.  It relies on the rest: a
routine that passes has recorded nothing and has gone on by one token at least, and one that
fails has said why and has not gone back.  Either way it has left what it opened, and it is
still within the sentence.  This is `Standing.Contract`.

`routines_keep_contract` says that every routine keeps the contract, wherever a walker stands
when it is called.  A round that fails has therefore reported something, and a round that
passes has not, so a sentence is accepted if and only if no round fails.

That something is reported by every failure and by nothing else is a property of outcomes that
the combinations of rules keep, `Outcome.Led`.
-/

namespace MiniC

namespace Grammar

open Outcome (Kept Led)

/-! ## Failures say why -/

/-- A property that is kept is one of all outcomes of an expression, whatever its rank. -/
theorem Outcome.Kept.rank {P : Outcome → Prop} (h : Kept P) (room : Nat) (r : Rank) :
    (r.rule room).Has P := by
  have own : ∀ c : Complaint, c.ofExpression = true → c.follows = false :=
    fun _ => Complaint.follows_of_ofExpression
  have inner : ∀ e, innerExpression room = some e → e.Has P := by
    intro e he
    cases room with
    | zero => cases he
    | succ room =>
      cases he
      exact h.expression room
  cases r with
  | expression => exact h.expression room
  | level l =>
    cases l with
    | equality => exact h.chained.equality own inner
    | comparison => exact h.chained.comparison own inner
    | term => exact h.chained.term own inner
    | factor => exact h.chained.factor own inner
  | unary => exact h.chained.unary own inner
  | operand => exact h.chained.operand own inner

/-- A property that is kept is one of all outcomes of a routine. -/
theorem Outcome.Kept.comesTo {P : Outcome → Prop} (h : Kept P) (room : Nat) (q : Routine)
    (ks : List Kind) : P (q.comesTo room ks) := by
  have expression := h.expression room
  have statement := h.statement room
  cases q with
  | rank r => exact h.rank room r ks
  | parenthesized =>
    exact h.chained.parenthesisTail (fun _ => Complaint.follows_of_ofExpression) expression ks.tail
  | declaration => exact h.declaration room ks
  | functionDeclaration => exact h.chained.functionTail (h.follow rfl statement) ks
  | variableDeclaration => exact h.chained.variableTail (h.follow rfl expression) ks
  | statement => exact statement ks
  | block => exact h.chained.blockTail (h.declaration room) ks.tail
  | conditional => exact h.chained.conditionalTail expression statement ks.tail
  | returned => exact h.chained.returnTail expression ks
  | simple => exact h.chained.simple expression ks

/-- What reports nothing has passed, and nothing else has. -/
theorem Outcome.Led.reports_eq_nil_iff {o : Outcome} (h : o.Led) :
    o.reports = [] ↔ o.passed = true := by
  cases h with
  | pass rest => exact ⟨fun _ => rfl, fun _ => rfl⟩
  | failure rest hc hcs => exact ⟨nofun, nofun⟩

end Grammar

open Grammar (Move Outcome Routine Walker Walks nestingLimit)

namespace Standing

/-- What a routine comes to when it is called from here. -/
def outcome (x : Standing) (q : Routine) : Outcome := q.comesTo x.room x.ahead

/-- What the callers of a routine rely on when it has led from one standing to another. -/
structure Contract (x : Standing) (passed : Bool) (y : Standing) : Prop where
  /-- The sentence is the same. -/
  sentence : y.sentence = x.sentence
  /-- What was opened has been left. -/
  opened : y.opened = x.opened
  /-- The end of the sentence is not passed over. -/
  inside : y.cursor ≤ x.sentence.tokens.size
  /-- A match records nothing, and goes on by one token at least. -/
  passes : passed = true → y.diagnostics = x.diagnostics ∧ x.cursor < y.cursor
  /-- A failure records something behind what was recorded, and does not go back. -/
  fails : passed = false → x.cursor ≤ y.cursor ∧ ∃ new, new ≠ [] ∧
    (∀ d ∈ new, d.isLexical = false) ∧ y.diagnostics.toList = x.diagnostics.toList ++ new

variable {x : Standing} {q : Routine}

/-- A call leads to where the routine comes to, and nowhere else. -/
theorem walks_call_iff {passed : Bool} {w : Walker} :
    (∃ t, Walks (some nestingLimit) x.sentence (.call q) x.walker passed w t) ↔
      passed = (x.outcome q).passed ∧ w = (x.after (x.outcome q)).walker :=
  walks_iff (Routine.walked _ x.sentence x.opened x.room q).does

theorem length_ahead (x : Standing) : x.ahead.length = x.sentence.tokens.size - x.cursor := by
  rw [ahead, List.length_drop, Sentence.length_kinds]

/-- What a routine comes to is what its callers rely on. -/
theorem contract_after (x : Standing) (q : Routine) :
    x.Contract (x.outcome q).passed (x.after (x.outcome q)) := by
  have within := x.cursor_le
  have fits := Routine.comesTo_fits x.room q x.ahead
  rw [length_ahead] at fits
  obtain ⟨least, less⟩ : (x.outcome q).rest.length ≤ x.sentence.tokens.size - x.cursor ∧
    ((x.outcome q).passed = true →
      (x.outcome q).rest.length < x.sentence.tokens.size - x.cursor) := fits
  have led : (x.outcome q).Led := Grammar.Outcome.led_kept.comesTo x.room q x.ahead
  have cursor : (x.after (x.outcome q)).cursor =
      x.sentence.tokens.size - (x.outcome q).rest.length := rfl
  have diagnostics : (x.after (x.outcome q)).diagnostics.toList =
      x.diagnostics.toList ++ (x.outcome q).reports.map x.sentence.diagnose := by
    simp [after]
  refine ⟨rfl, rfl, Nat.sub_le _ _, fun passed => ⟨?_, ?_⟩, fun failed => ⟨?_, ?_⟩⟩
  · rw [led.reports_eq_nil_iff.mpr passed, List.map_nil, List.append_nil] at diagnostics
    exact Collector.toList_inj.mp diagnostics
  · have := less passed
    omega
  · omega
  · refine ⟨_, fun silent => ?_, fun d hd => ?_, diagnostics⟩
    · rw [led.reports_eq_nil_iff.mp (List.map_eq_nil_iff.mp silent)] at failed
      cases failed
    · obtain ⟨r, _, rfl⟩ := List.mem_map.mp hd
      rfl

end Standing

/-- Every routine keeps its contract, wherever it is called.  So a row of tokens is accepted if
and only if no round over it fails. -/
theorem routines_keep_contract :
    (∀ (x : Standing) (q : Routine),
      (∀ passed w, (∃ t, Walks (some nestingLimit) x.sentence (.call q) x.walker passed w t) ↔
        passed = (x.outcome q).passed ∧ w = (x.after (x.outcome q)).walker) ∧
      x.Contract (x.outcome q).passed (x.after (x.outcome q))) ∧
    ∀ row, (Verdict.ofTokens row).accepted = true ↔
      ∀ r ∈ (Verdict.ofTokens row).rounds, r.outcome.passed = true := by
  constructor
  · intro x q
    exact ⟨fun _ _ => Standing.walks_call_iff, x.contract_after q⟩
  · intro row
    have said : ∀ r ∈ (Verdict.ofTokens row).rounds,
        (r.outcome.reports = [] ↔ r.outcome.passed = true) := by
      intro r hr
      rw [(Grammar.start_of_mem_rounds hr).1]
      exact (Grammar.declaration_led nestingLimit r.start).reports_eq_nil_iff
    rw [Verdict.accepted_iff, Verdict.reports, List.flatMap_eq_nil_iff]
    exact forall₂_congr said

end MiniC
