import MiniC.Grammar.Statement
import MiniC.Proofs.Grammar.Outcome

/-!
# Complaints and their follow-ups

Three complaints only follow another one: a rule that was tried inside a construct has failed
and has said why.  They are added with `Rule.echo` and in no other way, and every other
complaint is made with `Outcome.refusal`.  What the grammar does with outcomes but for the
follow-ups is to put them behind each other, and `Outcome.Chained` is a property that this
keeps.

So a property of outcomes is one of all outcomes of the grammar if passes and refusals have it
and if it is kept when a part is put behind another one and when a follow-up is added.  Such a
property is `Outcome.Kept`, and `Outcome.Kept.declaration` is the induction over the rules,
done once.

`Outcome.Led` is such a property.  A failure makes one complaint of its own, and all that
come behind it are follow-ups.
-/

namespace MiniC.Grammar

/-- Tells the complaints that only follow another one. -/
def Complaint.follows : Complaint → Bool
  | badRightHandSide | badFunctionBody | badInitializer => true
  | _ => false

/-- Tells the complaints with which an expression fails. -/
def Complaint.ofExpression : Complaint → Bool
  | operandExpected | unclosedParenthesis | expressionTooDeep => true
  | _ => false

theorem Complaint.follows_of_ofExpression {c : Complaint} (h : c.ofExpression = true) :
    c.follows = false := by
  cases c <;> first | rfl | cases h

/-- A follow-up is made at the token where the failure stopped. -/
theorem Complaint.blamesPrevious_of_follows {c : Complaint} (h : c.follows = true) :
    c.blamesPrevious = false := by
  cases c <;> first | rfl | cases h

namespace Outcome

/-- A property of outcomes that is kept when one part is put behind another, as long as the
complaints of the parts are among their `own`. -/
structure Chained (own : Complaint → Prop) (P : Outcome → Prop) : Prop where
  /-- A pass has it. -/
  pass : ∀ rest, P (.pass rest)
  /-- A refusal has it. -/
  refusal : ∀ {c}, own c → ∀ ahead, P (.refusal c ahead)
  /-- One part behind another has it if the parts have it. -/
  andThen : ∀ {o next}, P o → (o.passed = true → P (next o.rest)) → P (o.andThen next)

/-- A property of outcomes that the combinations of rules keep. -/
structure Kept (P : Outcome → Prop) : Prop where
  /-- A pass has it. -/
  pass : ∀ rest, P (.pass rest)
  /-- A refusal has it. -/
  refusal : ∀ {c}, c.follows = false → ∀ ahead, P (.refusal c ahead)
  /-- One part behind another has it if the parts have it. -/
  andThen : ∀ {o next}, P o → (o.passed = true → P (next o.rest)) → P (o.andThen next)
  /-- Adding a follow-up keeps it. -/
  echo : ∀ {o c}, c.follows = true → P o → P (o.echo c)

theorem Kept.chained {P : Outcome → Prop} (h : Kept P) : Chained (·.follows = false) P where
  pass := h.pass
  refusal := h.refusal
  andThen := h.andThen

end Outcome

/-- All outcomes of the rule have the property. -/
def Rule.Has (P : Outcome → Prop) (r : Rule) : Prop := ∀ ks, P (r.run ks)

theorem Rule.Has.mono {P Q : Outcome → Prop} {r : Rule} (h : r.Has P) (hPQ : ∀ o, P o → Q o) :
    r.Has Q := fun ks => hPQ _ (h ks)

namespace Outcome.Chained

open Rule (Has one_run_cons ifAhead_run_cons ifNext_run_cons ifNextTwo_run_cons andIfNext_run
  orNothing moreOperands_nil moreOperands_cons items_run itemsUntil_nil itemsUntil_cons)

variable {own : Complaint → Prop} {P : Outcome → Prop} {p : Kind → Bool} {k l : Kind}
variable {c : Complaint} {a b r yes no : Rule} {inner : Option Rule}

/-! ### Reading single kinds -/

theorem refuse (h : Chained own P) (hc : own c) : (Rule.refuse c).Has P := h.refusal hc

theorem one (h : Chained own P) (hc : own c) : (Rule.one p c).Has P := by
  intro ks
  cases ks with
  | nil => exact h.refusal hc []
  | cons k ks =>
    rw [one_run_cons]
    split
    · exact h.pass ks
    · exact h.refusal hc (k :: ks)

theorem exactly (h : Chained own P) (hc : own c) : (Rule.exactly k c).Has P := h.one hc

/-! ### Looking ahead -/

theorem ifAhead (hy : yes.Has P) (hn : no.Has P) : (Rule.ifAhead p yes no).Has P := by
  intro ks
  cases ks with
  | nil => exact hn []
  | cons k ks =>
    rw [ifAhead_run_cons]
    split
    · exact hy (k :: ks)
    · exact hn (k :: ks)

theorem ifNext (hy : yes.Has P) (hn : no.Has P) : (Rule.ifNext p yes no).Has P := by
  intro ks
  cases ks with
  | nil => exact hn []
  | cons k ks =>
    rw [ifNext_run_cons]
    split
    · exact hy ks
    · exact hn (k :: ks)

theorem ifNextTwo (hy : yes.Has P) (hn : no.Has P) : (Rule.ifNextTwo k l yes no).Has P
  | [] => hn []
  | [_] => hn [_]
  | i :: j :: ks => by
    rw [ifNextTwo_run_cons]
    split
    · exact hy ks
    · exact hn (i :: j :: ks)

theorem nested (h : Chained own P) (hc : own c) (hi : ∀ r, inner = some r → r.Has P) :
    (Rule.nested c inner).Has P := by
  cases inner with
  | none => exact h.refuse hc
  | some r => exact hi r rfl

theorem opening (h : Chained own P) (hc : own c) (hi : ∀ r, inner = some r → r.Has P)
    (ho : no.Has P) : (Rule.opening k c inner no).Has P := by
  cases inner with
  | none => exact ifAhead (h.refuse hc) ho
  | some r => exact ifNext (hi r rfl) ho

theorem skipping (hr : r.Has P) : (Rule.skipping p r).Has P := fun ks => hr (ks.dropWhile p)

/-! ### One part behind another -/

theorem seq (h : Chained own P) (ha : a.Has P) (hb : b.Has P) : (a.seq b).Has P :=
  fun ks => h.andThen (ha ks) fun _ => hb _

theorem andIfNext (h : Chained own P) (ha : a.Has P) (hb : b.Has P) :
    (a.andIfNext p b).Has P := by
  intro ks
  rw [andIfNext_run]
  refine h.andThen (ha ks) fun _ => ?_
  cases (a.run ks).rest with
  | nil => exact h.pass []
  | cons k rest =>
    rw [orNothing]
    split
    · exact hb rest
    · exact h.pass (k :: rest)

/-! ### Loops -/

theorem moreOperands (h : Chained own P) (hr : r.Has P) (ks : List Kind) :
    P (Rule.moreOperands p r [] ks) := by
  cases ks with
  | nil =>
    rw [moreOperands_nil]
    exact h.pass []
  | cons k ks =>
    rw [moreOperands_cons]
    have shorter := Nat.lt_succ_of_le (r.fits ks).1
    split
    · exact h.andThen (hr ks) fun _ => moreOperands h hr (r.run ks).rest
    · exact h.pass (k :: ks)
termination_by ks.length
decreasing_by exact shorter

theorem chain (h : Chained own P) (hr : r.Has P) : (Rule.chain p r).Has P :=
  fun ks => h.andThen (hr ks) fun _ => h.moreOperands hr _

theorem items (h : Chained own P) (hc : own c) (hr : r.Has P) : (Rule.items p c r).Has P := by
  intro ks
  cases ks with
  | nil =>
    rw [items_run, itemsUntil_nil]
    exact h.refusal hc []
  | cons k ks =>
    rw [items_run, itemsUntil_cons]
    split
    · exact h.pass ks
    · refine h.andThen (hr (k :: ks)) fun passed => ?_
      have shorter := (r.fits (k :: ks)).2 passed
      exact items h hc hr (r.run (k :: ks)).rest
termination_by ks => ks.length
decreasing_by exact shorter

/-! ### The rules of the grammar -/

section Expressions

variable (h : Chained own P) (hc : ∀ c, c.ofExpression = true → own c)
include h hc

theorem parenthesisTail (hr : r.Has P) : (Grammar.parenthesisTail r).Has P :=
  h.seq hr (h.exactly (hc _ rfl))

variable (hi : ∀ r, inner = some r → r.Has P)
include hi

theorem operand : (Grammar.operand inner).Has P := by
  refine h.opening (hc _ rfl) (fun r hr => ?_) (h.one (hc _ rfl))
  obtain ⟨e, he, rfl⟩ := Option.map_eq_some_iff.mp hr
  exact h.parenthesisTail hc (hi e he)

theorem unary : (Grammar.unary inner).Has P := skipping (h.operand hc hi)

theorem factor : (Grammar.factor inner).Has P := h.chain (h.unary hc hi)

theorem term : (Grammar.term inner).Has P := h.chain (h.factor hc hi)

theorem comparison : (Grammar.comparison inner).Has P := h.chain (h.term hc hi)

theorem equality : (Grammar.equality inner).Has P := h.chain (h.comparison hc hi)

end Expressions

section Statements

variable {e s : Rule} {inBlock inConditional : Option Rule}

theorem functionTail (h : Chained (·.follows = false) P) (hf : (s.echo .badFunctionBody).Has P) :
    (Grammar.functionTail s).Has P := h.seq (h.exactly rfl) hf

theorem variableTail (h : Chained (·.follows = false) P)
    (hi : (e.echo .badInitializer).Has P) : (Grammar.variableTail e).Has P :=
  ifNext (h.seq hi (h.exactly rfl)) (h.exactly rfl)

theorem declarationOf (h : Chained (·.follows = false) P) (hi : (e.echo .badInitializer).Has P)
    (hf : (s.echo .badFunctionBody).Has P) (hs : s.Has P) :
    (Grammar.declarationOf e s).Has P :=
  ifNext (h.seq (h.exactly rfl) (ifNext (h.functionTail hf) (h.variableTail hi))) hs

theorem returnTail (h : Chained (·.follows = false) P) (he : e.Has P) :
    (Grammar.returnTail e).Has P := ifAhead (h.exactly rfl) (h.seq he (h.exactly rfl))

theorem simple (h : Chained (·.follows = false) P) (he : e.Has P) : (Grammar.simple e).Has P :=
  h.seq he (h.exactly rfl)

theorem blockTail (h : Chained (·.follows = false) P) (hr : r.Has P) :
    (Grammar.blockTail r).Has P := h.items rfl hr

theorem conditionalTail (h : Chained (·.follows = false) P) (he : e.Has P) (hs : s.Has P) :
    (Grammar.conditionalTail e s).Has P :=
  h.seq (h.seq (h.exactly rfl) (h.seq he (h.exactly rfl))) (h.andIfNext hs hs)

theorem statementOf (h : Chained (·.follows = false) P) (he : e.Has P)
    (hb : ∀ r, inBlock = some r → r.Has P) (hc : ∀ r, inConditional = some r → r.Has P) :
    (Grammar.statementOf e inBlock inConditional).Has P :=
  h.opening rfl hb (h.opening rfl hc (ifNext (h.returnTail he) (h.simple he)))

end Statements

end Outcome.Chained

namespace Outcome.Kept

variable {P : Outcome → Prop} {c : Complaint} {r : Rule} {inner : Option Rule}

theorem follow (h : Kept P) (hc : c.follows = true) (hr : r.Has P) : (r.echo c).Has P :=
  fun ks => h.echo hc (hr ks)

theorem assignment (h : Kept P) (hi : ∀ r, inner = some r → r.Has P) :
    (Grammar.assignment inner).Has P :=
  Chained.ifNextTwo (h.follow rfl (h.chained.nested rfl hi))
    (h.chained.equality (fun _ => Complaint.follows_of_ofExpression) hi)

theorem expression (h : Kept P) (room : Nat) : (Grammar.expression room).Has P := by
  induction room with
  | zero => exact h.assignment nofun
  | succ room ih =>
    refine h.assignment fun r hr => ?_
    cases hr
    exact ih

theorem declarationOf {e s : Rule} (h : Kept P) (he : e.Has P) (hs : s.Has P) :
    (Grammar.declarationOf e s).Has P :=
  h.chained.declarationOf (h.follow rfl he) (h.follow rfl hs) hs

theorem statement (h : Kept P) (room : Nat) : (Grammar.statement room).Has P := by
  induction room with
  | zero => exact h.chained.statementOf (h.expression 0) nofun nofun
  | succ room ih =>
    have inner := h.expression room
    refine h.chained.statementOf (h.expression _) (fun r hr => ?_) (fun r hr => ?_)
    · cases hr
      exact h.chained.blockTail (h.declarationOf inner ih)
    · cases hr
      exact h.chained.conditionalTail inner ih

/-- A property that is kept is one of all outcomes of a declaration. -/
theorem declaration (h : Kept P) (room : Nat) : (Grammar.declaration room).Has P :=
  h.declarationOf (h.expression room) (h.statement room)

end Outcome.Kept

/-! ## Follow-ups -/

/-- The outcome is a pass without a report, or a failure whose first complaint is its own and
whose other ones are follow-ups. -/
inductive Outcome.Led : Outcome → Prop where
  /-- It is a pass. -/
  | pass (rest : List Kind) : Led (.pass rest)
  /-- It is a failure. -/
  | failure {c : Complaint} {cs : List Complaint} (rest : List Kind) (hc : c.follows = false)
    (hcs : ∀ d ∈ cs, d.follows = true) : Led (.failure c cs rest)

theorem Outcome.led_kept : Outcome.Kept Led where
  pass := .pass
  refusal hc ahead := .failure ahead hc (List.forall_mem_nil _)
  andThen ho hn := by
    cases ho with
    | pass rest => exact hn rfl
    | failure rest hc hcs => exact .failure rest hc hcs
  echo hd ho := by
    cases ho with
    | pass rest => exact .pass rest
    | failure rest hc hcs =>
      rw [echo_failure]
      refine .failure rest hc fun e he => ?_
      rcases List.mem_append.mp he with he | he
      · exact hcs e he
      · rw [List.mem_singleton.mp he]
        exact hd

theorem Outcome.Led.reports_eq_nil {o : Outcome} (h : o.Led) (hp : o.passed = true) :
    o.reports = [] := by
  cases h with
  | pass rest => rfl
  | failure rest hc hcs => cases hp

/-- A declaration fails with one complaint of its own. -/
theorem declaration_led (room : Nat) (ks : List Kind) : ((declaration room).run ks).Led :=
  Outcome.led_kept.declaration room ks

end MiniC.Grammar
