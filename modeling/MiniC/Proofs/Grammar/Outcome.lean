import MiniC.Grammar.Expression

/-!
# Passes and failures

An outcome that a rule can come to is either a pass, which reports nothing, or a
failure: one complaint or more, all made where the rule stopped.  How the two run
through the combinations is said here once, so that a proof about a rule is a case
split on what its parts come to.

Each combination of rules has an equation for what it does at the kinds ahead.  The
two loops over rules carry the reports made so far.  `moreOperands_cons` and
`itemsUntil_cons` restate them without: a round of a loop is a part and behind it
the rest of the loop.
-/

namespace MiniC.Grammar

namespace Outcome

/-- A failure that stops at `rest`, with the complaint `c` and then those of `cs`. -/
def failure (c : Complaint) (cs : List Complaint) (rest : List Kind) : Outcome :=
  ⟨false, rest, (c :: cs).map fun d => ⟨d, rest⟩⟩

theorem refusal_eq (c : Complaint) (ahead : List Kind) : refusal c ahead = failure c [] ahead := rfl

/-- A failure determines its complaints and where it stopped. -/
theorem failure_inj {c d : Complaint} {cs ds : List Complaint} {rest rest' : List Kind} :
    failure c cs rest = failure d ds rest' ↔ c = d ∧ cs = ds ∧ rest = rest' := by
  constructor
  · intro h
    obtain ⟨_, rfl, reports⟩ := Outcome.mk.inj h
    obtain ⟨rfl, rfl⟩ := List.cons.inj
      ((List.map_inj_right fun _ _ he => (Report.mk.inj he).1).mp reports)
    exact ⟨rfl, rfl, rfl⟩
  · rintro ⟨rfl, rfl, rfl⟩
    rfl

/-! ## How the two run through the combinations -/

@[simp] theorem passed_pass (rest : List Kind) : (pass rest).passed = true := rfl

@[simp] theorem rest_pass (rest : List Kind) : (pass rest).rest = rest := rfl

@[simp] theorem passed_failure (c : Complaint) (cs : List Complaint) (rest : List Kind) :
    (failure c cs rest).passed = false := rfl

@[simp] theorem rest_failure (c : Complaint) (cs : List Complaint) (rest : List Kind) :
    (failure c cs rest).rest = rest := rfl

@[simp] theorem pass_andThen (rest : List Kind) (next : List Kind → Outcome) :
    (pass rest).andThen next = next rest := rfl

@[simp] theorem failure_andThen (c : Complaint) (cs : List Complaint) (rest : List Kind)
    (next : List Kind → Outcome) : (failure c cs rest).andThen next = failure c cs rest := rfl

@[simp] theorem echo_pass (d : Complaint) (rest : List Kind) : (pass rest).echo d = pass rest := rfl

@[simp] theorem echo_failure (d c : Complaint) (cs : List Complaint) (rest : List Kind) :
    (failure c cs rest).echo d = failure c (cs ++ [d]) rest := by
  simp [failure, echo]

theorem after_after (made more : List Report) (o : Outcome) :
    (o.after more).after made = o.after (made ++ more) := by
  simp [after]

/-- What comes behind two parts comes behind the second one. -/
theorem andThen_assoc (o : Outcome) (f g : List Kind → Outcome) :
    (o.andThen f).andThen g = o.andThen fun ks => (f ks).andThen g := by
  rcases o with ⟨passed, rest, reports⟩
  cases passed with
  | false => rfl
  | true =>
    show ((f rest).after reports).andThen g = ((f rest).andThen g).after reports
    rcases f rest with ⟨passed, rest', reports'⟩
    cases passed with
    | false => rfl
    | true => exact (after_after reports reports' (g rest')).symm

/-- Only what is left matters to what comes behind. -/
theorem andThen_congr {o : Outcome} {f g : List Kind → Outcome} (h : f o.rest = g o.rest) :
    o.andThen f = o.andThen g := by
  rw [andThen, andThen, h]

end Outcome

namespace Rule

open Outcome (pass refusal)

variable {p : Kind → Bool} {k l : Kind} {c : Complaint} {a b r yes no : Rule}

/-- A rule is what it does. -/
theorem ext (h : ∀ ks, a.run ks = b.run ks) : a = b := by
  cases a
  cases b
  obtain rfl := funext h
  rfl

/-! ## What the combinations do -/

theorem one_run_cons (ks : List Kind) :
    (one p c).run (k :: ks) = if p k then pass ks else refusal c (k :: ks) := rfl

theorem exactly_run_cons (ks : List Kind) : (exactly k c).run (k :: ks) = pass ks :=
  if_pos BEq.rfl

theorem ifAhead_run_cons (ks : List Kind) :
    (ifAhead p yes no).run (k :: ks) = if p k then yes.run (k :: ks) else no.run (k :: ks) := rfl

theorem ifNext_run_cons (ks : List Kind) :
    (ifNext p yes no).run (k :: ks) = if p k then yes.run ks else no.run (k :: ks) := rfl

theorem ifNextTwo_run_cons (k' l' : Kind) (ks : List Kind) :
    (ifNextTwo k l yes no).run (k' :: l' :: ks) =
      if k' = k ∧ l' = l then yes.run ks else no.run (k' :: l' :: ks) := rfl

/-- The two kinds have to be there. -/
theorem ifNextTwo_run_of_ne {ks : List Kind} (h : ∀ tail, ks ≠ k :: l :: tail) :
    (ifNextTwo k l yes no).run ks = no.run ks := by
  match ks with
  | [] => rfl
  | [_] => rfl
  | k' :: l' :: ks =>
    rw [ifNextTwo_run_cons, if_neg]
    rintro ⟨rfl, rfl⟩
    exact h ks rfl

theorem opening_run_some (ks : List Kind) :
    (opening k c (some yes) no).run (k :: ks) = yes.run ks := by
  rw [opening, ifNext_run_cons, if_pos BEq.rfl]

theorem opening_run_none (ks : List Kind) :
    (opening k c none no).run (k :: ks) = refusal c (k :: ks) := by
  rw [opening, ifAhead_run_cons, if_pos BEq.rfl]
  rfl

theorem opening_run_nil {inner : Option Rule} : (opening k c inner no).run [] = no.run [] := by
  cases inner <;> rfl

theorem opening_run_of_ne {k' : Kind} {inner : Option Rule} (h : k' ≠ k) (ks : List Kind) :
    (opening k c inner no).run (k' :: ks) = no.run (k' :: ks) := by
  have hk : ¬ (k' == k) = true := fun he => h (eq_of_beq he)
  cases inner with
  | none => exact if_neg hk
  | some _ => exact if_neg hk

theorem skipping_run (ks : List Kind) : (skipping p r).run ks = r.run (ks.dropWhile p) := rfl

theorem seq_run (ks : List Kind) : (a.seq b).run ks = (a.run ks).andThen b.run := rfl

theorem echo_run (ks : List Kind) : (r.echo c).run ks = (r.run ks).echo c := rfl

theorem chain_run (ks : List Kind) :
    (chain p r).run ks = (r.run ks).andThen (moreOperands p r []) := rfl

theorem items_run (ks : List Kind) : (items p c r).run ks = itemsUntil p c r [] ks := rfl

/-! ## A part that may be missing -/

/-- Behind the first part of `andIfNext`: a kind with the property `p` and the rule
`r`, or nothing. -/
def orNothing (p : Kind → Bool) (r : Rule) : List Kind → Outcome
  | [] => pass []
  | k :: ks => if p k then r.run ks else pass (k :: ks)

theorem andIfNext_run (ks : List Kind) :
    (a.andIfNext p r).run ks = (a.run ks).andThen (orNothing p r) := rfl

/-! ## The loop over operands -/

/-- What was reported before a loop stands before what the loop reports. -/
theorem moreOperands_made (made : List Report) :
    ∀ ks, moreOperands p r made ks = (moreOperands p r [] ks).after made := by
  intro ks
  cases ks with
  | nil => simp [moreOperands, Outcome.after]
  | cons k ks =>
    rw [moreOperands, moreOperands]
    by_cases hk : p k = true
    · rw [if_pos hk, if_pos hk]
      have least := (r.fits ks).1
      rcases h : r.run ks with ⟨passed, rest, reports⟩
      rw [h] at least
      cases passed with
      | true =>
        show moreOperands p r (made ++ reports) rest = (moreOperands p r reports rest).after made
        rw [moreOperands_made _ rest, moreOperands_made reports rest, Outcome.after_after]
      | false => rfl
    · rw [if_neg hk, if_neg hk]
      simp [Outcome.after]
termination_by ks => ks.length
decreasing_by all_goals exact Nat.lt_succ_of_le least

theorem moreOperands_nil : moreOperands p r [] [] = pass [] := by rw [moreOperands, Outcome.pass]

/-- Behind an operand comes an operator and its operand, or the loop ends. -/
theorem moreOperands_cons (k : Kind) (ks : List Kind) :
    moreOperands p r [] (k :: ks) =
      if p k then (r.run ks).andThen (moreOperands p r []) else pass (k :: ks) := by
  rw [moreOperands]
  by_cases hk : p k = true
  · rw [if_pos hk, if_pos hk]
    rcases h : r.run ks with ⟨passed, rest, reports⟩
    cases passed with
    | true => exact moreOperands_made reports rest
    | false => rfl
  · rw [if_neg hk, if_neg hk, Outcome.pass]

/-! ## The loop over items -/

/-- What was reported before a loop stands before what the loop reports. -/
theorem itemsUntil_made (made : List Report) :
    ∀ ks, itemsUntil p c r made ks = (itemsUntil p c r [] ks).after made := by
  intro ks
  cases ks with
  | nil => simp [itemsUntil, Outcome.after]
  | cons k ks =>
    rw [itemsUntil, itemsUntil]
    by_cases hk : p k = true
    · rw [if_pos hk, if_pos hk]
      simp [Outcome.after]
    · rw [if_neg hk, if_neg hk]
      have less := (r.fits (k :: ks)).2
      rcases h : r.run (k :: ks) with ⟨passed, rest, reports⟩
      rw [h] at less
      cases passed with
      | true =>
        show itemsUntil p c r (made ++ reports) rest = (itemsUntil p c r reports rest).after made
        rw [itemsUntil_made _ rest, itemsUntil_made reports rest, Outcome.after_after]
      | false => rfl
termination_by ks => ks.length
decreasing_by all_goals exact less rfl

theorem itemsUntil_nil : itemsUntil p c r [] [] = refusal c [] := by
  rw [itemsUntil, Outcome.refusal, List.nil_append]

/-- The loop ends at a kind that closes it, or reads one more item. -/
theorem itemsUntil_cons (k : Kind) (ks : List Kind) :
    itemsUntil p c r [] (k :: ks) =
      if p k then pass ks else (r.run (k :: ks)).andThen (itemsUntil p c r []) := by
  rw [itemsUntil]
  by_cases hk : p k = true
  · rw [if_pos hk, if_pos hk, Outcome.pass]
  · rw [if_neg hk, if_neg hk]
    rcases h : r.run (k :: ks) with ⟨passed, rest, reports⟩
    cases passed with
    | true => exact itemsUntil_made reports rest
    | false => rfl

end Rule

end MiniC.Grammar
