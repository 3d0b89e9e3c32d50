import MiniC.Grammar.Statement
import MiniC.Proofs.Grammar.Outcome

/-!
# How far back a report reaches

A report blames the kind where the reader stands or the one before.  In the latter case
it reaches back by one kind from where it was made.  The rule for a part of a construct
may blame what was read before the part, but the rule for a declaration blames only what
it has been given: whatever reaches back has read something before.

`Rule.LooksBack n` says of a rule that its reports reach back by at most `n` kinds from
where the rule began.  Behind a kind that was read, a rule may look back by one kind more.
`declaration_looksBack` says that a declaration does not look back at all.
-/

namespace MiniC.Grammar

/-- How many kinds there are from the blamed one to the end of the row. -/
def Report.reach (r : Report) : Nat :=
  r.ahead.length + if r.complaint.blamesPrevious then 1 else 0

theorem Report.reach_eq {c : Complaint} (hc : c.blamesPrevious = false) (ahead : List Kind) :
    (Report.mk c ahead).reach = ahead.length := by
  simp [reach, hc]

/-- The reports of one part behind another are those of the two. -/
theorem Outcome.mem_reports_andThen {o : Outcome} {next : List Kind → Outcome} {r : Report}
    (h : r ∈ (o.andThen next).reports) :
    r ∈ o.reports ∨ (o.passed = true ∧ r ∈ (next o.rest).reports) := by
  rw [andThen] at h
  split at h
  · next passed =>
    rcases List.mem_append.mp h with ho | hn
    · exact .inl ho
    · exact .inr ⟨passed, hn⟩
  · exact .inl h

/-- The reports of the rule reach back by at most `n` kinds from where it began. -/
def Rule.LooksBack (n : Nat) (r : Rule) : Prop :=
  ∀ ks, ∀ report ∈ (r.run ks).reports, report.reach ≤ ks.length + n

namespace Rule.LooksBack

variable {n : Nat} {p : Kind → Bool} {k l : Kind} {c : Complaint}
variable {a b r yes no : Rule} {inner : Option Rule}

theorem mono (h : r.LooksBack n) : r.LooksBack (n + 1) :=
  fun ks report hr => Nat.le_succ_of_le (h ks report hr)

/-! ### Reading single kinds -/

theorem refuse (hc : c.blamesPrevious = false) : (Rule.refuse c).LooksBack n := by
  intro ks report hr
  obtain rfl := List.mem_singleton.mp hr
  rw [Report.reach_eq hc]
  exact Nat.le_add_right _ _

theorem one (hc : c.blamesPrevious = true → 0 < n) : (Rule.one p c).LooksBack n := by
  have refused (ks : List Kind) : (Report.mk c ks).reach ≤ ks.length + n := by
    rw [Report.reach]
    by_cases h : c.blamesPrevious = true
    · have := hc h
      simp [h]
      omega
    · simp [h]
  intro ks report hr
  cases ks with
  | nil =>
    obtain rfl := List.mem_singleton.mp hr
    exact refused []
  | cons k ks =>
    rw [one_run_cons] at hr
    split at hr
    · cases hr
    · obtain rfl := List.mem_singleton.mp hr
      exact refused (k :: ks)

theorem exactly (hc : c.blamesPrevious = true → 0 < n) : (Rule.exactly k c).LooksBack n := one hc

/-! ### Looking ahead -/

theorem ifAhead (hy : yes.LooksBack n) (hn : no.LooksBack n) :
    (Rule.ifAhead p yes no).LooksBack n := by
  intro ks report hr
  cases ks with
  | nil => exact hn [] report hr
  | cons k ks =>
    rw [ifAhead_run_cons] at hr
    split at hr
    · exact hy _ report hr
    · exact hn _ report hr

theorem ifNext (hy : yes.LooksBack (n + 1)) (hn : no.LooksBack n) :
    (Rule.ifNext p yes no).LooksBack n := by
  intro ks report hr
  cases ks with
  | nil => exact hn [] report hr
  | cons k ks =>
    rw [ifNext_run_cons] at hr
    split at hr
    · have := hy ks report hr
      simp only [List.length_cons]
      omega
    · exact hn _ report hr

theorem ifNextTwo (hy : yes.LooksBack n) (hn : no.LooksBack n) :
    (Rule.ifNextTwo k l yes no).LooksBack n
  | [], report, hr => hn [] report hr
  | [_], report, hr => hn [_] report hr
  | i :: j :: ks, report, hr => by
    rw [ifNextTwo_run_cons] at hr
    split at hr
    · have := hy ks report hr
      simp only [List.length_cons]
      omega
    · exact hn _ report hr

theorem nested (hc : c.blamesPrevious = false) (hi : ∀ r, inner = some r → r.LooksBack n) :
    (Rule.nested c inner).LooksBack n := by
  cases inner with
  | none => exact refuse hc
  | some r => exact hi r rfl

theorem opening (hc : c.blamesPrevious = false)
    (hi : ∀ r, inner = some r → r.LooksBack (n + 1)) (ho : no.LooksBack n) :
    (Rule.opening k c inner no).LooksBack n := by
  cases inner with
  | none => exact ifAhead (refuse hc) ho
  | some r => exact ifNext (hi r rfl) ho

theorem skipping (h : r.LooksBack n) : (Rule.skipping p r).LooksBack n := by
  intro ks report hr
  have fewer := (List.dropWhile_suffix p (l := ks)).length_le
  have := h _ report hr
  omega

/-! ### One part behind another -/

theorem echo (h : r.LooksBack n) (hc : c.blamesPrevious = false) : (r.echo c).LooksBack n := by
  intro ks report hr
  rw [echo_run, Outcome.echo] at hr
  split at hr
  · exact h ks report hr
  · rcases List.mem_append.mp hr with hr | hr
    · exact h ks report hr
    · obtain rfl := List.mem_singleton.mp hr
      rw [Report.reach_eq hc]
      exact Nat.le_add_right_of_le (r.fits ks).1

theorem seq (ha : a.LooksBack n) (hb : b.LooksBack (n + 1)) : (a.seq b).LooksBack n := by
  intro ks report hr
  rcases Outcome.mem_reports_andThen hr with hr | ⟨passed, hr⟩
  · exact ha ks report hr
  · have less := (a.fits ks).2 passed
    have := hb _ report hr
    omega

theorem andIfNext (ha : a.LooksBack n) (hb : b.LooksBack n) :
    (a.andIfNext p b).LooksBack n := by
  intro ks report hr
  rw [andIfNext_run] at hr
  rcases Outcome.mem_reports_andThen hr with hr | ⟨passed, hr⟩
  · exact ha ks report hr
  · have less := (a.fits ks).2 passed
    cases hrest : (a.run ks).rest with
    | nil =>
      rw [hrest] at hr
      cases hr
    | cons k rest =>
      rw [hrest] at hr less
      rw [orNothing] at hr
      split at hr
      · have := hb rest report hr
        simp only [List.length_cons] at less
        omega
      · cases hr

/-! ### Loops -/

theorem moreOperands (h : r.LooksBack n) : ∀ ks,
    ∀ report ∈ (Rule.moreOperands p r [] ks).reports, report.reach ≤ ks.length + n
  | [], report, hr => by
    rw [moreOperands_nil] at hr
    cases hr
  | k :: ks, report, hr => by
    rw [moreOperands_cons] at hr
    have shorter := Nat.lt_succ_of_le (r.fits ks).1
    split at hr
    · rcases Outcome.mem_reports_andThen hr with hr | ⟨_, hr⟩
      · exact Nat.le_trans (h ks report hr) (by simp only [List.length_cons]; omega)
      · have := moreOperands h (r.run ks).rest report hr
        simp only [List.length_cons]
        omega
    · cases hr
termination_by ks => ks.length
decreasing_by exact shorter

theorem chain (h : r.LooksBack n) : (Rule.chain p r).LooksBack n := by
  intro ks report hr
  rcases Outcome.mem_reports_andThen hr with hr | ⟨_, hr⟩
  · exact h ks report hr
  · have := moreOperands h _ report hr
    have := (r.fits ks).1
    omega

theorem items (h : r.LooksBack n) (hc : c.blamesPrevious = false) :
    (Rule.items p c r).LooksBack n
  | [], report, hr => by
    rw [items_run, itemsUntil_nil] at hr
    obtain rfl := List.mem_singleton.mp hr
    rw [Report.reach_eq hc]
    exact Nat.le_add_right _ _
  | k :: ks, report, hr => by
    rw [items_run, itemsUntil_cons] at hr
    split at hr
    · cases hr
    · rcases Outcome.mem_reports_andThen hr with hr | ⟨passed, hr⟩
      · exact h _ report hr
      · have shorter := (r.fits (k :: ks)).2 passed
        have := items h hc (r.run (k :: ks)).rest report hr
        omega
termination_by ks => ks.length
decreasing_by exact shorter

end Rule.LooksBack

/-! ## The rules of the grammar -/

open Rule (LooksBack)

theorem equality_looksBack {inner : Option Rule}
    (hi : ∀ r, inner = some r → r.LooksBack 0) : (equality inner).LooksBack 0 := by
  have parenthesized : ∀ r, inner.map parenthesisTail = some r → r.LooksBack 1 := by
    intro r hr
    obtain ⟨e, he, rfl⟩ := Option.map_eq_some_iff.mp hr
    exact .seq (hi e he).mono (.exactly nofun)
  have operand : (operand inner).LooksBack 0 := .opening rfl parenthesized (.one nofun)
  exact .chain (.chain (.chain (.chain (.skipping operand))))

theorem expression_looksBack (room : Nat) : (expression room).LooksBack 0 := by
  have step {inner : Option Rule} (hi : ∀ r, inner = some r → r.LooksBack 0) :
      (assignment inner).LooksBack 0 :=
    .ifNextTwo (.echo (.nested rfl hi) rfl) (equality_looksBack hi)
  induction room with
  | zero => exact step nofun
  | succ room ih =>
    refine step fun r hr => ?_
    cases hr
    exact ih

theorem declarationOf_looksBack {e s : Rule} (he : e.LooksBack 0) (hs : s.LooksBack 0) :
    (declarationOf e s).LooksBack 0 := by
  have ended (c : Complaint) : (ended c).LooksBack 1 := .exactly fun _ => Nat.one_pos
  have ofFunction : (functionTail s).LooksBack 1 :=
    .seq (.exactly nofun) (.echo hs.mono.mono rfl)
  have ofVariable : (variableTail e).LooksBack 1 :=
    .ifNext (.seq (.echo he.mono.mono rfl) (ended _).mono.mono) (ended _)
  exact .ifNext
    (.seq (.exactly fun _ => Nat.one_pos) (.ifNext ofFunction.mono.mono ofVariable.mono)) hs

theorem statementOf_looksBack {e : Rule} {inBlock inConditional : Option Rule}
    (he : e.LooksBack 0) (hb : ∀ r, inBlock = some r → r.LooksBack 1)
    (hc : ∀ r, inConditional = some r → r.LooksBack 1) :
    (statementOf e inBlock inConditional).LooksBack 0 := by
  have ended (c : Complaint) : (ended c).LooksBack 1 := .exactly fun _ => Nat.one_pos
  have ofReturn : (returnTail e).LooksBack 1 := .ifAhead (ended _) (.seq he.mono (ended _).mono)
  exact .opening rfl hb (.opening rfl hc (.ifNext ofReturn (.seq he (ended _))))

theorem statement_looksBack (room : Nat) : (statement room).LooksBack 0 := by
  induction room with
  | zero => exact statementOf_looksBack (expression_looksBack 0) nofun nofun
  | succ room ih =>
    have inner := expression_looksBack room
    refine statementOf_looksBack (expression_looksBack _) (fun r hr => ?_) (fun r hr => ?_)
    · cases hr
      exact .items (declarationOf_looksBack inner ih).mono rfl
    · cases hr
      exact .seq (.seq (.exactly nofun) (.seq inner.mono.mono (.exactly nofun)))
        (.andIfNext ih.mono.mono ih.mono.mono)

/-- A declaration blames nothing before its start. -/
theorem declaration_looksBack (room : Nat) : (declaration room).LooksBack 0 :=
  declarationOf_looksBack (expression_looksBack room) (statement_looksBack room)

end MiniC.Grammar
