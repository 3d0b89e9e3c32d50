import MiniC.Proofs.Grammar.Rounds

/-!
# Segments

A *segment* is a row of kinds that ends with a semicolon and has no other one.  If no brace
is opened in it and no `else` follows, the rounds that begin in a segment end with it.  A
rule either stops within the segment or has read exactly up to its end, and what it does
depends on the segment alone.

`Rule.Stops ends r` says this of a rule.  If `ends` holds, then the rule passes only at the
end of the segment, as the rules for statements do.  Otherwise it passes only before the
semicolon, as those for expressions do.  There is one lemma for each combination of rules.

The reader that drops kinds behind a failure stops at the end of the segment too, if it
does not stop before.  So the reports of the rounds over a segment and what follows are
those over the segment and those over what follows.  This is `roundReports_segment`.
-/

namespace MiniC.Grammar

/-! ## The kinds of a segment -/

/-- The kinds before the semicolon of a segment. -/
def Inside (left : List Kind) : Prop := ∀ k ∈ left, k ≠ .sign .semicolon ∧ k ≠ .sign .leftBrace

theorem Inside.suffix {left left' : List Kind} (h : Inside left) (hl : left' <:+ left) :
    Inside left' :=
  fun k hk => h k (hl.subset hk)

/-- No `else` comes first. -/
def NoElse (rest : List Kind) : Prop := rest.head? ≠ some (.keyword .kwElse)

/-! ## The judgment -/

/-- How the kinds `left` and a semicolon are read, whatever follows them but an `else`. -/
inductive Stops (left : List Kind) (read : List Kind → Outcome) : Bool → Prop where
  /-- It is a match that ends before the semicolon. -/
  | before {left' : List Kind} (hl : left' <:+ left) (h : ∀ rest, NoElse rest →
      read (left ++ .sign .semicolon :: rest) = .pass (left' ++ .sign .semicolon :: rest)) :
    Stops left read false
  /-- It is a match that ends behind the semicolon. -/
  | behind (h : ∀ rest, NoElse rest → read (left ++ .sign .semicolon :: rest) = .pass rest) :
    Stops left read true
  /-- It fails before the semicolon. -/
  | failure {ends : Bool} {left' : List Kind} (hl : left' <:+ left) (c : Complaint)
      (cs : List Complaint) (h : ∀ rest, NoElse rest →
        read (left ++ .sign .semicolon :: rest) =
          .failure c cs (left' ++ .sign .semicolon :: rest)) :
    Stops left read ends

/-- The rule stops within a segment or at its end. -/
def Rule.Stops (ends : Bool) (r : Rule) : Prop :=
  ∀ left, Inside left → Grammar.Stops left r.run ends

namespace Stops

variable {ends : Bool} {left left₀ : List Kind} {read read₀ next : List Kind → Outcome}

/-- Reading stops as it does on an end of the segment if it does the same there. -/
theorem of_eq (h : Stops left read ends) (hl : left <:+ left₀) (he : ∀ rest,
      read₀ (left₀ ++ .sign .semicolon :: rest) = read (left ++ .sign .semicolon :: rest)) :
    Stops left₀ read₀ ends := by
  cases h with
  | before hl' h => exact .before (hl'.trans hl) fun rest hr => (he rest).trans (h rest hr)
  | behind h => exact .behind fun rest hr => (he rest).trans (h rest hr)
  | failure hl' c cs h =>
    exact .failure (hl'.trans hl) c cs fun rest hr => (he rest).trans (h rest hr)

theorem andThen (h : Stops left read false)
    (hn : ∀ left', left' <:+ left → Stops left' next ends) :
    Stops left (fun ks => (read ks).andThen next) ends := by
  cases h with
  | @before left' hl h =>
    have go (rest : List Kind) (hr : NoElse rest) :
        (read (left ++ .sign .semicolon :: rest)).andThen next =
          next (left' ++ .sign .semicolon :: rest) := by
      rw [h rest hr, Outcome.pass_andThen]
    cases hn left' hl with
    | before hl' h' => exact .before (hl'.trans hl) fun rest hr => (go rest hr).trans (h' rest hr)
    | behind h' => exact .behind fun rest hr => (go rest hr).trans (h' rest hr)
    | failure hl' c cs h' =>
      exact .failure (hl'.trans hl) c cs fun rest hr => (go rest hr).trans (h' rest hr)
  | failure hl c cs h =>
    exact .failure hl c cs fun rest hr => by rw [h rest hr, Outcome.failure_andThen]

end Stops

namespace Rule.Stops

open Rule (moreOperands_cons one_run_cons ifAhead_run_cons ifNext_run_cons ifNextTwo_run_cons
  ifNextTwo_run_of_ne opening_run_of_ne skipping_run andIfNext_run orNothing)

variable {ends : Bool} {p : Kind → Bool} {k l : Kind} {c : Complaint}
variable {a b r yes no : Rule} {inner : Option Rule}

/-! ### Reading single kinds -/

theorem refuse : (Rule.refuse c).Stops ends :=
  fun _ _ => .failure List.suffix_rfl c [] fun _ _ => rfl

theorem one (hp : p (.sign .semicolon) = false) : (Rule.one p c).Stops false := by
  intro left _
  cases left with
  | nil =>
    refine .failure List.suffix_rfl c [] fun rest _ => ?_
    rw [List.nil_append, one_run_cons, hp]
    rfl
  | cons k left =>
    cases hk : p k with
    | true =>
      refine .before (List.suffix_cons k left) fun rest _ => ?_
      rw [List.cons_append, one_run_cons, hk]
      rfl
    | false =>
      refine .failure List.suffix_rfl c [] fun rest _ => ?_
      rw [List.cons_append, one_run_cons, hk]
      rfl

/-- The semicolon ends the segment. -/
theorem semicolon : (Rule.exactly (.sign .semicolon) c).Stops true := by
  intro left hl
  cases left with
  | nil => exact .behind fun rest _ => exactly_run_cons rest
  | cons k left =>
    have other : (k == .sign .semicolon) = false := beq_false_of_ne (hl k List.mem_cons_self).1
    refine .failure List.suffix_rfl c [] fun rest _ => ?_
    rw [List.cons_append, Rule.exactly, one_run_cons, other]
    rfl

/-! ### Looking ahead -/

theorem ifAhead (hy : yes.Stops ends) (hn : no.Stops ends) :
    (Rule.ifAhead p yes no).Stops ends := by
  intro left hl
  have choose (rest : List Kind) : (Rule.ifAhead p yes no).run (left ++ .sign .semicolon :: rest) =
      if p (left.headD (.sign .semicolon)) then yes.run (left ++ .sign .semicolon :: rest)
      else no.run (left ++ .sign .semicolon :: rest) := by
    cases left with
    | nil => rfl
    | cons k left => rfl
  cases hk : p (left.headD (.sign .semicolon)) with
  | true => exact (hy left hl).of_eq List.suffix_rfl fun rest => by rw [choose, if_pos hk]
  | false =>
    exact (hn left hl).of_eq List.suffix_rfl fun rest => by rw [choose, hk, if_neg Bool.false_ne_true]

theorem ifNext (hp : p (.sign .semicolon) = false) (hy : yes.Stops ends) (hn : no.Stops ends) :
    (Rule.ifNext p yes no).Stops ends := by
  intro left hl
  have other (h : p (left.headD (.sign .semicolon)) = false) :
      Grammar.Stops left (Rule.ifNext p yes no).run ends := by
    refine (hn left hl).of_eq List.suffix_rfl fun rest => ?_
    cases left with
    | nil => exact if_neg (Bool.eq_false_iff.mp h)
    | cons k left => exact if_neg (Bool.eq_false_iff.mp h)
  cases left with
  | nil => exact other hp
  | cons k left =>
    cases hk : p k with
    | true =>
      exact (hy left (hl.suffix (List.suffix_cons k left))).of_eq (List.suffix_cons k left)
        fun rest => if_pos hk
    | false => exact other hk

/-- Neither of two kinds may be a semicolon. -/
theorem ifNextTwo (hk : k ≠ .sign .semicolon) (hl : l ≠ .sign .semicolon) (hy : yes.Stops ends)
    (hn : no.Stops ends) : (Rule.ifNextTwo k l yes no).Stops ends := by
  intro left inside
  have other (h : ∀ rest tail, left ++ .sign .semicolon :: rest ≠ k :: l :: tail) :
      Grammar.Stops left (Rule.ifNextTwo k l yes no).run ends :=
    (hn left inside).of_eq List.suffix_rfl fun rest => ifNextTwo_run_of_ne (h rest)
  cases left with
  | nil => exact other fun rest tail h => hk (List.cons.inj h).1.symm
  | cons i left =>
    cases left with
    | nil => exact other fun rest tail h => hl (List.cons.inj (List.cons.inj h).2).1.symm
    | cons j left =>
      by_cases h : i = k ∧ j = l
      · have suffix : left <:+ i :: j :: left := List.suffix_append [i, j] left
        exact (hy left (inside.suffix suffix)).of_eq suffix fun rest => if_pos h
      · refine other fun rest tail he => h ?_
        exact ⟨(List.cons.inj he).1, (List.cons.inj (List.cons.inj he).2).1⟩

theorem nested (hi : ∀ r, inner = some r → r.Stops ends) : (Rule.nested c inner).Stops ends := by
  cases inner with
  | none => exact refuse
  | some r => exact hi r rfl

theorem opening (hk : (Kind.sign .semicolon == k) = false)
    (hi : ∀ r, inner = some r → r.Stops ends) (ho : no.Stops ends) :
    (Rule.opening k c inner no).Stops ends := by
  cases inner with
  | none => exact ifAhead refuse ho
  | some r => exact ifNext hk (hi r rfl) ho

/-- No brace is opened in a segment. -/
theorem openingBrace (ho : no.Stops ends) :
    (Rule.opening (.sign .leftBrace) c inner no).Stops ends := by
  intro left hl
  refine (ho left hl).of_eq List.suffix_rfl fun rest => ?_
  cases left with
  | nil =>
    have other : Kind.sign .semicolon ≠ .sign .leftBrace := nofun
    exact opening_run_of_ne other rest
  | cons k left => exact opening_run_of_ne (hl k List.mem_cons_self).2 _

theorem skipping (hp : p (.sign .semicolon) = false) (h : r.Stops ends) :
    (Rule.skipping p r).Stops ends := by
  intro left hl
  have suffix := List.dropWhile_suffix p (l := left)
  refine (h _ (hl.suffix suffix)).of_eq suffix fun rest => ?_
  have skipped : (left ++ .sign .semicolon :: rest).dropWhile p =
      left.dropWhile p ++ .sign .semicolon :: rest := by
    rw [List.dropWhile_append]
    split
    · next he =>
      rw [List.isEmpty_iff.mp he, List.dropWhile_cons_of_neg (Bool.eq_false_iff.mp hp),
        List.nil_append]
    · rfl
  rw [skipping_run, skipped]

/-! ### One part behind another -/

theorem echo (h : r.Stops ends) : (r.echo c).Stops ends := by
  intro left hl
  cases h left hl with
  | before hl' ho =>
    exact .before hl' fun rest hr => by rw [echo_run, ho rest hr, Outcome.echo_pass]
  | behind ho => exact .behind fun rest hr => by rw [echo_run, ho rest hr, Outcome.echo_pass]
  | failure hl' d cs ho =>
    exact .failure hl' d _ fun rest hr => by rw [echo_run, ho rest hr, Outcome.echo_failure]

theorem seq (ha : a.Stops false) (hb : b.Stops ends) : (a.seq b).Stops ends :=
  fun left hl => (ha left hl).andThen fun left' hl' => hb left' (hl.suffix hl')

/-- Behind a segment comes no `else`. -/
theorem andIfNext (ha : a.Stops true) : (a.andIfNext (· == .keyword .kwElse) b).Stops true := by
  intro left hl
  cases ha left hl with
  | behind h =>
    refine .behind fun rest hr => ?_
    rw [andIfNext_run, h rest hr, Outcome.pass_andThen]
    cases rest with
    | nil => rfl
    | cons k rest => exact if_neg fun hk => hr (by rw [eq_of_beq hk, List.head?_cons])
  | failure hl' d cs h =>
    refine .failure hl' d cs fun rest hr => ?_
    rw [andIfNext_run, h rest hr, Outcome.failure_andThen]

/-! ### Loops -/

theorem moreOperands (hp : p (.sign .semicolon) = false) (h : r.Stops false) : ∀ left, Inside left →
    Grammar.Stops left (Rule.moreOperands p r []) false
  | [], _ => by
    refine .before List.suffix_rfl fun rest _ => ?_
    rw [List.nil_append, moreOperands_cons, if_neg (Bool.eq_false_iff.mp hp)]
  | k :: left, hl => by
    have inside := hl.suffix (List.suffix_cons k left)
    cases hk : p k with
    | true =>
      have more : Grammar.Stops left (fun ks => (r.run ks).andThen (Rule.moreOperands p r []))
          false := by
        refine (h left inside).andThen fun left' hl' => ?_
        have shorter : left'.length < (k :: left).length := Nat.lt_succ_of_le hl'.length_le
        exact moreOperands hp h left' (inside.suffix hl')
      refine more.of_eq (List.suffix_cons k left) fun rest => ?_
      rw [List.cons_append, moreOperands_cons, if_pos hk]
    | false =>
      refine .before List.suffix_rfl fun rest _ => ?_
      rw [List.cons_append, moreOperands_cons, if_neg (Bool.eq_false_iff.mp hk)]
termination_by left => left.length
decreasing_by exact shorter

theorem chain (hp : p (.sign .semicolon) = false) (h : r.Stops false) :
    (Rule.chain p r).Stops false :=
  fun left hl => (h left hl).andThen fun left' hl' => moreOperands hp h left' (hl.suffix hl')

end Rule.Stops

/-! ## The rules of the grammar -/

open Rule (Stops)

theorem equality_stops {inner : Option Rule} (hi : ∀ r, inner = some r → r.Stops false) :
    (equality inner).Stops false := by
  have parenthesized : ∀ r, inner.map parenthesisTail = some r → r.Stops false := by
    intro r hr
    obtain ⟨e, he, rfl⟩ := Option.map_eq_some_iff.mp hr
    exact .seq (hi e he) (.one rfl)
  have operand : (operand inner).Stops false := .opening rfl parenthesized (.one rfl)
  exact .chain rfl (.chain rfl (.chain rfl (.chain rfl (.skipping rfl operand))))

/-- An expression holds no semicolon. -/
theorem expression_stops (room : Nat) : (expression room).Stops false := by
  have step {inner : Option Rule} (hi : ∀ r, inner = some r → r.Stops false) :
      (assignment inner).Stops false :=
    .ifNextTwo nofun nofun (.echo (.nested hi)) (equality_stops hi)
  induction room with
  | zero => exact step nofun
  | succ room ih =>
    refine step fun r hr => ?_
    cases hr
    exact ih

theorem declarationOf_stops {e s : Rule} (he : e.Stops false) (hs : s.Stops true) :
    (declarationOf e s).Stops true := by
  have ofFunction : (functionTail s).Stops true := .seq (.one rfl) (.echo hs)
  have ofVariable : (variableTail e).Stops true :=
    .ifNext rfl (.seq (.echo he) .semicolon) .semicolon
  exact .ifNext rfl (.seq (.one rfl) (.ifNext rfl ofFunction ofVariable)) hs

theorem statementOf_stops {e : Rule} {inBlock inConditional : Option Rule} (he : e.Stops false)
    (hc : ∀ r, inConditional = some r → r.Stops true) :
    (statementOf e inBlock inConditional).Stops true := by
  have ofReturn : (returnTail e).Stops true := .ifAhead .semicolon (.seq he .semicolon)
  exact .openingBrace (.opening rfl hc (.ifNext rfl ofReturn (.seq he .semicolon)))

theorem statement_stops (room : Nat) : (statement room).Stops true := by
  induction room with
  | zero => exact statementOf_stops (expression_stops 0) nofun
  | succ room ih =>
    refine statementOf_stops (expression_stops _) fun r hr => ?_
    cases hr
    exact .seq (.seq (.one rfl) (.seq (expression_stops room) (.one rfl))) (.andIfNext ih)

/-- A declaration ends with the segment or fails within. -/
theorem declaration_stops (room : Nat) : (declaration room).Stops true :=
  declarationOf_stops (expression_stops room) (statement_stops room)

/-! ## Dropping kinds -/

theorem seekAnchor_semicolon (rest : List Kind) : seekAnchor (.sign .semicolon) rest = rest := by
  cases rest with
  | nil => rfl
  | cons k ks => rw [seekAnchor, if_pos (.inl rfl)]

/-- The reader that drops kinds stops at the end of a segment or before. -/
theorem seekAnchor_segment (dropped : Kind) (left : List Kind) :
    (∀ rest, seekAnchor dropped (left ++ .sign .semicolon :: rest) = rest) ∨
      ∃ left', left' <:+ left ∧ ∀ rest, seekAnchor dropped (left ++ .sign .semicolon :: rest) =
        left' ++ .sign .semicolon :: rest := by
  induction left generalizing dropped with
  | nil =>
    by_cases h : dropped = .sign .semicolon ∨ isAnchor (.sign .semicolon) = true
    · exact .inr ⟨[], List.suffix_rfl, fun rest => if_pos h⟩
    · refine .inl fun rest => ?_
      rw [List.nil_append, seekAnchor, if_neg h, seekAnchor_semicolon]
  | cons k left ih =>
    by_cases h : dropped = .sign .semicolon ∨ isAnchor k = true
    · exact .inr ⟨k :: left, List.suffix_rfl, fun rest => if_pos h⟩
    · have goesOn (rest : List Kind) :
          seekAnchor dropped (k :: left ++ .sign .semicolon :: rest) =
            seekAnchor k (left ++ .sign .semicolon :: rest) := if_neg h
      rcases ih k with atEnd | ⟨left', hl, within⟩
      · exact .inl fun rest => (goesOn rest).trans (atEnd rest)
      · refine .inr ⟨left', hl.trans (List.suffix_cons k left), fun rest => ?_⟩
        exact (goesOn rest).trans (within rest)

theorem resync_segment (left : List Kind) :
    (∀ rest, resync (left ++ .sign .semicolon :: rest) = rest) ∨
      ∃ left', left' <:+ left ∧ left'.length < left.length ∧
        ∀ rest, resync (left ++ .sign .semicolon :: rest) = left' ++ .sign .semicolon :: rest := by
  cases left with
  | nil => exact .inl seekAnchor_semicolon
  | cons k left =>
    rcases seekAnchor_segment k left with atEnd | ⟨left', hl, within⟩
    · exact .inl atEnd
    · exact .inr ⟨left', hl.trans (List.suffix_cons k left), Nat.lt_succ_of_le hl.length_le, within⟩

/-! ## The rounds over a segment -/

/-- A report that is made with the kinds `rest` further ahead. -/
def Report.before (rest : List Kind) (r : Report) : Report := ⟨r.complaint, r.ahead ++ rest⟩

/-- The rounds over a segment report the same whatever follows, and behind it they are
those over what follows. -/
theorem exists_roundReports_segment (room : Nat) : ∀ left, Inside left →
    ∃ made : List Report, (∀ r ∈ made, r.ahead ≠ []) ∧ ∀ rest, NoElse rest →
      roundReports room (left ++ .sign .semicolon :: rest) =
        made.map (Report.before rest) ++ roundReports room rest
  | left, inside => by
    have nonempty (rest : List Kind) : left ++ .sign .semicolon :: rest ≠ [] :=
      List.append_ne_nil_of_right_ne_nil left (List.cons_ne_nil _ rest)
    cases declaration_stops room left inside with
    | behind h =>
      refine ⟨[], nofun, fun rest hr => ?_⟩
      rw [roundReports_eq (nonempty rest), Round.resume, Round.of, h rest hr]
      rfl
    | @failure _ left' hl c cs h =>
      let made : List Report := (c :: cs).map fun d => ⟨d, left' ++ [.sign .semicolon]⟩
      have ahead : ∀ r ∈ made, r.ahead ≠ [] := by
        intro r hr
        obtain ⟨d, _, rfl⟩ := List.mem_map.mp hr
        exact List.append_ne_nil_of_right_ne_nil left' (List.cons_ne_nil _ [])
      have reported (rest : List Kind) (hr : NoElse rest) :
          roundReports room (left ++ .sign .semicolon :: rest) =
            made.map (Report.before rest) ++
              roundReports room (resync (left' ++ .sign .semicolon :: rest)) := by
        rw [roundReports_eq (nonempty rest), Round.resume, Round.of, h rest hr]
        simp [Outcome.failure, made, Report.before]
      rcases resync_segment left' with atEnd | ⟨left'', hl', shorter, within⟩
      · exact ⟨made, ahead, fun rest hr => by rw [reported rest hr, atEnd]⟩
      · have fewer : left''.length < left.length := Nat.lt_of_lt_of_le shorter hl.length_le
        obtain ⟨more, hm, later⟩ :=
          exists_roundReports_segment room left'' (inside.suffix (hl'.trans hl))
        refine ⟨made ++ more, List.forall_mem_append.mpr ⟨ahead, hm⟩, fun rest hr => ?_⟩
        rw [reported rest hr, within, later rest hr, List.map_append, List.append_assoc]
termination_by left => left.length
decreasing_by exact fewer

/-- Behind a segment the reports are those of what follows, and those of the segment are
made as at its end. -/
theorem roundReports_segment (room : Nat) {left rest : List Kind} (hl : Inside left)
    (hr : NoElse rest) :
    roundReports room (left ++ .sign .semicolon :: rest) =
        (roundReports room (left ++ [.sign .semicolon])).map (Report.before rest) ++
          roundReports room rest ∧
      ∀ r ∈ roundReports room (left ++ [.sign .semicolon]), r.ahead ≠ [] := by
  obtain ⟨made, ahead, reported⟩ := exists_roundReports_segment room left hl
  have noElse : NoElse [] := fun h => by cases h
  have alone : roundReports room (left ++ [.sign .semicolon]) = made := by
    have nothing : roundReports room [] = [] := by simp [roundReports]
    have same : made.map (Report.before []) = made :=
      List.map_id'' (fun r => by simp [Report.before]) made
    rw [reported [] noElse, nothing, same, List.append_nil]
  rw [alone]
  exact ⟨reported rest hr, ahead⟩

end MiniC.Grammar
