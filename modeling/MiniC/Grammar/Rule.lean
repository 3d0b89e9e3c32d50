import MiniC.Grammar.Complaint
import MiniC.Kind

/-!
# Rules

A grammar rule is tried on the kinds of the tokens that lie ahead.  It passes or
it fails, leaves the kinds it has not read, and reports what it has to complain
of.  Each report keeps the kinds that lay ahead when it was made.  They place it:
the fewer lie ahead, the further on it is.

A rule never leaves more than it was given, and a rule that passes leaves less.
This is `Outcome.Fits`, and it is part of the type of rules, since the loops over
rules end because of it.

The rules of the grammar are built from the few combinations below.  A rule that
fails inside a combination ends it on the spot, and what it has left stays left.
-/

namespace MiniC.Grammar

/-- A complaint and the place where it was made. -/
structure Report where
  /-- The complaint. -/
  complaint : Complaint
  /-- The kinds that lay ahead. -/
  ahead : List Kind
deriving DecidableEq, Repr

/-! ## Outcomes -/

/-- What trying a rule comes to. -/
structure Outcome where
  /-- The rule has matched. -/
  passed : Bool
  /-- The kinds that are left. -/
  rest : List Kind
  /-- What was reported, in order. -/
  reports : List Report
deriving DecidableEq, Repr

namespace Outcome

/-- A match that leaves `rest` and reports nothing. -/
def pass (rest : List Kind) : Outcome := ⟨true, rest, []⟩

/-- A failure with one complaint, made where the rule was tried. -/
def refusal (c : Complaint) (ahead : List Kind) : Outcome := ⟨false, ahead, [⟨c, ahead⟩]⟩

/-- The outcome of a later part, with the reports of the earlier parts before its
own. -/
def after (made : List Report) (o : Outcome) : Outcome := { o with reports := made ++ o.reports }

/-- Go on with what is left, unless the first part has failed. -/
def andThen (o : Outcome) (next : List Kind → Outcome) : Outcome :=
  if o.passed then (next o.rest).after o.reports else o

/-- Add a complaint to a failure, made where the failure stopped. -/
def echo (c : Complaint) (o : Outcome) : Outcome :=
  if o.passed then o else { o with reports := o.reports ++ [⟨c, o.rest⟩] }

/-- The outcome leaves at most `n` kinds, and fewer if it is a match. -/
def Fits (n : Nat) (o : Outcome) : Prop :=
  o.rest.length ≤ n ∧ (o.passed = true → o.rest.length < n)

theorem Fits.mono {m n : Nat} {o : Outcome} (h : o.Fits m) (hmn : m ≤ n) : o.Fits n :=
  ⟨Nat.le_trans h.1 hmn, fun hp => Nat.lt_of_lt_of_le (h.2 hp) hmn⟩

theorem fits_pass {n : Nat} {rest : List Kind} (h : rest.length < n) : (pass rest).Fits n :=
  ⟨Nat.le_of_lt h, fun _ => h⟩

theorem fits_refusal (c : Complaint) (ahead : List Kind) :
    (refusal c ahead).Fits ahead.length :=
  ⟨Nat.le_refl _, fun h => by cases h⟩

theorem Fits.after {n : Nat} {o : Outcome} (h : o.Fits n) (made : List Report) :
    (o.after made).Fits n := h

theorem Fits.andThen {n : Nat} {o : Outcome} {next : List Kind → Outcome} (h : o.Fits n)
    (hnext : o.passed = true → (next o.rest).Fits n) : (o.andThen next).Fits n := by
  unfold Outcome.andThen
  split
  · next hp => exact (hnext hp).after _
  · exact h

theorem Fits.echo {n : Nat} {o : Outcome} (h : o.Fits n) (c : Complaint) : (o.echo c).Fits n := by
  unfold Outcome.echo
  split
  · exact h
  · exact h

end Outcome

/-! ## Rules and their combinations -/

/-- A way to read the kinds ahead. -/
structure Rule where
  /-- Try the rule on the kinds ahead. -/
  run : List Kind → Outcome
  /-- No more is left than was given, and less after a match. -/
  fits : ∀ ks, (run ks).Fits ks.length

namespace Rule

/-- The rule that always fails, with the complaint `c`. -/
def refuse (c : Complaint) : Rule where
  run := .refusal c
  fits := Outcome.fits_refusal c

/-- One kind with the property `p`, or else the complaint `c`. -/
def one (p : Kind → Bool) (c : Complaint) : Rule where
  run
    | [] => .refusal c []
    | k :: ks => if p k then .pass ks else .refusal c (k :: ks)
  fits
    | [] => Outcome.fits_refusal c []
    | k :: ks => by
      dsimp only
      split
      · exact Outcome.fits_pass (Nat.lt_succ_self _)
      · exact Outcome.fits_refusal c _

/-- The kind `k`, or else the complaint `c`. -/
def exactly (k : Kind) (c : Complaint) : Rule := one (· == k) c

/-- The rule `yes` if the next kind has the property `p`, and else `no`.  The next
kind is only looked at. -/
def ifAhead (p : Kind → Bool) (yes no : Rule) : Rule where
  run
    | [] => no.run []
    | k :: ks => if p k then yes.run (k :: ks) else no.run (k :: ks)
  fits
    | [] => no.fits []
    | k :: ks => by
      dsimp only
      split
      · exact yes.fits _
      · exact no.fits _

/-- The rule `yes` behind the next kind if that has the property `p`, and else the
rule `no`. -/
def ifNext (p : Kind → Bool) (yes no : Rule) : Rule where
  run
    | [] => no.run []
    | k :: ks => if p k then yes.run ks else no.run (k :: ks)
  fits
    | [] => no.fits []
    | k :: ks => by
      dsimp only
      split
      · exact (yes.fits ks).mono (Nat.le_succ _)
      · exact no.fits _

/-- The rule `yes` behind the next two kinds if those are `k` and `l`, and else the
rule `no`. -/
def ifNextTwo (k l : Kind) (yes no : Rule) : Rule where
  run
    | a :: b :: ks => if a = k ∧ b = l then yes.run ks else no.run (a :: b :: ks)
    | ks => no.run ks
  fits ks := by
    split
    · split
      · exact (yes.fits _).mono (Nat.le_succ_of_le (Nat.le_succ _))
      · exact no.fits _
    · exact no.fits _

/-- The rule `r` behind all the kinds at the front that have the property `p`. -/
def skipping (p : Kind → Bool) (r : Rule) : Rule where
  run ks := r.run (ks.dropWhile p)
  fits _ := (r.fits _).mono (List.dropWhile_suffix p).length_le

/-- The rule `a` and behind it the rule `b`. -/
def seq (a b : Rule) : Rule where
  run ks := (a.run ks).andThen b.run
  fits ks := (a.fits ks).andThen fun _ => (b.fits _).mono (a.fits ks).1

/-- The rule `r`, with the complaint `c` added when it fails. -/
def echo (r : Rule) (c : Complaint) : Rule where
  run ks := (r.run ks).echo c
  fits ks := (r.fits ks).echo c

/-- The rule `a`, and behind it a kind with the property `p` and the rule `b` if
such a kind comes next. -/
def andIfNext (a : Rule) (p : Kind → Bool) (b : Rule) : Rule where
  run ks := (a.run ks).andThen fun
    | [] => .pass []
    | k :: ks => if p k then b.run ks else .pass (k :: ks)
  fits ks := (a.fits ks).andThen fun hp => by
    have less := (a.fits ks).2 hp
    split
    · next h => exact Outcome.fits_pass (h ▸ less)
    · next k rest h =>
      rw [h] at less
      split
      · exact (b.fits rest).mono (Nat.le_of_lt (Nat.lt_of_succ_lt less))
      · exact Outcome.fits_pass less

/-! ## Loops -/

/-- Read on behind an operand: as long as a kind with the property `p` comes next,
read it and one more operand.  `made` is what has been reported so far. -/
def moreOperands (p : Kind → Bool) (operand : Rule) (made : List Report) :
    List Kind → Outcome
  | [] => ⟨true, [], made⟩
  | k :: ks =>
    if p k then
      match _h : operand.run ks with
      | ⟨true, rest, reports⟩ => moreOperands p operand (made ++ reports) rest
      | ⟨false, rest, reports⟩ => ⟨false, rest, made ++ reports⟩
    else ⟨true, k :: ks, made⟩
termination_by ks => ks.length
decreasing_by
  have least := (operand.fits ks).1
  rw [_h] at least
  exact Nat.lt_succ_of_le least

theorem moreOperands_le (p : Kind → Bool) (operand : Rule) (made : List Report)
    (ks : List Kind) : (moreOperands p operand made ks).rest.length ≤ ks.length := by
  fun_induction moreOperands p operand made ks with
  | case1 => exact Nat.le_refl _
  | case2 made k ks _ rest reports h ih =>
    have least := (operand.fits ks).1
    rw [h] at least
    exact Nat.le_succ_of_le (Nat.le_trans ih least)
  | case3 made k ks _ rest reports h =>
    have least := (operand.fits ks).1
    rw [h] at least
    exact Nat.le_succ_of_le least
  | case4 => exact Nat.le_refl _

/-- One operand or more, with kinds that have the property `p` between them. -/
def chain (p : Kind → Bool) (operand : Rule) : Rule where
  run ks := (operand.run ks).andThen (moreOperands p operand [])
  fits ks := (operand.fits ks).andThen fun hp => by
    have less := (operand.fits ks).2 hp
    have more := moreOperands_le p operand [] (operand.run ks).rest
    exact ⟨by omega, fun _ => by omega⟩

/-- Read items up to a kind with the property `close`, and that kind.  If the kinds
end before, the complaint is `c`.  `made` is what has been reported so far. -/
def itemsUntil (close : Kind → Bool) (c : Complaint) (item : Rule) (made : List Report) :
    List Kind → Outcome
  | [] => ⟨false, [], made ++ [⟨c, []⟩]⟩
  | k :: ks =>
    if close k then ⟨true, ks, made⟩
    else
      match _h : item.run (k :: ks) with
      | ⟨true, rest, reports⟩ => itemsUntil close c item (made ++ reports) rest
      | ⟨false, rest, reports⟩ => ⟨false, rest, made ++ reports⟩
termination_by ks => ks.length
decreasing_by
  have less := (item.fits (k :: ks)).2
  rw [_h] at less
  exact less rfl

/-- Items up to a kind with the property `close`, and that kind.  The complaint is
`c` when it never comes. -/
def items (close : Kind → Bool) (c : Complaint) (item : Rule) : Rule where
  run := itemsUntil close c item []
  fits ks := by
    fun_induction itemsUntil close c item [] ks with
    | case1 => exact ⟨Nat.le_refl _, fun h => by cases h⟩
    | case2 => exact ⟨Nat.le_succ _, fun _ => Nat.lt_succ_self _⟩
    | case3 made k ks _ rest reports h ih =>
      have least := (item.fits (k :: ks)).1
      rw [h] at least
      exact ih.mono least
    | case4 made k ks _ rest reports h =>
      have least := (item.fits (k :: ks)).1
      rw [h] at least
      exact ⟨least, fun h => by cases h⟩

end Rule

end MiniC.Grammar
