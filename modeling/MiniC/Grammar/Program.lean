import MiniC.Grammar.Statement

/-!
# Programs

A program is a row of declarations, read in *rounds*.  A round tries the rule for
one declaration.  If that passes, the next round begins where it ended.  If it
fails, the reader first drops kinds up to the next place where a declaration is
likely to begin, which `resync` finds: behind a semicolon, or before one of a few
keywords.  The keywords of loops are among them, though no rule reads a loop.  At
least one kind is dropped, so the rounds come to an end.

`rounds_cons` is the equation of the rounds.  Nothing is handed from one round to
the next but the kinds that are left.
-/

namespace MiniC.Grammar

/-! ## Finding the next declaration -/

/-- The keywords before which the reader stops dropping kinds. -/
def isAnchor : Kind → Bool
  | .keyword .kwInt | .keyword .kwFloat | .keyword .kwChar | .keyword .kwIf
  | .keyword .kwWhile | .keyword .kwFor | .keyword .kwReturn => true
  | _ => false

/-- Drop kinds up to an anchor or the kind behind a semicolon.  The kind dropped
last is `dropped`. -/
def seekAnchor (dropped : Kind) : List Kind → List Kind
  | [] => []
  | k :: ks =>
    if dropped = .sign .semicolon ∨ isAnchor k = true then k :: ks else seekAnchor k ks

/-- Where to go on after a failure that stopped here.  The next kind is dropped
whatever it is. -/
def resync : List Kind → List Kind
  | [] => []
  | k :: ks => seekAnchor k ks

theorem seekAnchor_length_le (dropped : Kind) (ks : List Kind) :
    (seekAnchor dropped ks).length ≤ ks.length := by
  induction ks generalizing dropped with
  | nil => exact Nat.le_refl _
  | cons k ks ih =>
    unfold seekAnchor
    split
    · exact Nat.le_refl _
    · exact Nat.le_succ_of_le (ih k)

/-- Something is dropped, unless there is nothing. -/
theorem resync_length_lt {n : Nat} {ks : List Kind} (h : ks.length ≤ n + 1) :
    (resync ks).length < n + 1 := by
  cases ks with
  | nil => exact Nat.succ_pos n
  | cons k ks =>
    have := seekAnchor_length_le k ks
    have : ks.length + 1 ≤ n + 1 := h
    show (seekAnchor k ks).length < n + 1
    omega

/-! ## Rounds -/

/-- One try at a declaration. -/
structure Round where
  /-- The kinds ahead when it began. -/
  start : List Kind
  /-- What it came to. -/
  outcome : Outcome
deriving DecidableEq, Repr

namespace Round

/-- The round in which `rule` is tried at `start`. -/
def of (rule : Rule) (start : List Kind) : Round := ⟨start, rule.run start⟩

/-- The kinds ahead when the next round begins. -/
def resume (r : Round) : List Kind :=
  if r.outcome.passed then r.outcome.rest else resync r.outcome.rest

/-- A round leaves less than it was given. -/
theorem resume_length_lt (rule : Rule) (k : Kind) (ks : List Kind) :
    (of rule (k :: ks)).resume.length < (k :: ks).length := by
  have fits := rule.fits (k :: ks)
  unfold resume
  split
  · next passed => exact fits.2 passed
  · exact resync_length_lt fits.1

end Round

/-- The rounds over the kinds ahead, behind those already `played`, which are kept
in reverse. -/
def roundsAfter (rule : Rule) (played : List Round) : List Kind → List Round
  | [] => played.reverse
  | k :: ks =>
    roundsAfter rule (Round.of rule (k :: ks) :: played) (Round.of rule (k :: ks)).resume
termination_by ks => ks.length
decreasing_by exact Round.resume_length_lt rule k ks

/-- The rounds over the kinds ahead, each trying `rule`. -/
def rounds (rule : Rule) (ks : List Kind) : List Round := roundsAfter rule [] ks

theorem roundsAfter_eq (rule : Rule) (played : List Round) (ks : List Kind) :
    roundsAfter rule played ks = played.reverse ++ rounds rule ks := by
  suffices h : ∀ n, ∀ ks : List Kind, ks.length ≤ n → ∀ played,
      roundsAfter rule played ks = played.reverse ++ roundsAfter rule [] ks from
    h ks.length ks (Nat.le_refl _) played
  intro n
  induction n with
  | zero =>
    intro ks hn played
    obtain rfl := List.eq_nil_of_length_eq_zero (Nat.le_zero.mp hn)
    simp [roundsAfter]
  | succ n ih =>
    intro ks hn played
    cases ks with
    | nil => simp [roundsAfter]
    | cons k ks =>
      have shorter : (Round.of rule (k :: ks)).resume.length ≤ n := by
        have := Round.resume_length_lt rule k ks
        omega
      rw [roundsAfter, roundsAfter, ih _ shorter, ih _ shorter [_]]
      simp

@[simp] theorem rounds_nil (rule : Rule) : rounds rule [] = [] := by simp [rounds, roundsAfter]

/-- The rounds are the first one and those over what it leaves. -/
theorem rounds_cons (rule : Rule) (k : Kind) (ks : List Kind) :
    rounds rule (k :: ks) =
      Round.of rule (k :: ks) :: rounds rule (Round.of rule (k :: ks)).resume := by
  rw [rounds, roundsAfter, roundsAfter_eq]
  simp

/-! ## Programs of the language -/

/-- How many levels a declaration may open. -/
def nestingLimit : Nat := 256

/-- The rule that the rounds of a program try. -/
def topDeclaration : Rule := declaration nestingLimit

/-! ## Tests -/

section Tests

/-- The complaints of a program, each with the number of kinds that lay ahead. -/
def complaintsOf (ks : List Kind) : List (Complaint × Nat) :=
  (rounds topDeclaration ks).flatMap fun r =>
    r.outcome.reports.map fun report => (report.complaint, report.ahead.length)

/-- `x = ;` fails at its semicolon, and the right-hand side is blamed there too. -/
example : complaintsOf [.identifier, .sign .assign, .sign .semicolon] =
    [(.operandExpected, 1), (.badRightHandSide, 1)] := by decide +kernel

/-- A second `else` belongs to no conditional. -/
example : complaintsOf [.keyword .kwIf, .sign .leftParen, .number, .sign .rightParen, .number,
      .sign .semicolon, .keyword .kwElse, .number, .sign .semicolon, .keyword .kwElse] =
    [(.operandExpected, 1)] := by decide +kernel

/-- As many blocks as there are levels can be open at once. -/
example : complaintsOf (List.replicate nestingLimit (.sign .leftBrace) ++
    List.replicate nestingLimit (.sign .rightBrace)) = [] := by decide +kernel

/-- One more is refused at its brace. -/
example : complaintsOf (List.replicate (nestingLimit + 1) (.sign .leftBrace)) =
    [(.statementTooDeep, 1)] := by decide +kernel

end Tests

end MiniC.Grammar
