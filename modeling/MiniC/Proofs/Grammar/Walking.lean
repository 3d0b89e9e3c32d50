import MiniC.Proofs.Grammar.FollowUps
import MiniC.Proofs.Grammar.Yields

/-!
# Where a walk leads

Each routine comes to what its rule comes to, with the levels that are left to it.  The routine
of a parenthesis, a block or a conditional takes the token with which that begins, and its rule
is tried behind it.

`Routine.walked` says so of all routines, by induction on the levels.  In it, a construct is read
one level down, or refused when no level is left, and the combinations of rules are taken one by
one.  `exists_traverses` says the same of the rounds over a sentence.
-/

namespace MiniC

namespace Grammar

open Outcome (refusal)

/-! ## The kinds that are looked for -/

theorem contains_signs (l : Level) (k : Kind) : (l.signs.map Kind.sign).contains k = l.joins k := by
  rw [Bool.eq_iff_iff, List.contains_iff_mem, List.mem_map, l.joins_iff]
  simp only [eq_comm]

theorem contains_leadingSigns (k : Kind) :
    (leadingSigns.map Kind.sign).contains k = leadsUnary k := by
  rw [Bool.eq_iff_iff, List.contains_iff_mem, List.mem_map, leadsUnary_iff]
  simp only [eq_comm]

theorem contains_typeNames (k : Kind) : (typeNames.map Kind.keyword).contains k = k.isType := by
  rw [Bool.eq_iff_iff, List.contains_iff_mem, List.mem_map, isType_iff]
  simp only [eq_comm]

theorem contains_operands (k : Kind) : [Kind.number, .identifier].contains k = isOperand k := by
  rw [Bool.eq_iff_iff, List.contains_iff_mem, isOperand_iff]
  simp

/-! ## What the routines come to -/

/-- The rule of a routine with so many levels left. -/
def Routine.rule (room : Nat) : Routine → Rule
  | rank r => r.rule room
  | parenthesized => parenthesisTail (Grammar.expression room)
  | declaration => Grammar.declaration room
  | functionDeclaration => functionTail (Grammar.statement room)
  | variableDeclaration => variableTail (Grammar.expression room)
  | statement => Grammar.statement room
  | block => blockTail (Grammar.declaration room)
  | conditional => conditionalTail (Grammar.expression room) (Grammar.statement room)
  | returned => returnTail (Grammar.expression room)
  | simple => Grammar.simple (Grammar.expression room)

/-- The kinds on which that rule is tried. -/
def Routine.behind : Routine → List Kind → List Kind
  | parenthesized | block | conditional => List.tail
  | _ => id

/-- What a routine comes to with so many levels left. -/
def Routine.comesTo (room : Nat) (q : Routine) (ks : List Kind) : Outcome :=
  (q.rule room).run (q.behind ks)

/-- What a construct comes to before this rest: what is inside of it is read one level down, or
there is no level left. -/
def Construct.below (k : Construct) : Nat → List Kind → Outcome
  | 0, rest => Outcome.refusal k.refusal (k.held ++ rest)
  | room + 1, rest => (k.body.rule room).run rest

theorem Routine.behind_suffix (q : Routine) (ks : List Kind) : q.behind ks <:+ ks := by
  cases q with
  | parenthesized | block | conditional => exact List.tail_suffix ks
  | _ => exact List.suffix_rfl

/-- The rule for what is inside of a construct is tried behind what begins it. -/
theorem Construct.behind_held (k : Construct) (rest : List Kind) :
    k.body.behind (k.held ++ rest) = rest := by
  cases k <;> rfl

/-- A routine leaves no more than it was given, and less when it passes. -/
theorem Routine.comesTo_fits (room : Nat) (q : Routine) (ks : List Kind) :
    (q.comesTo room ks).Fits ks.length :=
  ((q.rule room).fits (q.behind ks)).mono (q.behind_suffix ks).length_le

/-! ### The rules by the next kind -/

theorem operand_run (room : Nat) : (Rank.operand.rule room).run =
    onHead isOperand (fun ks => .pass ks.tail)
      (onHead (· == .sign .leftParen) (fun ks => Construct.parenthesis.below room ks.tail)
        (refusal .operandExpected)) := by
  have opening : (Rank.operand.rule room).run = onHead (· == .sign .leftParen)
      (fun ks => Construct.parenthesis.below room ks.tail)
      (Rule.one isOperand .operandExpected).run := by
    cases room <;> exact Rule.opening_run _ _ _ _
  rw [opening]
  funext ks
  cases ks with
  | nil => rfl
  | cons k ks =>
    rw [onHead, onHead, onHead, Rule.one_run_cons]
    cases hk : k == .sign .leftParen with
    | false => rfl
    | true =>
      obtain rfl := eq_of_beq hk
      rfl

theorem statement_run (room : Nat) : (statement room).run =
    onHead (· == .sign .leftBrace) (fun ks => Construct.block.below room ks.tail)
      (onHead (· == .keyword .kwIf) (fun ks => Construct.conditional.below room ks.tail)
        (onHead (· == .keyword .kwReturn) (fun ks => (returnTail (expression room)).run ks.tail)
          (simple (expression room)).run)) := by
  cases room with
  | zero =>
    rw [statement_zero, statementOf, Rule.opening_run, Rule.opening_run, Rule.ifNext_run]
    rfl
  | succ room =>
    rw [statement_succ, statementOf, Rule.opening_run, Rule.opening_run, Rule.ifNext_run]
    rfl

theorem variableTail_run (e : Rule) (ks : List Kind) : (variableTail e).run ks =
    (onHead (· == .sign .assign) (fun ks => (e.run ks.tail).echo .badInitializer) .pass ks).andThen
      (ended .variableNotEnded).run := by
  rw [onHead_andThen, variableTail, Rule.ifNext_run]
  rfl

theorem returnTail_run (e : Rule) (ks : List Kind) : (returnTail e).run ks =
    (onHead (· == .sign .semicolon) .pass e.run ks).andThen (ended .returnNotEnded).run := by
  rw [onHead_andThen, returnTail, Rule.ifAhead_run]
  rfl

theorem orNothing_eq (p : Kind → Bool) (r : Rule) :
    Rule.orNothing p r = onHead p (fun ks => r.run ks.tail) .pass := by
  funext ks
  cases ks <;> rfl

/-! ### The routines -/

namespace Routine

open Move.Does (call seq echo expect ifNext ifTake)

variable {limit : Option Nat} {s : Sentence} {depth room : Nat}

/-- The moves of the routine do what it comes to. -/
def Walked (limit : Option Nat) (s : Sentence) (depth room : Nat) (q : Routine) : Prop :=
  ∀ ks, ks <:+ s.kinds → Covers limit depth room (q.behind ks) →
    (Move.call q).Yields limit s depth ks (q.comesTo room ks)

theorem Walked.does {q : Routine} (h : q.Walked limit s depth room) :
    (Move.call q).Does limit s depth room (q.comesTo room) :=
  fun ks hk => h ks hk.suffix (hk.covers.mono (q.behind_suffix ks))

/-- The routine of a parenthesis, a block or a conditional takes a token, and then does what its
rule does. -/
theorem Walked.behindFirst {q : Routine} {a : Move} (hm : q.moves = .seq .advance a)
    (hb : q.behind = List.tail) (h : a.Does limit s depth room (q.rule room).run) :
    q.Walked limit s depth room := by
  intro ks hs hc
  rw [hb] at hc
  refine .call ?_
  rw [hm, comesTo, hb]
  exact .behindFirst hs (h ks.tail ⟨(List.tail_suffix ks).trans hs, hc⟩)

end Routine

/-- Where the construct begins, it is read one level down, or refused when no level is left. -/
def Construct.Opens (limit : Option Nat) (s : Sentence) (depth room : Nat) (k : Construct) : Prop :=
  ∀ rest, k.held ++ rest <:+ s.kinds → Covers limit depth room (k.opener ++ rest) →
    (Move.nested k).Yields limit s depth (k.held ++ rest) (k.below room rest)

theorem Construct.opens_of_walked {limit : Option Nat} {s : Sentence} {depth room : Nat}
    {k : Construct}
    (inner : ∀ room', room = room' + 1 → k.body.Walked limit s (depth + 1) room') :
    k.Opens limit s depth room := by
  intro rest hs hc
  cases room with
  | zero =>
    have blame : k.refusal.blamesPrevious = false := by cases k <;> rfl
    refine ⟨List.suffix_rfl, fun ds => ⟨_, ?_, .refusal (by cases k <;> rfl) hs⟩⟩
    have refused := Walks.refused (s := s) (k := k)
      (w := ⟨s.position (k.held ++ rest), depth, ds⟩) hc.not_below
    rwa [Walker.blameNext_eq blame] at refused
  | succ room =>
    have inside : Covers limit (depth + 1) room (k.body.behind (k.held ++ rest)) := by
      rw [k.behind_held]
      exact hc.deeper
    have yields := inner room rfl _ hs inside
    rw [Routine.comesTo, k.behind_held] at yields
    refine ⟨yields.suffix, fun ds => ?_⟩
    obtain ⟨t, walks, tells⟩ := yields.walks ds
    have left : Tells s (.opened k (depth + 1) (s.position (k.held ++ rest)) :: t ++
        [.closed (depth + 1)]) ((k.below (room + 1) rest).reports ++ []) :=
      (Tells.cons rfl rfl tells).append (.cons rfl rfl .nil)
    rw [List.append_nil] at left
    exact ⟨_, .nested (w := ⟨s.position (k.held ++ rest), depth, ds⟩) hc.below walks, left⟩

namespace Routine

open Move.Does (call seq echo expect ifNext ifTake)

variable {limit : Option Nat} {s : Sentence} {depth room : Nat}

/-- If a construct begins with one kind, it is opened where that comes next. -/
theorem opening_does {k : Construct} {first : Kind} {b : Move} {g : List Kind → Outcome}
    (hk : k.opener = [first]) (hh : k.held = [first]) (opens : k.Opens limit s depth room)
    (hb : b.Does limit s depth room g) :
    (Move.ifNext [first] (.nested k) b).Does limit s depth room
      (onHead (· == first) (fun ks => k.below room ks.tail) g)
  | [], hks => .ifNext_nil (hb [] hks)
  | k' :: ks, hks => by
    rw [onHead, ← contains_singleton]
    refine .ifNext_cons hks.suffix (fun here => ?_) (hb _ hks)
    rw [contains_singleton] at here
    obtain rfl := eq_of_beq here
    have nested := opens ks
    rw [hk, hh] at nested
    exact nested hks.suffix hks.covers

theorem level_does {l : Level}
    (h : (Move.call (rank l.inner)).Does limit s depth room (l.inner.rule room).run) :
    (Move.call (rank (.level l))).Does limit s depth room ((Rank.level l).rule room).run := by
  rw [Level.rule_eq]
  exact call (seq h (.moreOperands (contains_signs l) h))

section

variable (opens : ∀ k : Construct, k.Opens limit s depth room)

include opens

/-! ### Expressions -/

theorem operand_does : (Move.call (rank .operand)).Does limit s depth room
    (Rank.operand.rule room).run := by
  rw [operand_run]
  exact call (ifTake contains_operands .pass
    (opening_does rfl rfl (opens .parenthesis) (.fail rfl)))

theorem unary_does : (Move.call (rank .unary)).Does limit s depth room
    (Rank.unary.rule room).run :=
  call (seq (.dropWhile contains_leadingSigns) (operand_does opens))

theorem expression_does (equality : (Move.call (rank (.level .equality))).Does limit s depth room
      ((Rank.level .equality).rule room).run) :
    (Move.call (rank .expression)).Does limit s depth room (Grammar.expression room).run := by
  rw [expression_eq]
  refine call (.onTrial (fun rest hr => ?_) equality)
  have suffix : rest <:+ s.kinds := (List.suffix_append [_, _] rest).trans hr.suffix
  have echoed := (opens .rightHandSide rest suffix hr.covers).echo (c := .badRightHandSide) rfl rfl
    suffix
  cases room <;> exact echoed

theorem rank_does (r : Rank) :
    (Move.call (rank r)).Does limit s depth room (r.rule room).run := by
  have unary := unary_does opens
  have factor := level_does (l := .factor) unary
  have term := level_does (l := .term) factor
  have comparison := level_does (l := .comparison) term
  have equality := level_does (l := .equality) comparison
  cases r with
  | expression => exact expression_does opens equality
  | level l =>
    cases l with
    | equality => exact equality
    | comparison => exact comparison
    | term => exact term
    | factor => exact factor
  | unary => exact unary
  | operand => exact operand_does opens

theorem parenthesized_walked : parenthesized.Walked limit s depth room :=
  .behindFirst rfl rfl (seq (rank_does opens .expression) (expect _ rfl))

/-! ### Statements and declarations -/

theorem simple_does : (Move.call simple).Does limit s depth room
    (Grammar.simple (Grammar.expression room)).run :=
  call (seq (rank_does opens .expression) (expect _ rfl))

theorem returned_does : (Move.call returned).Does limit s depth room
    (returnTail (Grammar.expression room)).run := by
  rw [funext (returnTail_run _)]
  exact call (seq (ifNext (contains_singleton _) .pass (rank_does opens .expression))
    (expect _ rfl))

theorem statement_does : (Move.call statement).Does limit s depth room
    (Grammar.statement room).run := by
  rw [statement_run]
  exact call (opening_does rfl rfl (opens .block) (opening_does rfl rfl (opens .conditional)
    (ifTake (contains_singleton _) (returned_does opens) (simple_does opens))))

theorem variableDeclaration_does : (Move.call variableDeclaration).Does limit s depth room
    (variableTail (Grammar.expression room)).run := by
  rw [funext (variableTail_run _)]
  exact call (seq
    (ifTake (contains_singleton _) (echo rfl rfl (rank_does opens .expression)) .pass)
    (expect _ rfl))

theorem functionDeclaration_does : (Move.call functionDeclaration).Does limit s depth room
    (functionTail (Grammar.statement room)).run :=
  call (seq (expect _ rfl) (echo rfl rfl (statement_does opens)))

theorem declaration_does : (Move.call declaration).Does limit s depth room
    (Grammar.declaration room).run := by
  have name : (Move.ifTake [.sign .leftParen] (.call functionDeclaration)
      (.call variableDeclaration)).Does limit s depth room (Rule.ifNext (· == .sign .leftParen)
        (functionTail (Grammar.statement room)) (variableTail (Grammar.expression room))).run := by
    rw [Rule.ifNext_run]
    exact ifTake (contains_singleton _) (functionDeclaration_does opens)
      (variableDeclaration_does opens)
  rw [Grammar.declaration, declarationOf, Rule.ifNext_run]
  exact call (ifTake contains_typeNames (seq (expect _ rfl) name) (statement_does opens))

theorem block_walked : block.Walked limit s depth room :=
  .behindFirst rfl rfl (.itemsUntil rfl (declaration_does opens))

theorem conditional_walked : conditional.Walked limit s depth room := by
  have branches : (Move.seq (.call statement)
      (.ifTake [.keyword .kwElse] (.call statement) .pass)).Does limit s depth room
      ((Grammar.statement room).andIfNext (· == .keyword .kwElse)
        (Grammar.statement room)).run := by
    rw [funext Rule.andIfNext_run, orNothing_eq]
    exact seq (statement_does opens)
      (ifTake (contains_singleton _) (statement_does opens) .pass)
  have condition : (Move.seq (.expect (.sign .leftParen) .conditionNotOpened)
      (.seq (.call (rank .expression))
        (.expect (.sign .rightParen) .conditionNotClosed))).Does limit s depth room
      ((Rule.exactly (.sign .leftParen) .conditionNotOpened).seq ((Grammar.expression room).seq
        (.exactly (.sign .rightParen) .conditionNotClosed))).run :=
    seq (expect _ rfl) (seq (rank_does opens .expression) (expect _ rfl))
  exact .behindFirst rfl rfl (seq condition branches)

theorem each_walked : ∀ q : Routine, q.Walked limit s depth room
  | rank r => fun ks hs hc => rank_does opens r ks ⟨hs, hc⟩
  | parenthesized => parenthesized_walked opens
  | declaration => fun ks hs hc => declaration_does opens ks ⟨hs, hc⟩
  | functionDeclaration => fun ks hs hc => functionDeclaration_does opens ks ⟨hs, hc⟩
  | variableDeclaration => fun ks hs hc => variableDeclaration_does opens ks ⟨hs, hc⟩
  | statement => fun ks hs hc => statement_does opens ks ⟨hs, hc⟩
  | block => block_walked opens
  | conditional => conditional_walked opens
  | returned => fun ks hs hc => returned_does opens ks ⟨hs, hc⟩
  | simple => fun ks hs hc => simple_does opens ks ⟨hs, hc⟩

end

/-- The moves of every routine do what it comes to. -/
theorem walked (limit : Option Nat) (s : Sentence) (depth room : Nat) (q : Routine) :
    q.Walked limit s depth room := by
  induction room generalizing depth q with
  | zero =>
    exact each_walked (fun k => k.opens_of_walked fun _ he =>
      absurd he (Nat.succ_ne_zero _).symm) q
  | succ room ih =>
    refine each_walked (fun k => k.opens_of_walked fun room' he => ?_) q
    obtain rfl := Nat.succ.inj he
    exact ih (depth + 1) k.body

end Routine

/-! ## The call of a routine -/

section

variable {limit : Option Nat} {s : Sentence} {q : Routine} {w w' : Walker} {passed : Bool}
variable {t : List Mark}

/-- The walker who has come to an outcome. -/
def Walker.after (s : Sentence) (w : Walker) (o : Outcome) : Walker :=
  ⟨s.position o.rest, w.depth, w.recorded ++ o.reports.map s.diagnose⟩

/-- From within the sentence, moves that do what is done here lead there, and nowhere else. -/
theorem Move.Does.walks_iff {m : Move} {room : Nat} {f : List Kind → Outcome}
    (h : m.Does limit s w.depth room f) (hc : Covers limit w.depth room (s.kinds.drop w.place))
    (hp : w.place ≤ s.tokens.size) :
    (∃ t, Walks limit s m w passed w' t) ↔
      passed = (f (s.kinds.drop w.place)).passed ∧ w' = w.after s (f (s.kinds.drop w.place)) := by
  obtain ⟨t, walks, _⟩ := (h _ ⟨List.drop_suffix w.place s.kinds, hc⟩).walks w.recorded
  rw [Sentence.position_drop hp] at walks
  constructor
  · rintro ⟨t', walks'⟩
    obtain ⟨rfl, rfl, _⟩ := walks'.unique walks
    exact ⟨rfl, rfl⟩
  · rintro ⟨rfl, rfl⟩
    exact ⟨t, walks⟩

/-- A call goes on within the sentence, by one token at least if it passes. -/
theorem Walks.call_within (h : Walks limit s (.call q) w passed w' t)
    (hp : w.place ≤ s.tokens.size) (hd : ∀ n ∈ limit, w.depth ≤ n) :
    w.place ≤ w'.place ∧ (passed = true → w.place < w'.place) ∧ w'.place ≤ s.tokens.size := by
  obtain ⟨room, hc⟩ := Covers.exists_room hd (s.kinds.drop w.place)
  obtain ⟨rfl, rfl⟩ := ((Routine.walked limit s w.depth room q).does.walks_iff hc hp).mp ⟨t, h⟩
  have fits := Routine.comesTo_fits room q (s.kinds.drop w.place)
  rw [List.length_drop, Sentence.length_kinds] at fits
  generalize q.comesTo room (s.kinds.drop w.place) = o at fits ⊢
  obtain ⟨least, less⟩ : o.rest.length ≤ s.tokens.size - w.place ∧
    (o.passed = true → o.rest.length < s.tokens.size - w.place) := fits
  have place : (w.after s o).place = s.tokens.size - o.rest.length := rfl
  rw [place]
  refine ⟨by omega, fun passes => ?_, Nat.sub_le _ _⟩
  have := less passes
  omega

end

/-! ## The rounds over a sentence -/

section

variable {limit : Option Nat} {s : Sentence} {room : Nat}

/-- Behind a kind that was dropped, the walker skips what is dropped after it. -/
theorem exists_skips {dropped : Kind} {ks : List Kind} (hs : dropped :: ks <:+ s.kinds) :
    ∃ t, Skips s (s.position ks) (s.position (seekAnchor dropped ks)) t ∧ Tells s t [] := by
  induction ks generalizing dropped with
  | nil => exact ⟨[], .atEnd (Nat.le_refl _), .nil⟩
  | cons k ks ih =>
    have ahead := (List.suffix_cons dropped _).trans hs
    have before : s.kinds[s.position (k :: ks) - 1]? = some dropped := by
      rw [Sentence.position_cons hs, Nat.add_sub_cancel, Sentence.getElem?_position hs]
    have next : s.kinds[s.position (k :: ks)]? = some k := Sentence.getElem?_position ahead
    have inside := Sentence.position_lt ahead
    rw [seekAnchor]
    split
    · next here =>
      exact ⟨_, .stop inside (by simpa [before, next] using here), .cons rfl rfl .nil⟩
    · next elsewhere =>
      obtain ⟨t, more, tells⟩ := ih ahead
      rw [Sentence.position_cons ahead] at more
      exact ⟨_, .further inside (by simpa [before, next] using elsewhere) more,
        .cons rfl rfl (.cons rfl rfl (.cons rfl rfl tells))⟩

/-- The walker resumes where the reader goes on after a failure, and that is logged. -/
theorem exists_resumes {ks : List Kind} (hs : ks <:+ s.kinds) :
    ∃ t, Resumes s (s.position ks) (s.position (resync ks)) t ∧ reportsOf s t = [] ∧
      eventsOf t = [.resynchronized (s.position ks) (s.position (resync ks))] := by
  cases ks with
  | nil =>
    exact ⟨_, .atEnd (Nat.le_refl _) (.atEnd (Nat.le_refl _)), rfl, rfl⟩
  | cons k ks =>
    obtain ⟨t, more, tells⟩ := exists_skips hs
    have taken := Tells.cons (a := .took (s.position (k :: ks))) rfl rfl tells
    rw [Sentence.position_cons hs] at more
    refine ⟨_, .inside (Sentence.position_lt hs) more, ?_, ?_⟩
    · rw [reportsOf_append, taken.reports]
      rfl
    · rw [eventsOf_append, taken.events]
      rfl

/-- These marks are of these rounds: their reports are made, and what is logged of a round is
logged where it is played. -/
structure Recounts (s : Sentence) (t : List Mark) (rs : List Round) : Prop where
  /-- These are the reports. -/
  reports : reportsOf s t = rs.flatMap (·.outcome.reports)
  /-- This is what is logged. -/
  events : eventsOf t = rs.flatMap (Verdict.ofSentence s).roundEvents

/-- A round that passes has nothing to report and to log. -/
theorem Recounts.passed {r : Round} {rs : List Round} {t t' : List Mark} {p p' : Nat}
    (hp : r.outcome.passed = true) (silent : r.outcome.reports = [])
    (h : Tells s t r.outcome.reports) (more : Recounts s t' rs) :
    Recounts s (t ++ .resumed p p' :: t') (r :: rs) where
  reports := by
    rw [reportsOf_append, h.reports]
    exact congrArg (r.outcome.reports ++ ·) more.reports
  events := by
    rw [eventsOf_append, h.events, silent, List.flatMap_cons, Verdict.roundEvents, if_pos hp]
    exact more.events

/-- A round that fails logs its reports, and then where the next one begins. -/
theorem Recounts.failed {r : Round} {rs : List Round} {t t' t'' : List Mark} {p p' : Nat}
    (hp : r.outcome.passed = false) (h : Tells s t r.outcome.reports)
    (reports : reportsOf s t' = []) (events : eventsOf t' =
      [.resynchronized (s.position r.outcome.rest) (s.position r.resume)])
    (more : Recounts s t'' rs) : Recounts s (t ++ t' ++ .resumed p p' :: t'') (r :: rs) where
  reports := by
    rw [reportsOf_append, reportsOf_append, h.reports, reports, List.append_nil]
    exact congrArg (r.outcome.reports ++ ·) more.reports
  events := by
    rw [eventsOf_append, eventsOf_append, h.events, events, List.flatMap_cons,
      Verdict.roundEvents, if_neg (by simp [hp])]
    exact congrArg _ more.events

/-- A walker plays the rounds, records what they report and logs what they log. -/
theorem exists_traverses : ∀ {ks : List Kind}, Ahead limit s 0 room ks → ∀ ds, ∃ t,
    Traverses limit s ⟨s.position ks, 0, ds⟩
      ⟨s.tokens.size, 0, ds ++ (roundReports room ks).map s.diagnose⟩ t ∧
    Recounts s t (rounds (declaration room) ks)
  | [], _, ds => by
    have finished : Traverses limit s ⟨s.position [], 0, ds⟩ _ _ := .finished (Nat.le_refl _)
    refine ⟨[], by simpa [roundReports] using finished, ?_⟩
    rw [rounds_nil]
    exact ⟨rfl, rfl⟩
  | k :: ks, hk, ds => by
    have shorter := Round.resume_length_lt (declaration room) k ks
    have begun := Sentence.position_lt hk.suffix
    have led := declaration_led room (k :: ks)
    obtain ⟨suffix, walks⟩ := (Routine.walked limit s 0 room .declaration).does _ hk
    obtain ⟨t, walks, tells⟩ := walks ds
    obtain ⟨t', more, recounts⟩ := exists_traverses (hk.mono (resume_suffix (k :: ks)))
      (ds ++ ((declaration room).run (k :: ks)).reports.map s.diagnose)
    rw [List.append_assoc, ← List.map_append, ← roundReports_eq (List.cons_ne_nil k ks)] at more
    have suffix : ((declaration room).run (k :: ks)).rest <:+ k :: ks := suffix
    rw [rounds_cons]
    cases hp : ((declaration room).run (k :: ks)).passed with
    | true =>
      have resume : (Round.of (declaration room) (k :: ks)).resume =
          ((declaration room).run (k :: ks)).rest := if_pos hp
      rw [resume] at more
      exact ⟨_, .passed begun (hp ▸ walks) more,
        .passed hp (led.reports_eq_nil hp) tells recounts⟩
    | false =>
      have resume := Round.resume_of_failed (r := Round.of (declaration room) (k :: ks)) hp
      rw [resume] at more
      obtain ⟨t'', resumes, reports, events⟩ := exists_resumes (suffix.trans hk.suffix)
      refine ⟨_, .failed begun (hp ▸ walks) resumes more, .failed hp tells reports ?_ recounts⟩
      rw [resume]
      exact events
termination_by ks => ks.length
decreasing_by exact shorter

/-- From the front of a sentence there is a traversal, and no other one. -/
theorem exists_traverses_iff (h : Ahead limit s 0 room s.kinds) : ∃ t,
    Recounts s t (rounds (declaration room) s.kinds) ∧ ∀ w t', Traverses limit s .start w t' ↔
      w = ⟨s.tokens.size, 0, (roundReports room s.kinds).map s.diagnose⟩ ∧ t' = t := by
  obtain ⟨t, traverses, recounts⟩ := exists_traverses h []
  have front : s.position s.kinds = 0 := by
    rw [Sentence.position, Sentence.length_kinds, Nat.sub_self]
  rw [front, List.nil_append] at traverses
  refine ⟨t, recounts, fun w t' => ⟨fun h' => h'.unique traverses, ?_⟩⟩
  rintro ⟨rfl, rfl⟩
  exact traverses

end

/-! ## The verdict -/

section

variable {s : Sentence}

/-- The walker who has read the whole sentence, with the diagnostics of the verdict on it. -/
def Walker.final (s : Sentence) : Walker :=
  ⟨s.tokens.size, 0, (Verdict.ofSentence s).diagnostics.toList⟩

/-- A walker with the limit comes to the verdict, and logs what that says. -/
theorem exists_recounts (s : Sentence) : ∃ t,
    Recounts s t (Verdict.ofSentence s).rounds ∧
      ∀ w t', Traverses (some nestingLimit) s .start w t' ↔ w = .final s ∧ t' = t := by
  have whole : Ahead (some nestingLimit) s 0 nestingLimit s.kinds :=
    ⟨List.suffix_rfl, (Nat.zero_add nestingLimit).symm⟩
  have diagnostics : (Verdict.ofSentence s).diagnostics.toList =
      (roundReports nestingLimit s.kinds).map s.diagnose := Collector.toList_ofList _
  rw [Walker.final, diagnostics]
  exact exists_traverses_iff whole

/-- Over the whole sentence, a walker with the limit comes to the verdict, and what is logged is
what the verdict logs. -/
theorem exists_recognizes (s : Sentence) : ∃ t, eventsOf t = (Verdict.ofSentence s).events ∧
    ∀ w t', Recognizes (some nestingLimit) s w t' ↔ w = .final s ∧ t' = t := by
  obtain ⟨t, recounts, traverses⟩ := exists_recounts s
  have isEmpty : (Walker.final s).recorded.isEmpty = (Verdict.ofSentence s).accepted := by
    rw [Bool.eq_iff_iff, List.isEmpty_iff]
    exact (Collector.isEmpty_iff _).symm
  have length : (Walker.final s).recorded.length = (Verdict.ofSentence s).diagnostics.size :=
    (Collector.size_eq_length _).symm
  refine ⟨.logged (.reading s.tokens.size) :: t ++ [.logged (.judged
    (Walker.final s).recorded.isEmpty (Walker.final s).recorded.length)], ?_, fun w t' => ⟨?_, ?_⟩⟩
  · rw [isEmpty, length, eventsOf_append, Verdict.events, ← recounts.events]
    rfl
  · rintro ⟨h⟩
    obtain ⟨rfl, rfl⟩ := (traverses _ _).mp h
    exact ⟨rfl, rfl⟩
  · rintro ⟨rfl, rfl⟩
    exact .mk ((traverses _ _).mpr ⟨rfl, rfl⟩)

end

end Grammar

end MiniC
