import MiniC.Proofs.Grammar.Walker

/-!
# What a move comes to

A walker at the front of the kinds that lie ahead comes to what the rule comes to that is tried on
these kinds: it passes or fails, stands where the rule stops, records what the rule reports and
logs that.  This is `Move.Yields`, with one lemma for each kind of move.  Stepping back is the one
move that makes more lie ahead.  It does so behind an identifier that was taken on trial, and
`Move.Does.onTrial` takes the two together.

A rule is given a number of levels.  A walker with a limit has the levels up to its limit left.  A
walker without one needs no more levels than kinds lie ahead, since a construct that is opened
begins with a kind.  `Covers` is this tie between levels and limits.
-/

namespace MiniC

namespace Sentence

variable {s : Sentence} {k : Kind} {ks : List Kind}

@[simp] theorem position_nil (s : Sentence) : s.position [] = s.tokens.size := rfl

theorem position_cons (h : k :: ks <:+ s.kinds) : s.position ks = s.position (k :: ks) + 1 := by
  have fewer := h.length_le
  rw [length_kinds, List.length_cons] at fewer
  simp only [position, List.length_cons]
  omega

theorem getElem?_position (h : k :: ks <:+ s.kinds) :
    s.kinds[s.position (k :: ks)]? = some k := by
  rw [← List.head?_drop, drop_position h, List.head?_cons]

theorem position_lt (h : k :: ks <:+ s.kinds) : s.position (k :: ks) < s.tokens.size := by
  rw [← length_kinds]
  exact (List.getElem?_eq_some_iff.mp (getElem?_position h)).1

end Sentence

namespace Grammar

open Outcome (refusal)

/-! ## What is reported and logged -/

/-- The report that a mark is of. -/
def Mark.report? (s : Sentence) : Mark → Option Report
  | complained c place => some ⟨c, s.kinds.drop place⟩
  | _ => none

/-- The event that a mark is of. -/
def Mark.event? : Mark → Option Event
  | logged e => some e
  | _ => none

/-- The reports that are made in a row of marks. -/
def reportsOf (s : Sentence) (t : List Mark) : List Report := t.filterMap (Mark.report? s)

/-- The events that are logged in a row of marks. -/
def eventsOf (t : List Mark) : List Event := t.filterMap Mark.event?

/-- These reports are made, and logged one by one. -/
structure Tells (s : Sentence) (t : List Mark) (rs : List Report) : Prop where
  /-- These are the reports. -/
  reports : reportsOf s t = rs
  /-- This is what is logged of them. -/
  events : eventsOf t = rs.flatMap (Verdict.ofSentence s).reportEvents

section

variable {s : Sentence} {t t' : List Mark} {rs rs' : List Report} {a : Mark}

theorem reportsOf_append : reportsOf s (t ++ t') = reportsOf s t ++ reportsOf s t' :=
  List.filterMap_append

theorem eventsOf_append : eventsOf (t ++ t') = eventsOf t ++ eventsOf t' := List.filterMap_append

namespace Tells

theorem nil : Tells s [] [] := ⟨rfl, rfl⟩

theorem append (h : Tells s t rs) (h' : Tells s t' rs') : Tells s (t ++ t') (rs ++ rs') where
  reports := by rw [reportsOf_append, h.reports, h'.reports]
  events := by rw [eventsOf_append, h.events, h'.events, List.flatMap_append]

/-- A mark that is of no report and of no event tells nothing. -/
theorem cons (hr : a.report? s = none) (he : a.event? = none) (h : Tells s t rs) :
    Tells s (a :: t) rs where
  reports := (List.filterMap_cons_none hr).trans h.reports
  events := (List.filterMap_cons_none he).trans h.events

/-- A complaint is reported and logged, and no other line is. -/
theorem complaint {c : Complaint} {ks : List Kind} (hc : c.isTooDeep = false)
    (hs : ks <:+ s.kinds) :
    Tells s (Mark.complaint c (s.position ks) (s.diagnose ⟨c, ks⟩)) [⟨c, ks⟩] where
  reports := by
    show [Report.mk c (s.kinds.drop (s.position ks))] = _
    rw [Sentence.drop_position hs]
  events := by
    rw [List.flatMap_singleton, Verdict.reportEvents, hc]
    rfl

/-- A refusal is announced before that. -/
theorem refusal {c : Complaint} {ks : List Kind} (hc : c.isTooDeep = true)
    (hs : ks <:+ s.kinds) :
    Tells s (.logged .limitReached :: Mark.complaint c (s.position ks) (s.diagnose ⟨c, ks⟩))
      [⟨c, ks⟩] where
  reports := by
    show [Report.mk c (s.kinds.drop (s.position ks))] = _
    rw [Sentence.drop_position hs]
  events := by
    rw [List.flatMap_singleton, Verdict.reportEvents, hc]
    rfl

end Tells

end

/-! ## What a walker sees and records -/

theorem contains_singleton (k k' : Kind) : [k].contains k' = (k' == k) := by
  rw [List.contains_cons, List.contains_nil, Bool.or_false]

namespace Walker

variable {s : Sentence} {c : Complaint} {k : Kind} {ks l : List Kind} {depth : Nat}
variable {ds : List Diagnostic}

theorem sees_nil : sees s l ⟨s.position [], depth, ds⟩ = false := by
  have beyond : s.kinds[s.tokens.size]? = none := by simp [Sentence.length_kinds]
  simp [sees, beyond]

theorem sees_cons (h : k :: ks <:+ s.kinds) :
    sees s l ⟨s.position (k :: ks), depth, ds⟩ = l.contains k := by
  simp [sees, Sentence.getElem?_position h]

theorem onward_cons (h : k :: ks <:+ s.kinds) :
    onward ⟨s.position (k :: ks), depth, ds⟩ = ⟨s.position ks, depth, ds⟩ := by
  rw [onward, Sentence.position_cons h]

/-- Blaming the next token is what a report does that does not blame the token before. -/
theorem blameNext_eq (hc : c.blamesPrevious = false) :
    blameNext s c ⟨s.position ks, depth, ds⟩ = s.diagnose ⟨c, ks⟩ := by
  simp [blameNext, Sentence.diagnose, Sentence.blamed, hc]

/-- Blaming the token taken last is what a report does that blames the token before. -/
theorem blameBehind_eq (hc : c.blamesPrevious = true) :
    blameBehind s c ⟨s.position ks, depth, ds⟩ = s.diagnose ⟨c, ks⟩ := by
  rw [Sentence.diagnose, Sentence.blamed, if_pos hc, blameBehind]
  generalize s.position ks = place
  cases place with
  | zero => rfl
  | succ i =>
    cases h : s.tokens[i]? with
    | some t => simp [behind?, Sentence.lineAt, Sentence.labelAt, h]
    | none =>
      have beyond : s.tokens[i + 1]? = none := by
        rw [Array.getElem?_eq_none_iff] at h ⊢
        exact Nat.le_succ_of_le h
      simp [behind?, blameNext, Sentence.lineAt, Sentence.labelAt, h, beyond]

end Walker

/-! ## What a move comes to -/

/-- With these kinds ahead, a walker who moves like this comes to the outcome. -/
structure Move.Yields (limit : Option Nat) (s : Sentence) (depth : Nat) (m : Move)
    (ks : List Kind) (o : Outcome) : Prop where
  /-- What is left lay ahead. -/
  suffix : o.rest <:+ ks
  /-- The walker stands there, and has recorded and logged what is reported. -/
  walks : ∀ ds, ∃ t, Walks limit s m ⟨s.position ks, depth, ds⟩ o.passed
    ⟨s.position o.rest, depth, ds ++ o.reports.map s.diagnose⟩ t ∧ Tells s t o.reports

namespace Move.Yields

variable {limit : Option Nat} {s : Sentence} {depth : Nat} {a b : Move} {k : Kind}
variable {ks l : List Kind} {o o' : Outcome} {g : List Kind → Outcome} {c : Complaint}
variable {q : Routine}

theorem pass (ks : List Kind) : Move.pass.Yields limit s depth ks (Outcome.pass ks) :=
  ⟨List.suffix_rfl, fun ds => ⟨[], by simpa [Outcome.pass] using Walks.pass _, .nil⟩⟩

theorem advance (h : ks <:+ s.kinds) :
    Move.advance.Yields limit s depth ks (Outcome.pass ks.tail) := by
  refine ⟨List.tail_suffix ks, fun ds => ?_⟩
  cases ks with
  | nil => exact ⟨[], by simpa [Outcome.pass] using Walks.advanceAtEnd (Nat.le_refl _), .nil⟩
  | cons k ks =>
    have taken : Walks limit s .advance ⟨s.position (k :: ks), depth, ds⟩ true _ _ :=
      .advance (Sentence.position_lt h)
    rw [Walker.onward_cons h] at taken
    exact ⟨_, by simpa [Outcome.pass] using taken, .cons rfl rfl .nil⟩

theorem fail (hc : c.isTooDeep = false) (hs : ks <:+ s.kinds) :
    (Move.fail c).Yields limit s depth ks (refusal c ks) := by
  refine ⟨List.suffix_rfl, fun ds => ?_⟩
  have tells := Tells.complaint hc hs
  cases blame : c.blamesPrevious with
  | false =>
    have fails : Walks limit s _ _ _ _ _ := .fail blame ⟨s.position ks, depth, ds⟩
    rw [Walker.blameNext_eq blame] at fails
    exact ⟨_, fails, tells⟩
  | true =>
    have fails : Walks limit s _ _ _ _ _ := .failBehind blame ⟨s.position ks, depth, ds⟩
    rw [Walker.blameBehind_eq blame] at fails
    exact ⟨_, fails, .cons rfl rfl tells⟩

theorem call (h : q.moves.Yields limit s depth ks o) :
    (Move.call q).Yields limit s depth ks o := by
  refine ⟨h.suffix, fun ds => ?_⟩
  obtain ⟨t, walks, tells⟩ := h.walks ds
  have called : Tells s (.entered q depth :: t ++ [.left q]) (o.reports ++ []) :=
    (Tells.cons rfl rfl tells).append (.cons rfl rfl .nil)
  rw [List.append_nil] at called
  exact ⟨_, .call walks, called⟩

theorem seq (ha : a.Yields limit s depth ks o)
    (hb : o.passed = true → b.Yields limit s depth o.rest (g o.rest)) :
    (Move.seq a b).Yields limit s depth ks (o.andThen g) := by
  obtain ⟨passed, rest, reports⟩ := o
  obtain ⟨suffix, ha⟩ := ha
  cases passed with
  | false =>
    refine ⟨suffix, fun ds => ?_⟩
    obtain ⟨t, ha, tells⟩ := ha ds
    exact ⟨t, .seqFailed ha, tells⟩
  | true =>
    obtain ⟨suffix', hb⟩ := hb rfl
    refine ⟨suffix'.trans suffix, fun ds => ?_⟩
    obtain ⟨t, ha, tells⟩ := ha ds
    obtain ⟨t', hb, tells'⟩ := hb (ds ++ reports.map s.diagnose)
    rw [List.append_assoc, ← List.map_append] at hb
    exact ⟨t ++ t', .seq ha hb, tells.append tells'⟩

/-- Behind the next token. -/
theorem behindFirst (hs : ks <:+ s.kinds) (h : a.Yields limit s depth ks.tail o) :
    (Move.seq .advance a).Yields limit s depth ks o :=
  seq (g := fun _ => o) (advance hs) fun _ => h

theorem echo (hb : c.blamesPrevious = false) (hc : c.isTooDeep = false) (hs : ks <:+ s.kinds)
    (h : a.Yields limit s depth ks o) :
    (Move.echo a c).Yields limit s depth ks (o.echo c) := by
  obtain ⟨passed, rest, reports⟩ := o
  obtain ⟨suffix, h⟩ := h
  refine ⟨by cases passed <;> exact suffix, fun ds => ?_⟩
  obtain ⟨t, h, tells⟩ := h ds
  cases passed with
  | true => exact ⟨t, .echoPassed h, tells⟩
  | false =>
    have more := Walks.echoFailed (c := c) h
    rw [Walker.blameNext_eq hb] at more
    refine ⟨_, ?_, tells.append (.complaint hc (suffix.trans hs))⟩
    simpa [Outcome.echo, Walker.record] using more

/-! ### By the next token -/

theorem ifNext_nil (h : b.Yields limit s depth [] o) :
    (Move.ifNext l a b).Yields limit s depth [] o := by
  refine ⟨h.suffix, fun ds => ?_⟩
  obtain ⟨t, walks, tells⟩ := h.walks ds
  exact ⟨t, .notNext Walker.sees_nil walks, tells⟩

theorem ifNext_cons (hs : k :: ks <:+ s.kinds)
    (ha : l.contains k = true → a.Yields limit s depth (k :: ks) o)
    (hb : b.Yields limit s depth (k :: ks) o') :
    (Move.ifNext l a b).Yields limit s depth (k :: ks) (if l.contains k then o else o') := by
  cases hk : l.contains k with
  | true =>
    refine ⟨(ha hk).suffix, fun ds => ?_⟩
    obtain ⟨t, walks, tells⟩ := (ha hk).walks ds
    exact ⟨t, .next (hk ▸ Walker.sees_cons hs) walks, tells⟩
  | false =>
    refine ⟨hb.suffix, fun ds => ?_⟩
    obtain ⟨t, walks, tells⟩ := hb.walks ds
    exact ⟨t, .notNext (hk ▸ Walker.sees_cons hs) walks, tells⟩

theorem ifTake_nil (h : b.Yields limit s depth [] o) :
    (Move.ifTake l a b).Yields limit s depth [] o := by
  refine ⟨h.suffix, fun ds => ?_⟩
  obtain ⟨t, walks, tells⟩ := h.walks ds
  exact ⟨t, .notTake Walker.sees_nil walks, tells⟩

theorem ifTake_cons (hs : k :: ks <:+ s.kinds) (ha : a.Yields limit s depth ks o)
    (hb : b.Yields limit s depth (k :: ks) o') :
    (Move.ifTake l a b).Yields limit s depth (k :: ks) (if l.contains k then o else o') := by
  cases hk : l.contains k with
  | true =>
    refine ⟨ha.suffix.trans (List.suffix_cons k ks), fun ds => ?_⟩
    obtain ⟨t, walks, tells⟩ := ha.walks ds
    rw [← Walker.onward_cons hs] at walks
    exact ⟨_, .take (hk ▸ Walker.sees_cons hs) walks, .cons rfl rfl tells⟩
  | false =>
    refine ⟨hb.suffix, fun ds => ?_⟩
    obtain ⟨t, walks, tells⟩ := hb.walks ds
    exact ⟨t, .notTake (hk ▸ Walker.sees_cons hs) walks, tells⟩

/-! ### Loops -/

theorem whileTake_nil : (Move.whileTake l a).Yields limit s depth [] (Outcome.pass []) :=
  ⟨List.suffix_rfl, fun ds =>
    ⟨[], by simpa [Outcome.pass] using Walks.whileStop Walker.sees_nil, .nil⟩⟩

theorem whileTake_cons (hs : k :: ks <:+ s.kinds) (ha : a.Yields limit s depth ks o)
    (more : o.passed = true → (Move.whileTake l a).Yields limit s depth o.rest (g o.rest)) :
    (Move.whileTake l a).Yields limit s depth (k :: ks)
      (if l.contains k then o.andThen g else Outcome.pass (k :: ks)) := by
  cases hk : l.contains k with
  | false =>
    refine ⟨List.suffix_rfl, fun ds => ⟨[], ?_, .nil⟩⟩
    simpa [Outcome.pass] using Walks.whileStop (hk ▸ Walker.sees_cons hs)
  | true =>
    obtain ⟨passed, rest, reports⟩ := o
    obtain ⟨suffix, ha⟩ := ha
    have seen : ∀ ds, Walker.sees s l ⟨s.position (k :: ks), depth, ds⟩ = true :=
      fun ds => hk ▸ Walker.sees_cons hs
    have suffix' := suffix.trans (List.suffix_cons k ks)
    cases passed with
    | false =>
      refine ⟨suffix', fun ds => ?_⟩
      obtain ⟨t, ha, tells⟩ := ha ds
      rw [← Walker.onward_cons hs] at ha
      exact ⟨_, .whileBroken (seen ds) ha, .cons rfl rfl tells⟩
    | true =>
      obtain ⟨suffix'', more⟩ := more rfl
      refine ⟨suffix''.trans suffix', fun ds => ?_⟩
      obtain ⟨t, ha, tells⟩ := ha ds
      obtain ⟨t', more, tells'⟩ := more (ds ++ reports.map s.diagnose)
      rw [← Walker.onward_cons hs] at ha
      rw [List.append_assoc, ← List.map_append] at more
      exact ⟨_, .whileAgain (seen ds) ha more,
        (Tells.cons rfl rfl tells).append (.cons rfl rfl tells')⟩

/-- What comes behind a loop comes behind the rest of it. -/
theorem upTo_seq {k' : Kind} (hs : k' :: ks <:+ s.kinds) (ha : a.Yields limit s depth (k' :: ks) o)
    (hb : b.Yields limit s depth (k' :: ks) o') (more : o.passed = true →
      (Move.seq (.upTo k a) b).Yields limit s depth o.rest (g o.rest)) :
    (Move.seq (.upTo k a) b).Yields limit s depth (k' :: ks)
      (if k' == k then o' else o.andThen g) := by
  have sees : ∀ ds, Walker.sees s [k] ⟨s.position (k' :: ks), depth, ds⟩ = (k' == k) :=
    fun ds => (Walker.sees_cons hs).trans (contains_singleton k k')
  cases hk : k' == k with
  | true =>
    refine ⟨hb.suffix, fun ds => ?_⟩
    obtain ⟨t, hb, tells⟩ := hb.walks ds
    exact ⟨_, .seq (.upToStop (.inl (hk ▸ sees ds))) hb, tells⟩
  | false =>
    have goesOn : ∀ ds, ¬ (Walker.sees s [k] ⟨s.position (k' :: ks), depth, ds⟩ = true ∨
        s.tokens.size ≤ s.position (k' :: ks)) := by
      rintro ds (seen | atEnd)
      · rw [sees, hk] at seen
        cases seen
      · exact absurd (Sentence.position_lt hs) (Nat.not_lt_of_le atEnd)
    obtain ⟨passed, rest, reports⟩ := o
    obtain ⟨suffix, ha⟩ := ha
    cases passed with
    | false =>
      refine ⟨suffix, fun ds => ?_⟩
      obtain ⟨t, ha, tells⟩ := ha ds
      exact ⟨t, .seqFailed (.upToBroken (goesOn ds) ha), tells⟩
    | true =>
      obtain ⟨suffix', more⟩ := more rfl
      refine ⟨suffix'.trans suffix, fun ds => ?_⟩
      obtain ⟨t, ha, tells⟩ := ha ds
      obtain ⟨t', more, tells'⟩ := more (ds ++ reports.map s.diagnose)
      rw [List.append_assoc, ← List.map_append] at more
      show ∃ t, Walks limit s _ _ (g rest).passed ⟨s.position (g rest).rest, depth,
        ds ++ (reports ++ (g rest).reports).map s.diagnose⟩ t ∧
          Tells s t (reports ++ (g rest).reports)
      have both := tells.append (Tells.cons (a := .turned (s.position (k' :: ks))
        (s.position rest)) rfl rfl tells')
      generalize (g rest).passed = passed at more ⊢
      cases more with
      | seq hl hb =>
        rw [← List.cons_append, ← List.append_assoc] at both
        exact ⟨_, .seq (.upToAgain (goesOn ds) ha hl) hb, both⟩
      | seqFailed hl => exact ⟨_, .seqFailed (.upToAgain (goesOn ds) ha hl), both⟩

theorem upTo_seq_nil (h : b.Yields limit s depth [] o) :
    (Move.seq (.upTo k a) b).Yields limit s depth [] o := by
  refine ⟨h.suffix, fun ds => ?_⟩
  obtain ⟨t, walks, tells⟩ := h.walks ds
  exact ⟨_, .seq (.upToStop (.inr (Nat.le_refl _))) walks, tells⟩

end Move.Yields

/-! ## Levels and limits -/

/-- With so many constructs open, so many levels do for these kinds. -/
def Covers (limit : Option Nat) (depth room : Nat) (ks : List Kind) : Prop :=
  match limit with
  | some n => n = depth + room
  | none => ks.length ≤ room

namespace Covers

variable {limit : Option Nat} {depth room : Nat} {ks ks' rest : List Kind} {k : Construct}

theorem mono (h : Covers limit depth room ks) (hs : ks' <:+ ks) : Covers limit depth room ks' :=
  match limit, h with
  | some _, h => h
  | none, h => Nat.le_trans hs.length_le h

/-- As long as the limit is kept, some number of levels does. -/
theorem exists_room (h : ∀ n ∈ limit, depth ≤ n) (ks : List Kind) :
    ∃ room, Covers limit depth room ks :=
  match limit, h with
  | some n, h => ⟨n - depth, (Nat.add_sub_of_le (h n rfl)).symm⟩
  | none, _ => ⟨ks.length, Nat.le_refl _⟩

/-- A construct begins with a kind at least. -/
theorem length_opener_pos (k : Construct) : 0 < k.opener.length := by
  cases k <;> exact Nat.succ_pos _

/-- When no level is left, the limit is reached. -/
theorem not_below (h : Covers limit depth 0 (k.opener ++ rest)) : ¬ Below limit depth :=
  match limit, h with
  | some n, h => fun hb => Nat.ne_of_gt (hb n rfl) h
  | none, h => by
    have least : (k.opener ++ rest).length ≤ 0 := h
    have := length_opener_pos k
    rw [List.length_append] at least
    omega

theorem below (h : Covers limit depth (room + 1) ks) : Below limit depth :=
  match limit, h with
  | some n, h => by
    rintro _ ⟨rfl⟩
    have : n = depth + (room + 1) := h
    omega
  | none, _ => nofun

/-- Inside a construct there is one level less, and one construct more is open. -/
theorem deeper (h : Covers limit depth (room + 1) (k.opener ++ rest)) :
    Covers limit (depth + 1) room rest :=
  match limit, h with
  | some _, h => h.trans (Nat.add_right_comm depth room 1)
  | none, h => by
    have least : (k.opener ++ rest).length ≤ room + 1 := h
    have := length_opener_pos k
    rw [List.length_append] at least
    show rest.length ≤ room
    omega

end Covers

/-- These kinds are the last ones of the sentence, and so many levels do for them. -/
structure Ahead (limit : Option Nat) (s : Sentence) (depth room : Nat) (ks : List Kind) :
    Prop where
  /-- The sentence ends with them. -/
  suffix : ks <:+ s.kinds
  /-- The levels do. -/
  covers : Covers limit depth room ks

theorem Ahead.mono {limit : Option Nat} {s : Sentence} {depth room : Nat} {ks ks' : List Kind}
    (h : Ahead limit s depth room ks) (hs : ks' <:+ ks) : Ahead limit s depth room ks' :=
  ⟨hs.trans h.suffix, h.covers.mono hs⟩

/-! ## The combinations of rules -/

/-- By the first of the kinds, the one outcome or the other. -/
def onHead (p : Kind → Bool) (yes no : List Kind → Outcome) : List Kind → Outcome
  | [] => no []
  | k :: ks => if p k then yes (k :: ks) else no (k :: ks)

theorem onHead_andThen {p : Kind → Bool} {f g h : List Kind → Outcome} (ks : List Kind) :
    (onHead p f g ks).andThen h =
      onHead p (fun ks => (f ks).andThen h) (fun ks => (g ks).andThen h) ks := by
  cases ks with
  | nil => rfl
  | cons k ks =>
    rw [onHead, onHead]
    split
    · rfl
    · rfl

theorem Rule.ifAhead_run (p : Kind → Bool) (yes no : Rule) :
    (Rule.ifAhead p yes no).run = onHead p yes.run no.run := by
  funext ks
  cases ks <;> rfl

theorem Rule.ifNext_run (p : Kind → Bool) (yes no : Rule) :
    (Rule.ifNext p yes no).run = onHead p (fun ks => yes.run ks.tail) no.run := by
  funext ks
  cases ks <;> rfl

theorem Rule.opening_run (k : Kind) (c : Complaint) (inner : Option Rule) (no : Rule) :
    (Rule.opening k c inner no).run =
      onHead (· == k) (fun ks => inner.elim (refusal c (k :: ks.tail)) fun r => r.run ks.tail)
        no.run := by
  funext ks
  cases ks with
  | nil => exact Rule.opening_run_nil
  | cons k' ks =>
    rw [onHead]
    cases he : k' == k with
    | false => exact Rule.opening_run_of_ne (fun same => by simp [same] at he) ks
    | true =>
      obtain rfl := eq_of_beq he
      cases inner with
      | none => exact Rule.opening_run_none ks
      | some r => exact Rule.opening_run_some ks

/-- With so many constructs open and so many levels left, the moves do what is done here. -/
def Move.Does (limit : Option Nat) (s : Sentence) (depth room : Nat) (m : Move)
    (f : List Kind → Outcome) : Prop :=
  ∀ ks, Ahead limit s depth room ks → m.Yields limit s depth ks (f ks)

namespace Move.Does

variable {limit : Option Nat} {s : Sentence} {depth room : Nat} {a b : Move}
variable {f g : List Kind → Outcome} {p : Kind → Bool} {l : List Kind} {r : Rule} {k : Kind}
variable {c : Complaint} {q : Routine}

theorem pass : Move.pass.Does limit s depth room Outcome.pass := fun ks _ => .pass ks

theorem fail (hc : c.isTooDeep = false) : (Move.fail c).Does limit s depth room (refusal c) :=
  fun _ h => .fail hc h.suffix

theorem call (h : q.moves.Does limit s depth room f) : (Move.call q).Does limit s depth room f :=
  fun ks hk => (h ks hk).call

theorem seq (ha : a.Does limit s depth room f) (hb : b.Does limit s depth room g) :
    (Move.seq a b).Does limit s depth room fun ks => (f ks).andThen g :=
  fun ks hk => (ha ks hk).seq fun _ => hb _ (hk.mono (ha ks hk).suffix)

theorem echo (hb : c.blamesPrevious = false) (hc : c.isTooDeep = false)
    (h : a.Does limit s depth room f) :
    (Move.echo a c).Does limit s depth room fun ks => (f ks).echo c :=
  fun ks hk => (h ks hk).echo hb hc hk.suffix

/-! ### By the next token -/

theorem ifNext (hl : ∀ k, l.contains k = p k) (ha : a.Does limit s depth room f)
    (hb : b.Does limit s depth room g) : (Move.ifNext l a b).Does limit s depth room (onHead p f g)
  | [], hk => .ifNext_nil (hb [] hk)
  | k :: ks, hk => by
    rw [onHead, ← hl]
    exact .ifNext_cons hk.suffix (fun _ => ha _ hk) (hb _ hk)

theorem ifTake (hl : ∀ k, l.contains k = p k) (ha : a.Does limit s depth room f)
    (hb : b.Does limit s depth room g) :
    (Move.ifTake l a b).Does limit s depth room (onHead p (fun ks => f ks.tail) g)
  | [], hk => .ifTake_nil (hb [] hk)
  | k :: ks, hk => by
    rw [onHead, ← hl]
    exact .ifTake_cons hk.suffix (ha _ (hk.mono (List.suffix_cons k ks))) (hb _ hk)

theorem expect (k : Kind) (hc : c.isTooDeep = false) :
    (Move.expect k c).Does limit s depth room (Rule.exactly k c).run := by
  have same : (Rule.exactly k c).run =
      onHead (· == k) (fun ks => Outcome.pass ks.tail) (refusal c) := by
    funext ks
    cases ks <;> rfl
  rw [same]
  exact ifTake (contains_singleton k) pass (fail hc)

/-- An identifier is taken on trial, and handed back if it is not followed as it should be. -/
theorem onTrial {k' : Kind} {yes no : Rule}
    (ha : ∀ rest, Ahead limit s depth room (k :: k' :: rest) →
      a.Yields limit s depth rest (yes.run rest)) (hb : b.Does limit s depth room no.run) :
    (Move.ifTake [k] (.ifTake [k'] a (.seq .stepBack b)) b).Does limit s depth room
      (Rule.ifNextTwo k k' yes no).run := by
  intro ks hk
  by_cases he : ∃ rest, ks = k :: k' :: rest
  · obtain ⟨rest, rfl⟩ := he
    have both : (Rule.ifNextTwo k k' yes no).run (k :: k' :: rest) = yes.run rest :=
      if_pos ⟨rfl, rfl⟩
    have taken := ha rest hk
    have suffix := (List.suffix_cons k _).trans hk.suffix
    rw [both]
    refine ⟨(taken.suffix.trans (List.suffix_cons k' rest)).trans (List.suffix_cons k _),
      fun ds => ?_⟩
    obtain ⟨t, walks, tells⟩ := taken.walks ds
    rw [← Walker.onward_cons suffix] at walks
    have first : Walker.sees s [k] ⟨s.position (k :: k' :: rest), depth, ds⟩ = true := by
      rw [Walker.sees_cons hk.suffix]
      simp
    have second : Walker.sees s [k'] ⟨s.position (k' :: rest), depth, ds⟩ = true := by
      rw [Walker.sees_cons suffix]
      simp
    have inner := Walks.take (b := .seq .stepBack b) second walks
    rw [← Walker.onward_cons hk.suffix] at inner
    exact ⟨_, .take first inner, .cons rfl rfl (.cons rfl rfl tells)⟩
  · rw [Rule.ifNextTwo_run_of_ne fun tail h => he ⟨tail, h⟩]
    refine ⟨(hb ks hk).suffix, fun ds => ?_⟩
    obtain ⟨t, walks, tells⟩ := (hb ks hk).walks ds
    cases hn : Walker.sees s [k] ⟨s.position ks, depth, ds⟩ with
    | false => exact ⟨_, .notTake hn walks, tells⟩
    | true =>
      -- the identifier is taken, and then the walker is back where it was
      have unlike : Walker.sees s [k'] (Walker.onward ⟨s.position ks, depth, ds⟩) = false := by
        match ks with
        | [] => rw [Walker.sees_nil] at hn; cases hn
        | [first] =>
          rw [Walker.onward_cons hk.suffix]
          exact Walker.sees_nil
        | first :: second :: rest =>
          rw [Walker.sees_cons hk.suffix] at hn
          rw [Walker.onward_cons hk.suffix,
            Walker.sees_cons ((List.suffix_cons _ _).trans hk.suffix)]
          refine Bool.eq_false_iff.mpr fun h => he ⟨rest, ?_⟩
          simp only [contains_singleton, beq_iff_eq] at hn h
          rw [hn, h]
      have handedBack := Walks.seq (.stepBack (Walker.onward ⟨s.position ks, depth, ds⟩)) walks
      exact ⟨_, .take hn (.notTake unlike handedBack), .cons rfl rfl (.cons rfl rfl tells)⟩

/-! ### Loops -/

theorem dropWhile (hl : ∀ k, l.contains k = p k) : (Move.whileTake l .pass).Does limit s depth room
    fun ks => Outcome.pass (ks.dropWhile p)
  | [], _ => .whileTake_nil
  | k :: ks, hk => by
    have more := dropWhile hl ks (hk.mono (List.suffix_cons k ks))
    show Move.Yields _ _ _ _ _ (Outcome.pass ((k :: ks).dropWhile p))
    rw [List.dropWhile_cons, apply_ite Outcome.pass, ← hl]
    exact .whileTake_cons (g := fun ks => Outcome.pass (ks.dropWhile p)) hk.suffix (.pass ks)
      fun _ => more

theorem moreOperands (hl : ∀ k, l.contains k = p k) (h : a.Does limit s depth room r.run) :
    (Move.whileTake l a).Does limit s depth room (Rule.moreOperands p r [])
  | [], _ => by
    rw [Rule.moreOperands_nil]
    exact .whileTake_nil
  | k :: ks, hk => by
    have inside := hk.mono (List.suffix_cons k ks)
    have least := (r.fits ks).1
    rw [Rule.moreOperands_cons, ← hl]
    exact .whileTake_cons hk.suffix (h ks inside) fun _ =>
      moreOperands hl h _ (inside.mono (h ks inside).suffix)
termination_by ks => ks.length
decreasing_by exact Nat.lt_succ_of_le least

theorem itemsUntil (hc : c.isTooDeep = false) (h : a.Does limit s depth room r.run) :
    (Move.seq (.upTo k a) (.expect k c)).Does limit s depth room
      (Rule.itemsUntil (· == k) c r [])
  | [], hk => by
    rw [Rule.itemsUntil_nil]
    exact .upTo_seq_nil (expect k hc [] hk)
  | k' :: ks, hk => by
    have less := (r.fits (k' :: ks)).2
    have loop := (h _ hk).upTo_seq (k := k) hk.suffix (expect k hc _ hk) fun hp =>
      have shorter := less hp
      itemsUntil hc h _ (hk.mono (h _ hk).suffix)
    rw [Rule.exactly, Rule.one_run_cons] at loop
    rw [Rule.itemsUntil_cons]
    cases he : k' == k with
    | true =>
      rw [he] at loop
      exact loop
    | false =>
      rw [he] at loop
      exact loop
termination_by ks => ks.length
decreasing_by exact shorter

end Move.Does

end Grammar

end MiniC
