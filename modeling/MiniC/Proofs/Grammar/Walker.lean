import MiniC.Log
import MiniC.Proofs.Grammar.Moves
import MiniC.Proofs.Quoting

/-!
# Reading by index

The moves are those of a *walker*, who has a sentence and the index of the token that comes
next.  A walker takes a token by going on to the next index, and can step back to the index
before.  It counts the constructs that are open, and it keeps what has been recorded.  A *limit*
may be set to the counter, and at the limit a construct is refused.  Without a limit none ever is.

What a walker does leaves *marks*.  Some of them hold the index or the counter that they were
made with.  Before the first token there is none to step back to and none to blame, behind the
last one there is none to look at, and a counter at zero cannot go down, but nothing in `Walks`
forbids this.  So what is to be shown is that the marks of a walk are in order.  Others hold what
is logged, at the moment when it is logged: a diagnostic when it is recorded, a refusal before
that, and where the walker resumes behind a failure.

`Walks` has the moves, `Resumes` the way from a failure to where the next declaration is tried,
`Traverses` the rounds over a sentence and `Recognizes` all of this from the first event to the
last.  A walk is determined by where it begins, by `Walks.unique` and `Traverses.unique`, and it
leaves as many constructs open as it found, by `Walks.depth_eq`.
-/

namespace MiniC.Grammar

/-! ## Walkers -/

/-- A walker over a sentence. -/
structure Walker where
  /-- The index of the token that comes next. -/
  place : Nat
  /-- How many constructs are open. -/
  depth : Nat
  /-- What has been recorded, oldest first. -/
  recorded : List Diagnostic
deriving DecidableEq, Repr

/-- What a walk leaves behind. -/
inductive Mark where
  /-- The token at this index was taken. -/
  | took (place : Nat)
  /-- The walker stepped back from this index. -/
  | steppedBack (place : Nat)
  /-- The walker looked at the token before this index, to tell whether to resume there. -/
  | lookedBack (place : Nat)
  /-- At this index the token before was blamed. -/
  | blamedBehind (place : Nat)
  /-- A construct was opened at this index, and so many are open from then on. -/
  | opened (k : Construct) (depth place : Nat)
  /-- The counter went down from here. -/
  | closed (depth : Nat)
  /-- A routine was called, with so many constructs open. -/
  | entered (q : Routine) (depth : Nat)
  /-- The call of a routine has ended. -/
  | left (q : Routine)
  /-- A loop has gone round, from one index to another. -/
  | turned (place next : Nat)
  /-- A round over the sentence has ended, from one index to where the next one begins. -/
  | resumed (place next : Nat)
  /-- A complaint was made at this index. -/
  | complained (c : Complaint) (place : Nat)
  /-- An event was logged. -/
  | logged (e : Event)
deriving DecidableEq, Repr

/-- The marks of a complaint that is made at an index and recorded as this diagnostic.  What is
recorded is logged as well. -/
def Mark.complaint (c : Complaint) (place : Nat) (d : Diagnostic) : List Mark :=
  [complained c place, logged (.recorded d)]

namespace Walker

/-- Tells whether the token at an index is of one of these kinds. -/
def sees (s : Sentence) (ks : List Kind) (w : Walker) : Bool := s.kinds[w.place]?.any ks.contains

/-- One index further on. -/
def onward (w : Walker) : Walker := { w with place := w.place + 1 }

/-- One index back, if there is one. -/
def back (w : Walker) : Walker := { w with place := w.place - 1 }

/-- With one construct more open. -/
def deeper (w : Walker) : Walker := { w with depth := w.depth + 1 }

/-- With one construct less open. -/
def shallower (w : Walker) : Walker := { w with depth := w.depth - 1 }

/-- Record a diagnostic. -/
def record (d : Diagnostic) (w : Walker) : Walker := { w with recorded := w.recorded ++ [d] }

/-- The diagnostic that blames the token that comes next, or the end of the sentence. -/
def blameNext (s : Sentence) (c : Complaint) (w : Walker) : Diagnostic :=
  ⟨s.lineAt w.place, .syntactic c.message (s.labelAt w.place)⟩

/-- The token before an index. -/
def behind? (s : Sentence) : Nat → Option Token
  | 0 => none
  | place + 1 => s.tokens[place]?

/-- The diagnostic that blames the token taken last.  If there is none, it blames the next one. -/
def blameBehind (s : Sentence) (c : Complaint) (w : Walker) : Diagnostic :=
  match behind? s w.place with
  | some t => ⟨t.line, .syntactic c.message t.label⟩
  | none => w.blameNext s c

end Walker

open Walker

/-- Constructs may be opened when so many are open. -/
def Below (limit : Option Nat) (depth : Nat) : Prop := ∀ n ∈ limit, depth < n

/-- Over the sentence `s`, a walker who moves like this passes or fails, becomes another one and
leaves these marks. -/
inductive Walks (limit : Option Nat) (s : Sentence) :
    Move → Walker → Bool → Walker → List Mark → Prop where
  /-- Nothing is done. -/
  | pass (w : Walker) : Walks limit s .pass w true w []
  /-- The next token is taken. -/
  | advance {w : Walker} (h : w.place < s.tokens.size) :
    Walks limit s .advance w true w.onward [.took w.place]
  /-- There is no next token. -/
  | advanceAtEnd {w : Walker} (h : s.tokens.size ≤ w.place) : Walks limit s .advance w true w []
  /-- The walker steps back. -/
  | stepBack (w : Walker) : Walks limit s .stepBack w true w.back [.steppedBack w.place]
  /-- The next token is blamed. -/
  | fail {c : Complaint} (hc : c.blamesPrevious = false) (w : Walker) :
    Walks limit s (.fail c) w false (w.record (w.blameNext s c))
      (Mark.complaint c w.place (w.blameNext s c))
  /-- The token before is blamed. -/
  | failBehind {c : Complaint} (hc : c.blamesPrevious = true) (w : Walker) :
    Walks limit s (.fail c) w false (w.record (w.blameBehind s c))
      (.blamedBehind w.place :: Mark.complaint c w.place (w.blameBehind s c))
  /-- The next token is of one of the kinds. -/
  | next {ks : List Kind} {a b : Move} {w w' : Walker} {passed : Bool} {t : List Mark}
    (hs : w.sees s ks = true) (h : Walks limit s a w passed w' t) :
    Walks limit s (.ifNext ks a b) w passed w' t
  /-- The next token is of none of the kinds. -/
  | notNext {ks : List Kind} {a b : Move} {w w' : Walker} {passed : Bool} {t : List Mark}
    (hs : w.sees s ks = false) (h : Walks limit s b w passed w' t) :
    Walks limit s (.ifNext ks a b) w passed w' t
  /-- The next token is of one of the kinds, and is taken. -/
  | take {ks : List Kind} {a b : Move} {w w' : Walker} {passed : Bool} {t : List Mark}
    (hs : w.sees s ks = true) (h : Walks limit s a w.onward passed w' t) :
    Walks limit s (.ifTake ks a b) w passed w' (.took w.place :: t)
  /-- The next token is of none of the kinds, and is not taken. -/
  | notTake {ks : List Kind} {a b : Move} {w w' : Walker} {passed : Bool} {t : List Mark}
    (hs : w.sees s ks = false) (h : Walks limit s b w passed w' t) :
    Walks limit s (.ifTake ks a b) w passed w' t
  /-- There is no more token to take, and the loop ends. -/
  | whileStop {ks : List Kind} {a : Move} {w : Walker} (hs : w.sees s ks = false) :
    Walks limit s (.whileTake ks a) w true w []
  /-- A token is taken, and the loop goes round. -/
  | whileAgain {ks : List Kind} {a : Move} {w w' w'' : Walker} {passed : Bool} {t t' : List Mark}
    (hs : w.sees s ks = true) (h : Walks limit s a w.onward true w' t)
    (more : Walks limit s (.whileTake ks a) w' passed w'' t') :
    Walks limit s (.whileTake ks a) w passed w''
      (.took w.place :: t ++ .turned w.place w'.place :: t')
  /-- A token is taken, and the loop is broken. -/
  | whileBroken {ks : List Kind} {a : Move} {w w' : Walker} {t : List Mark}
    (hs : w.sees s ks = true) (h : Walks limit s a w.onward false w' t) :
    Walks limit s (.whileTake ks a) w false w' (.took w.place :: t)
  /-- The token of this kind has come, or the end, and the loop ends. -/
  | upToStop {k : Kind} {a : Move} {w : Walker}
    (hs : w.sees s [k] = true ∨ s.tokens.size ≤ w.place) : Walks limit s (.upTo k a) w true w []
  /-- The loop goes round. -/
  | upToAgain {k : Kind} {a : Move} {w w' w'' : Walker} {passed : Bool} {t t' : List Mark}
    (hs : ¬ (w.sees s [k] = true ∨ s.tokens.size ≤ w.place)) (h : Walks limit s a w true w' t)
    (more : Walks limit s (.upTo k a) w' passed w'' t') :
    Walks limit s (.upTo k a) w passed w'' (t ++ .turned w.place w'.place :: t')
  /-- The loop is broken. -/
  | upToBroken {k : Kind} {a : Move} {w w' : Walker} {t : List Mark}
    (hs : ¬ (w.sees s [k] = true ∨ s.tokens.size ≤ w.place)) (h : Walks limit s a w false w' t) :
    Walks limit s (.upTo k a) w false w' t
  /-- The first part passes, and the second one follows. -/
  | seq {a b : Move} {w w' w'' : Walker} {passed : Bool} {t t' : List Mark}
    (ha : Walks limit s a w true w' t) (hb : Walks limit s b w' passed w'' t') :
    Walks limit s (.seq a b) w passed w'' (t ++ t')
  /-- The first part fails. -/
  | seqFailed {a b : Move} {w w' : Walker} {t : List Mark} (ha : Walks limit s a w false w' t) :
    Walks limit s (.seq a b) w false w' t
  /-- There is nothing more to complain of. -/
  | echoPassed {a : Move} {c : Complaint} {w w' : Walker} {t : List Mark}
    (h : Walks limit s a w true w' t) : Walks limit s (.echo a c) w true w' t
  /-- A failure is complained of once more, where it stopped. -/
  | echoFailed {a : Move} {c : Complaint} {w w' : Walker} {t : List Mark}
    (h : Walks limit s a w false w' t) :
    Walks limit s (.echo a c) w false (w'.record (w'.blameNext s c))
      (t ++ Mark.complaint c w'.place (w'.blameNext s c))
  /-- A routine is called. -/
  | call {q : Routine} {w w' : Walker} {passed : Bool} {t : List Mark}
    (h : Walks limit s q.moves w passed w' t) :
    Walks limit s (.call q) w passed w' (.entered q w.depth :: t ++ [.left q])
  /-- No more constructs may be open, which is announced. -/
  | refused {k : Construct} {w : Walker} (hd : ¬ Below limit w.depth) :
    Walks limit s (.nested k) w false (w.record (w.blameNext s k.refusal))
      (.logged .limitReached :: Mark.complaint k.refusal w.place (w.blameNext s k.refusal))
  /-- A construct is opened, read and left. -/
  | nested {k : Construct} {w w' : Walker} {passed : Bool} {t : List Mark}
    (hd : Below limit w.depth) (h : Walks limit s (.call k.body) w.deeper passed w' t) :
    Walks limit s (.nested k) w passed w'.shallower
      (.opened k w.deeper.depth w.place :: t ++ [.closed w'.depth])

/-! ## Rounds -/

/-- From one index on, the tokens are passed over up to another one: to the end, to the one behind
a semicolon, or to one where a declaration is likely to begin. -/
inductive Skips (s : Sentence) : Nat → Nat → List Mark → Prop where
  /-- The sentence has ended. -/
  | atEnd {p : Nat} (h : s.tokens.size ≤ p) : Skips s p p []
  /-- This is the place. -/
  | stop {p : Nat} (h : p < s.tokens.size)
    (hs : s.kinds[p - 1]? = some (.sign .semicolon) ∨ s.kinds[p]?.any isAnchor = true) :
    Skips s p p [.lookedBack p]
  /-- This is not the place. -/
  | further {p q : Nat} {t : List Mark} (h : p < s.tokens.size)
    (hs : ¬ (s.kinds[p - 1]? = some (.sign .semicolon) ∨ s.kinds[p]?.any isAnchor = true))
    (more : Skips s (p + 1) q t) :
    Skips s p q (.lookedBack p :: .took p :: .turned p (p + 1) :: t)

/-- After a failure at one index, the next round begins at another.  Both are logged. -/
inductive Resumes (s : Sentence) : Nat → Nat → List Mark → Prop where
  /-- The token at which it failed is passed over. -/
  | inside {p q : Nat} {t : List Mark} (h : p < s.tokens.size) (more : Skips s (p + 1) q t) :
    Resumes s p q (.took p :: t ++ [.logged (.resynchronized p q)])
  /-- It failed at the end. -/
  | atEnd {p q : Nat} {t : List Mark} (h : s.tokens.size ≤ p) (more : Skips s p q t) :
    Resumes s p q (t ++ [.logged (.resynchronized p q)])

/-- Over the rest of the sentence, a walker becomes another one and leaves these marks. -/
inductive Traverses (limit : Option Nat) (s : Sentence) :
    Walker → Walker → List Mark → Prop where
  /-- The sentence has ended. -/
  | finished {w : Walker} (h : s.tokens.size ≤ w.place) : Traverses limit s w w []
  /-- A declaration is read, and the next round follows. -/
  | passed {w w' w'' : Walker} {t t' : List Mark} (h : w.place < s.tokens.size)
    (hd : Walks limit s (.call .declaration) w true w' t) (more : Traverses limit s w' w'' t') :
    Traverses limit s w w'' (t ++ .resumed w.place w'.place :: t')
  /-- A declaration fails, and the next round follows further on. -/
  | failed {w w' w'' : Walker} {p : Nat} {t t' t'' : List Mark} (h : w.place < s.tokens.size)
    (hd : Walks limit s (.call .declaration) w false w' t) (hr : Resumes s w'.place p t')
    (more : Traverses limit s { w' with place := p } w'' t'') :
    Traverses limit s w w'' (t ++ t' ++ .resumed w.place p :: t'')

/-- A walker at the front of a sentence. -/
def Walker.start : Walker := ⟨0, 0, []⟩

/-- Over a whole sentence, a walker comes to this and leaves these marks.  The number of tokens is
logged before the rounds, and behind them whether anything was recorded and how much. -/
inductive Recognizes (limit : Option Nat) (s : Sentence) : Walker → List Mark → Prop where
  /-- The rounds are played from the front. -/
  | mk {w : Walker} {t : List Mark} (h : Traverses limit s .start w t) :
    Recognizes limit s w (.logged (.reading s.tokens.size) :: t ++
      [.logged (.judged w.recorded.isEmpty w.recorded.length)])

/-! ## The counter is kept -/

variable {limit : Option Nat} {s : Sentence} {m : Move} {w w' w'' : Walker} {passed passed' : Bool}
variable {t t' : List Mark} {p q q' : Nat}

/-- As many constructs are open as there were. -/
theorem Walks.depth_eq (h : Walks limit s m w passed w' t) : w'.depth = w.depth := by
  induction h with
  | pass => rfl
  | advance => rfl
  | advanceAtEnd => rfl
  | stepBack => rfl
  | fail => rfl
  | failBehind => rfl
  | next _ _ ih => exact ih
  | notNext _ _ ih => exact ih
  | take _ _ ih => exact ih
  | notTake _ _ ih => exact ih
  | whileStop => rfl
  | whileAgain _ _ _ ih more => exact more.trans ih
  | whileBroken _ _ ih => exact ih
  | upToStop => rfl
  | upToAgain _ _ _ ih more => exact more.trans ih
  | upToBroken _ _ ih => exact ih
  | seq _ _ iha ihb => exact ihb.trans iha
  | seqFailed _ ih => exact ih
  | echoPassed _ ih => exact ih
  | echoFailed _ ih => exact ih
  | call _ ih => exact ih
  | refused => rfl
  | nested _ _ ih => exact congrArg (· - 1) ih

/-! ## Between the rounds -/

/-- Tells the marks that are left between two rounds: no routine is called, no construct is opened
and nothing is complained of. -/
def Mark.between : Mark → Bool
  | took _ | lookedBack _ | turned .. | logged _ => true
  | _ => false

theorem Skips.between (h : Skips s p q t) : ∀ a ∈ t, a.between = true := by
  induction h with
  | atEnd => exact List.forall_mem_nil _
  | stop => exact List.forall_mem_singleton.mpr rfl
  | further _ _ _ ih =>
    exact List.forall_mem_cons.mpr ⟨rfl, List.forall_mem_cons.mpr ⟨rfl,
      List.forall_mem_cons.mpr ⟨rfl, ih⟩⟩⟩

theorem Resumes.between (h : Resumes s p q t) : ∀ a ∈ t, a.between = true := by
  cases h with
  | inside _ more =>
    exact List.forall_mem_append.mpr ⟨List.forall_mem_cons.mpr ⟨rfl, more.between⟩,
      List.forall_mem_singleton.mpr rfl⟩
  | atEnd _ more =>
    exact List.forall_mem_append.mpr ⟨more.between, List.forall_mem_singleton.mpr rfl⟩

/-! ## A walk is determined by where it begins -/

theorem Walks.unique (h : Walks limit s m w passed w' t) (h' : Walks limit s m w passed' w'' t') :
    passed = passed' ∧ w' = w'' ∧ t = t' := by
  induction h generalizing passed' w'' t' with
  | pass => cases h'; exact ⟨rfl, rfl, rfl⟩
  | advance h =>
    cases h' with
    | advance => exact ⟨rfl, rfl, rfl⟩
    | advanceAtEnd he => exact absurd h (Nat.not_lt_of_le he)
  | advanceAtEnd he =>
    cases h' with
    | advance h => exact absurd h (Nat.not_lt_of_le he)
    | advanceAtEnd => exact ⟨rfl, rfl, rfl⟩
  | stepBack => cases h'; exact ⟨rfl, rfl, rfl⟩
  | fail hc =>
    cases h' with
    | fail => exact ⟨rfl, rfl, rfl⟩
    | failBehind hc' => cases hc.symm.trans hc'
  | failBehind hc =>
    cases h' with
    | fail hc' => cases hc.symm.trans hc'
    | failBehind => exact ⟨rfl, rfl, rfl⟩
  | next hs _ ih =>
    cases h' with
    | next _ h' => exact ih h'
    | notNext hn _ => cases hs.symm.trans hn
  | notNext hn _ ih =>
    cases h' with
    | next hs _ => cases hs.symm.trans hn
    | notNext _ h' => exact ih h'
  | take hs _ ih =>
    cases h' with
    | take _ h' =>
      obtain ⟨rfl, rfl, rfl⟩ := ih h'
      exact ⟨rfl, rfl, rfl⟩
    | notTake hn _ => cases hs.symm.trans hn
  | notTake hn _ ih =>
    cases h' with
    | take hs _ => cases hs.symm.trans hn
    | notTake _ h' => exact ih h'
  | whileStop hn =>
    cases h' with
    | whileStop => exact ⟨rfl, rfl, rfl⟩
    | whileAgain hs _ _ => cases hs.symm.trans hn
    | whileBroken hs _ => cases hs.symm.trans hn
  | whileAgain hs _ _ ih more =>
    cases h' with
    | whileStop hn => cases hs.symm.trans hn
    | whileAgain _ h' more' =>
      obtain ⟨_, rfl, rfl⟩ := ih h'
      obtain ⟨rfl, rfl, rfl⟩ := more more'
      exact ⟨rfl, rfl, rfl⟩
    | whileBroken _ h' => cases (ih h').1
  | whileBroken hs _ ih =>
    cases h' with
    | whileStop hn => cases hs.symm.trans hn
    | whileAgain _ h' _ => cases (ih h').1
    | whileBroken _ h' =>
      obtain ⟨_, rfl, rfl⟩ := ih h'
      exact ⟨rfl, rfl, rfl⟩
  | upToStop hs =>
    cases h' with
    | upToStop => exact ⟨rfl, rfl, rfl⟩
    | upToAgain hn _ _ => exact absurd hs hn
    | upToBroken hn _ => exact absurd hs hn
  | upToAgain hn _ _ ih more =>
    cases h' with
    | upToStop hs => exact absurd hs hn
    | upToAgain _ h' more' =>
      obtain ⟨_, rfl, rfl⟩ := ih h'
      obtain ⟨rfl, rfl, rfl⟩ := more more'
      exact ⟨rfl, rfl, rfl⟩
    | upToBroken _ h' => cases (ih h').1
  | upToBroken hn _ ih =>
    cases h' with
    | upToStop hs => exact absurd hs hn
    | upToAgain _ h' _ => cases (ih h').1
    | upToBroken _ h' => exact ih h'
  | seq _ _ iha ihb =>
    cases h' with
    | seq ha' hb' =>
      obtain ⟨_, rfl, rfl⟩ := iha ha'
      obtain ⟨rfl, rfl, rfl⟩ := ihb hb'
      exact ⟨rfl, rfl, rfl⟩
    | seqFailed ha' => cases (iha ha').1
  | seqFailed _ ih =>
    cases h' with
    | seq ha' _ => cases (ih ha').1
    | seqFailed ha' => exact ih ha'
  | echoPassed _ ih =>
    cases h' with
    | echoPassed h' => exact ih h'
    | echoFailed h' => cases (ih h').1
  | echoFailed _ ih =>
    cases h' with
    | echoPassed h' => cases (ih h').1
    | echoFailed h' =>
      obtain ⟨_, rfl, rfl⟩ := ih h'
      exact ⟨rfl, rfl, rfl⟩
  | call _ ih =>
    cases h' with
    | call h' =>
      obtain ⟨rfl, rfl, rfl⟩ := ih h'
      exact ⟨rfl, rfl, rfl⟩
  | refused hd =>
    cases h' with
    | refused => exact ⟨rfl, rfl, rfl⟩
    | nested hd' _ => exact absurd hd' hd
  | nested hd _ ih =>
    cases h' with
    | refused hd' => exact absurd hd hd'
    | nested _ h' =>
      obtain ⟨rfl, rfl, rfl⟩ := ih h'
      exact ⟨rfl, rfl, rfl⟩

theorem Skips.unique (h : Skips s p q t) (h' : Skips s p q' t') : q = q' ∧ t = t' := by
  induction h generalizing q' t' with
  | atEnd he =>
    cases h' with
    | atEnd => exact ⟨rfl, rfl⟩
    | stop h _ => exact absurd h (Nat.not_lt_of_le he)
    | further h _ _ => exact absurd h (Nat.not_lt_of_le he)
  | stop h hs =>
    cases h' with
    | atEnd he => exact absurd h (Nat.not_lt_of_le he)
    | stop => exact ⟨rfl, rfl⟩
    | further _ hn _ => exact absurd hs hn
  | further h hn _ ih =>
    cases h' with
    | atEnd he => exact absurd h (Nat.not_lt_of_le he)
    | stop _ hs => exact absurd hs hn
    | further _ _ more =>
      obtain ⟨rfl, rfl⟩ := ih more
      exact ⟨rfl, rfl⟩

theorem Resumes.unique (h : Resumes s p q t) (h' : Resumes s p q' t') : q = q' ∧ t = t' := by
  cases h with
  | inside h more =>
    cases h' with
    | inside _ more' =>
      obtain ⟨rfl, rfl⟩ := more.unique more'
      exact ⟨rfl, rfl⟩
    | atEnd he _ => exact absurd h (Nat.not_lt_of_le he)
  | atEnd he more =>
    cases h' with
    | inside h _ => exact absurd h (Nat.not_lt_of_le he)
    | atEnd _ more' =>
      obtain ⟨rfl, rfl⟩ := more.unique more'
      exact ⟨rfl, rfl⟩

theorem Traverses.unique (h : Traverses limit s w w' t) (h' : Traverses limit s w w'' t') :
    w' = w'' ∧ t = t' := by
  induction h generalizing w'' t' with
  | finished he =>
    cases h' with
    | finished => exact ⟨rfl, rfl⟩
    | passed h _ _ => exact absurd h (Nat.not_lt_of_le he)
    | failed h _ _ _ => exact absurd h (Nat.not_lt_of_le he)
  | passed h hd _ ih =>
    cases h' with
    | finished he => exact absurd h (Nat.not_lt_of_le he)
    | passed _ hd' more =>
      obtain ⟨_, rfl, rfl⟩ := hd.unique hd'
      obtain ⟨rfl, rfl⟩ := ih more
      exact ⟨rfl, rfl⟩
    | failed _ hd' _ _ => cases (hd.unique hd').1
  | failed h hd hr _ ih =>
    cases h' with
    | finished he => exact absurd h (Nat.not_lt_of_le he)
    | passed _ hd' _ => cases (hd.unique hd').1
    | failed _ hd' hr' more =>
      obtain ⟨_, rfl, rfl⟩ := hd.unique hd'
      obtain ⟨rfl, rfl⟩ := hr.unique hr'
      obtain ⟨rfl, rfl⟩ := ih more
      exact ⟨rfl, rfl⟩

end MiniC.Grammar
