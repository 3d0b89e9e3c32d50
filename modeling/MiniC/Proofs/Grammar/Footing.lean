import MiniC.Proofs.Grammar.Walking

/-!
# No false step

The marks of a walk are in order: each index is one that the walker may look at, the counter
keeps to the limit and goes down from above zero, and a construct is opened where it begins.
What stands behind an order like this is spread over the routines.  A routine that blames the
token before has taken one, or has only been called by routines that have.  A walker who steps
back has just taken an identifier.

A *footing* is what is known of a walker before a move, and `Footed` tells by the moves alone
what is known before each of them and what behind.  Every routine has a footing from which it
can be called, and `Routine.footed` checks its moves against those of the routines it calls.
`Walks.sure` then says by induction on the walk that the marks are in order.
`Traverses.inOrder` goes on to the rounds over a sentence.
-/

namespace MiniC.Grammar

/-! ## Marks in order -/

/-- The construct begins here, or with the kinds behind which it is opened before that. -/
def Construct.BeginsAt (s : Sentence) (place : Nat) (k : Construct) : Prop :=
  ∃ read rest, s.kinds = read ++ (k.opener ++ rest) ∧
    place = read.length + (k.opener.length - k.held.length)

/-- A mark is in order behind the one that was left before it. -/
def Mark.Fits (limit : Option Nat) (s : Sentence) (before : Option Mark) : Mark → Prop
  | took p => p < s.tokens.size
  | steppedBack p =>
    0 < p ∧ s.kinds[p - 1]? = some .identifier ∧ before = some (.took (p - 1))
  | lookedBack p => 1 ≤ p ∧ p ≤ s.tokens.size
  | blamedBehind p => 0 < p ∧ p ≤ s.tokens.size
  | opened k depth p => (∀ n ∈ limit, depth ≤ n) ∧ k.BeginsAt s p
  | closed depth => 0 < depth
  | entered _ depth => ∀ n ∈ limit, depth ≤ n
  | turned p next => p < next ∧ next ≤ s.tokens.size
  | resumed p next => p < next ∧ next ≤ s.tokens.size
  -- without a limit there is no complaint that no level is left
  | complained c _ => limit = none → c.isTooDeep = false
  | left _ | logged _ => True

/-- Marks are in order behind those of `u`. -/
def InOrder (limit : Option Nat) (s : Sentence) (u t : List Mark) : Prop :=
  ∀ v m v', t = v ++ m :: v' → m.Fits limit s (u ++ v).getLast?

section

variable {limit : Option Nat} {s : Sentence} {u t t' : List Mark} {m : Mark}

theorem inOrder_nil : InOrder limit s u [] := by
  intro v m v' h
  cases v <;> cases h

theorem inOrder_singleton (h : m.Fits limit s u.getLast?) : InOrder limit s u [m] := by
  intro v m' v' he
  obtain ⟨rfl, he⟩ | ⟨_, _, he⟩ := List.cons_eq_append_iff.mp he
  · obtain ⟨rfl, _⟩ := List.cons.inj he
    rwa [List.append_nil]
  · cases (List.append_eq_nil_iff.mp he.symm).2

theorem InOrder.append (h : InOrder limit s u t) (h' : InOrder limit s (u ++ t) t') :
    InOrder limit s u (t ++ t') := by
  intro v m v' he
  rcases List.append_eq_append_iff.mp he with ⟨w, rfl, later⟩ | ⟨w, rfl, earlier⟩
  · have fits := h' w m v' later
    rwa [List.append_assoc] at fits
  · cases w with
    | nil =>
      have fits := h' [] m v' earlier.symm
      rwa [List.append_nil, List.append_nil] at fits
    | cons m' w =>
      obtain ⟨rfl, _⟩ := List.cons.inj earlier
      exact h v m w rfl

theorem InOrder.cons (h : m.Fits limit s u.getLast?) (h' : InOrder limit s (u ++ [m]) t) :
    InOrder limit s u (m :: t) := (inOrder_singleton h).append h'

/-- A complaint is in order if it is made with a limit or is not that no level is left. -/
theorem inOrder_complaint {c : Complaint} {p : Nat} {d : Diagnostic}
    (h : limit = none → c.isTooDeep = false) : InOrder limit s u (Mark.complaint c p d) :=
  .cons h (inOrder_singleton trivial)

theorem InOrder.fits_of_mem (h : InOrder limit s u t) (hm : m ∈ t) :
    ∃ before, m.Fits limit s before := by
  obtain ⟨v, v', rfl⟩ := List.append_of_mem hm
  exact ⟨_, h v m v' rfl⟩

end

/-! ## Footings -/

/-- What is seen is a token of the sentence. -/
theorem Walker.exists_of_sees {s : Sentence} {w : Walker} {ks : List Kind}
    (h : w.sees s ks = true) : ∃ k ∈ ks, s.kinds[w.place]? = some k := by
  obtain ⟨k, hk, seen⟩ := (Option.any_eq_true _ _).mp h
  exact ⟨k, List.contains_iff_mem.mp seen, hk⟩

theorem Walker.lt_of_sees {s : Sentence} {w : Walker} {ks : List Kind}
    (h : w.sees s ks = true) : w.place < s.tokens.size := by
  obtain ⟨k, _, hk⟩ := exists_of_sees h
  rw [← Sentence.length_kinds]
  exact (List.getElem?_eq_some_iff.mp hk).1

/-- What is seen is what the kinds ahead begin with. -/
theorem Walker.exists_drop_of_sees {s : Sentence} {w : Walker} {ks : List Kind}
    (h : w.sees s ks = true) :
    ∃ k ∈ ks, s.kinds.drop w.place = k :: s.kinds.drop (w.place + 1) := by
  obtain ⟨k, hk, seen⟩ := exists_of_sees h
  obtain ⟨hp, rfl⟩ := List.getElem?_eq_some_iff.mp seen
  exact ⟨_, hk, List.drop_eq_getElem_cons hp⟩

/-- What is known of a walker. -/
inductive Footing where
  /-- Nothing. -/
  | anywhere
  /-- A token lies behind. -/
  | inside
  /-- The identifier that lies behind was taken just now. -/
  | behindName
  /-- This construct begins here. -/
  | opening (k : Construct)
deriving DecidableEq, Repr

namespace Footing

/-- Who knows the one knows the other. -/
def gives : Footing → Footing → Bool
  | _, anywhere | inside, inside | behindName, inside | behindName, behindName => true
  | opening k, opening k' => k == k'
  | _, _ => false

/-- What is known behind a token of one of these kinds. -/
def taking (ks : List Kind) (f : Footing) : Footing :=
  if ks = [.identifier] then behindName
  else if ks = [.sign .assign] ∧ f = behindName then opening .rightHandSide
  else inside

/-- What is known before a token of one of these kinds. -/
def seeing (ks : List Kind) (f : Footing) : Footing :=
  if ks = [.sign .leftParen] then opening .parenthesis
  else if ks = [.sign .leftBrace] then opening .block
  else if ks = [.keyword .kwIf] then opening .conditional
  else f

/-- What it is that is known, at an index and behind these marks. -/
def Holds (s : Sentence) (place : Nat) (u : List Mark) : Footing → Prop
  | anywhere => True
  | inside => 0 < place
  | behindName =>
    0 < place ∧ s.kinds[place - 1]? = some .identifier ∧ u.getLast? = some (.took (place - 1))
  | opening k => k.BeginsAt s place

variable {s : Sentence} {w : Walker} {place : Nat} {u : List Mark} {f g : Footing}
variable {ks : List Kind}

theorem Holds.mono (h : f.Holds s place u) (hg : f.gives g = true) : g.Holds s place u := by
  cases g with
  | anywhere => trivial
  | inside =>
    cases f with
    | inside => exact h
    | behindName => exact h.1
    | _ => cases hg
  | behindName =>
    cases f with
    | behindName => exact h
    | _ => cases hg
  | opening k =>
    cases f with
    | opening k' =>
      obtain rfl : k' = k := eq_of_beq hg
      exact h
    | _ => cases hg

/-- An identifier that was taken just now is known. -/
theorem holds_behindName (h : w.sees s [.identifier] = true) :
    behindName.Holds s w.onward.place (u ++ [.took w.place]) := by
  obtain ⟨k, hk, seen⟩ := Walker.exists_of_sees h
  rw [List.mem_singleton.mp hk] at seen
  exact ⟨Nat.succ_pos _, seen, List.getLast?_concat⟩

/-- Behind an identifier and a `=`, a right-hand side is opened. -/
theorem holds_rightHandSide (h : w.sees s [.sign .assign] = true)
    (hf : behindName.Holds s w.place u) :
    (opening .rightHandSide).Holds s w.onward.place (u ++ [.took w.place]) := by
  obtain ⟨k, hk, assign⟩ := Walker.exists_drop_of_sees h
  rw [List.mem_singleton.mp hk] at assign
  obtain ⟨behind, name, _⟩ := hf
  obtain ⟨hp, name⟩ := List.getElem?_eq_some_iff.mp name
  have both : s.kinds.drop (w.place - 1) =
      .identifier :: .sign .assign :: s.kinds.drop (w.place + 1) := by
    rw [List.drop_eq_getElem_cons hp, name, Nat.sub_add_cancel behind, assign]
  refine ⟨s.kinds.take (w.place - 1), s.kinds.drop (w.place + 1), ?_, ?_⟩
  · exact (List.take_append_drop (w.place - 1) _).symm.trans (congrArg _ both)
  · rw [List.length_take_of_le (Nat.le_of_lt hp)]
    show w.place + 1 = w.place - 1 + 2
    omega

/-- What was taken just now is known. -/
theorem holds_taking (h : w.sees s ks = true) (hf : f.Holds s w.place u) :
    (f.taking ks).Holds s w.onward.place (u ++ [.took w.place]) := by
  unfold taking
  split
  · next name =>
    subst name
    exact holds_behindName h
  · split
    · next assign =>
      obtain ⟨rfl, rfl⟩ := assign
      exact holds_rightHandSide h hf
    · exact Nat.succ_pos w.place

/-- If a construct begins with one kind and that is seen, it begins here. -/
theorem holds_opening {k : Construct} {first : Kind} (hk : k.opener = [first])
    (hh : k.held = [first]) (h : w.sees s [first] = true) : (opening k).Holds s w.place u := by
  have inside : w.place ≤ s.kinds.length := by
    rw [Sentence.length_kinds]
    exact Nat.le_of_lt (Walker.lt_of_sees h)
  obtain ⟨k', hk', seen⟩ := Walker.exists_drop_of_sees h
  rw [List.mem_singleton.mp hk'] at seen
  refine ⟨s.kinds.take w.place, s.kinds.drop (w.place + 1), ?_, ?_⟩
  · rw [hk, List.singleton_append, ← seen, List.take_append_drop]
  · rw [hk, hh, List.length_take_of_le inside]
    rfl

/-- What is seen is known. -/
theorem holds_seeing (h : w.sees s ks = true) (hf : f.Holds s w.place u) :
    (f.seeing ks).Holds s w.place u := by
  unfold seeing
  split
  · next he =>
    subst he
    exact holds_opening rfl rfl h
  · split
    · next he =>
      subst he
      exact holds_opening rfl rfl h
    · split
      · next he =>
        subst he
        exact holds_opening rfl rfl h
      · exact hf

end Footing

/-! ## Moves that keep their footing -/

/-- From where a routine can be called. -/
def Routine.footing : Routine → Footing
  | returned | variableDeclaration => .inside
  | _ => .anywhere

/-- If the one is known before the move, its marks are in order, and the other one is known
behind it. -/
inductive Footed : Footing → Move → Footing → Prop where
  /-- Nothing is done. -/
  | pass {f g : Footing} (h : f.gives g = true) : Footed f .pass g
  /-- At the end no token is taken. -/
  | advance : Footed .anywhere .advance .anywhere
  /-- Only an identifier is handed back. -/
  | stepBack : Footed .behindName .stepBack .anywhere
  /-- The token before is not blamed, or there is one. -/
  | fail {f g : Footing} {c : Complaint} (hc : c.isTooDeep = false)
    (h : c.blamesPrevious = true → f.gives .inside = true) : Footed f (.fail c) g
  /-- A token is seen, or none is. -/
  | ifNext {f g : Footing} {ks : List Kind} {a b : Move} (ha : Footed (f.seeing ks) a g)
    (hb : Footed f b g) : Footed f (.ifNext ks a b) g
  /-- A token is taken, or none is. -/
  | ifTake {f g : Footing} {ks : List Kind} {a b : Move} (ha : Footed (f.taking ks) a g)
    (hb : Footed f b g) : Footed f (.ifTake ks a b) g
  /-- Tokens are taken. -/
  | whileTake {ks : List Kind} : Footed .anywhere (.whileTake ks .pass) .anywhere
  /-- Tokens are taken, each with a call behind it. -/
  | whileCall {ks : List Kind} {q : Routine} (hq : q.footing = .anywhere) :
    Footed .inside (.whileTake ks (.call q)) .inside
  /-- A routine is called again and again. -/
  | upTo {k : Kind} {q : Routine} (hq : q.footing = .anywhere) :
    Footed .anywhere (.upTo k (.call q)) .anywhere
  /-- One is known between the parts. -/
  | seq {f g i : Footing} {a b : Move} (ha : Footed f a i) (hb : Footed i b g) :
    Footed f (.seq a b) g
  /-- A failure is complained of where it stopped. -/
  | echo {f g : Footing} {a : Move} {c : Complaint} (hc : c.isTooDeep = false)
    (h : Footed f a g) : Footed f (.echo a c) g
  /-- Behind a call a token has been taken. -/
  | call {f : Footing} {q : Routine} (h : f.gives q.footing = true) : Footed f (.call q) .inside
  /-- A construct is opened where it begins. -/
  | nested {f : Footing} {k : Construct} (h : f.gives (.opening k) = true) :
    Footed f (.nested k) .inside

theorem Footed.expect {f : Footing} {k : Kind} {c : Complaint} (hc : c.isTooDeep = false)
    (hk : (f.taking [k]).gives .inside = true)
    (h : c.blamesPrevious = true → f.gives .inside = true) : Footed f (.expect k c) .inside :=
  .ifTake (.pass hk) (.fail hc h)

theorem Footed.callAnywhere {q : Routine} (hq : q.footing = .anywhere) :
    Footed .anywhere (.call q) .inside := .call (by rw [hq]; rfl)

/-- The moves of a routine keep their footing. -/
theorem Routine.footed : ∀ q : Routine, Footed q.footing q.moves .inside
  | rank .expression =>
    .ifTake (.ifTake (.echo rfl (.nested rfl)) (.seq .stepBack (.call rfl))) (.call rfl)
  | rank (.level _) => .seq (.call rfl) (.whileCall rfl)
  | rank .unary => .seq .whileTake (.call rfl)
  | rank .operand => .ifTake (.pass rfl) (.ifNext (.nested rfl) (.fail rfl nofun))
  | parenthesized => .seq .advance (.seq (.call rfl) (.expect rfl rfl nofun))
  | declaration =>
    .ifTake (.seq (.expect rfl rfl fun _ => rfl) (.ifTake (.call rfl) (.call rfl))) (.call rfl)
  | functionDeclaration => .seq (.expect rfl rfl nofun) (.echo rfl (.call rfl))
  | variableDeclaration =>
    .seq (.ifTake (.echo rfl (.call rfl)) (.pass rfl)) (.expect rfl rfl fun _ => rfl)
  | statement =>
    .ifNext (.nested rfl) (.ifNext (.nested rfl) (.ifTake (.call rfl) (.call rfl)))
  | block => .seq .advance (.seq (.upTo rfl) (.expect rfl rfl nofun))
  | conditional =>
    .seq .advance (.seq (.seq (.expect rfl rfl nofun)
      (.seq (.call rfl) (.expect rfl rfl nofun)))
      (.seq (.call rfl) (.ifTake (.call rfl) (.pass rfl))))
  | returned => .seq (.ifNext (.pass rfl) (.call rfl)) (.expect rfl rfl fun _ => rfl)
  | simple => .seq (.call rfl) (.expect rfl rfl fun _ => rfl)

/-- The routine of a construct can be called from anywhere. -/
theorem Construct.footing_body (k : Construct) : k.body.footing = .anywhere := by
  cases k <;> rfl

/-! ## A walk on a footing -/

/-- Behind the marks `u`, a walk leaves marks in order and does not leave the sentence.  Something
is known behind it if it passes. -/
structure Sure (limit : Option Nat) (s : Sentence) (u : List Mark) (g : Footing) (w : Walker)
    (passed : Bool) (w' : Walker) (t : List Mark) : Prop where
  /-- The marks are in order. -/
  inOrder : InOrder limit s u t
  /-- The walker is not beyond the end. -/
  place : w'.place ≤ s.tokens.size
  /-- This is known behind a match. -/
  holds : passed = true → g.Holds s w'.place (u ++ t)

section

variable {limit : Option Nat} {s : Sentence} {u t t' : List Mark} {f g : Footing} {m : Move}
variable {q : Routine} {w w' w'' : Walker} {passed : Bool} {p : Nat}

/-- If a move does nothing, the same is known as before. -/
theorem Sure.nothing (hp : w.place ≤ s.tokens.size) (h : g.Holds s w.place u) :
    Sure limit s u g w passed w [] :=
  ⟨inOrder_nil, hp, fun _ => by rwa [List.append_nil]⟩

/-- Of a failure nothing needs to be known. -/
theorem Sure.failed (h : Sure limit s u f w false w' t) : Sure limit s u g w false w' t :=
  ⟨h.inOrder, h.place, nofun⟩

theorem Sure.seq (h : Sure limit s u f w true w' t)
    (h' : Sure limit s (u ++ t) g w' passed w'' t') : Sure limit s u g w passed w'' (t ++ t') :=
  ⟨h.inOrder.append h'.inOrder, h'.place,
    fun passes => List.append_assoc u t t' ▸ h'.holds passes⟩

/-- Behind the taking of a token. -/
theorem Sure.took (hp : w.place < s.tokens.size)
    (h : Sure limit s (u ++ [.took w.place]) g w.onward passed w' t) :
    Sure limit s u g w passed w' (.took w.place :: t) :=
  ⟨.cons hp h.inOrder, h.place,
    fun passes => List.append_cons u _ t ▸ h.holds passes⟩

/-- Behind a round of a loop that has gone on. -/
theorem Sure.turned (hp : p < w.place ∧ w.place ≤ s.tokens.size)
    (h : Sure limit s (u ++ [.turned p w.place]) g w passed w' t) :
    Sure limit s u g w passed w' (.turned p w.place :: t) :=
  ⟨.cons hp h.inOrder, h.place,
    fun passes => List.append_cons u _ t ▸ h.holds passes⟩

/-- Around a call. -/
theorem Sure.called (hd : ∀ n ∈ limit, w.depth ≤ n)
    (h : Sure limit s (u ++ [.entered q w.depth]) .inside w passed w' t) :
    Sure limit s u .inside w passed w' (.entered q w.depth :: t ++ [.left q]) := by
  have entered : InOrder limit s u (.entered q w.depth :: t) := .cons hd h.inOrder
  exact ⟨entered.append (inOrder_singleton trivial), h.place, h.holds⟩

/-- Around a construct that begins here, the counter comes down from above zero. -/
theorem Sure.nested {k : Construct} (hd : ∀ n ∈ limit, w.deeper.depth ≤ n)
    (hk : k.BeginsAt s w.place) (closed : 0 < w'.depth)
    (h : Sure limit s (u ++ [.opened k w.deeper.depth w.place]) .inside w.deeper passed w' t) :
    Sure limit s u .inside w passed w'.shallower
      (.opened k w.deeper.depth w.place :: t ++ [.closed w'.depth]) := by
  have opened : InOrder limit s u (.opened k w.deeper.depth w.place :: t) :=
    .cons ⟨hd, hk⟩ h.inOrder
  exact ⟨opened.append (inOrder_singleton closed), h.place, h.holds⟩

/-- Of a routine it is known where it can be called from, whatever the marks are. -/
theorem Routine.holds_footing {u u' : List Mark} (h : q.footing.Holds s p u) :
    q.footing.Holds s p u' := by
  cases q <;> exact h

/-- On its footing a walk is sure. -/
theorem Walks.sure (h : Walks limit s m w passed w' t) (hf : Footed f m g)
    (hp : w.place ≤ s.tokens.size) (hd : ∀ n ∈ limit, w.depth ≤ n) (hw : f.Holds s w.place u) :
    Sure limit s u g w passed w' t := by
  induction h generalizing f g u with
  | pass =>
    cases hf with
    | pass hg => exact .nothing hp (hw.mono hg)
  | advance h =>
    cases hf with
    | advance => exact .took h (.nothing h trivial)
  | advanceAtEnd =>
    cases hf with
    | advance => exact .nothing hp trivial
  | stepBack =>
    cases hf with
    | stepBack =>
      exact ⟨inOrder_singleton hw, Nat.le_trans (Nat.sub_le _ _) hp, fun _ => trivial⟩
  | fail =>
    cases hf with
    | fail hc _ => exact ⟨inOrder_complaint fun _ => hc, hp, nofun⟩
  | failBehind blame w =>
    cases hf with
    | fail hc hg =>
      have behind : Footing.inside.Holds s w.place u := hw.mono (hg blame)
      exact ⟨.cons ⟨behind, hp⟩ (inOrder_complaint fun _ => hc), hp, nofun⟩
  | next hs _ ih =>
    cases hf with
    | ifNext ha _ => exact ih ha hp hd (Footing.holds_seeing hs hw)
  | notNext _ _ ih =>
    cases hf with
    | ifNext _ hb => exact ih hb hp hd hw
  | take hs _ ih =>
    cases hf with
    | ifTake ha _ =>
      have inside := Walker.lt_of_sees hs
      exact .took inside (ih ha inside hd (Footing.holds_taking hs hw))
  | notTake _ _ ih =>
    cases hf with
    | ifTake _ hb => exact ih hb hp hd hw
  | whileStop =>
    cases hf with
    | whileTake => exact .nothing hp trivial
    | whileCall => exact .nothing hp hw
  | whileAgain hs h _ ih more =>
    have inside := Walker.lt_of_sees hs
    cases hf with
    | whileTake =>
      have first := Sure.took (u := u) inside
        (ih (f := .anywhere) (g := .anywhere) (.pass rfl) inside hd trivial)
      cases h
      refine first.seq (.turned ⟨Nat.lt_succ_self _, inside⟩ ?_)
      exact more .whileTake inside hd trivial
    | whileCall hq =>
      have first := Sure.took (u := u) inside (ih (.callAnywhere hq) inside hd trivial)
      obtain ⟨onward, _, within⟩ := h.call_within inside hd
      refine first.seq (.turned ⟨onward, within⟩ ?_)
      exact more (.whileCall hq) within (h.depth_eq ▸ hd)
        (Nat.lt_of_lt_of_le (Nat.succ_pos _) onward)
  | whileBroken hs h ih =>
    have inside := Walker.lt_of_sees hs
    cases hf with
    | whileTake => cases h
    | whileCall hq =>
      exact .took inside (ih (.callAnywhere hq) inside hd trivial)
  | upToStop =>
    cases hf with
    | upTo => exact .nothing hp trivial
  | upToAgain _ h _ ih more =>
    cases hf with
    | upTo hq =>
      have first := ih (u := u) (.callAnywhere hq) hp hd hw
      obtain ⟨_, onward, within⟩ := h.call_within hp hd
      refine first.seq (.turned ⟨onward rfl, within⟩ ?_)
      exact more (.upTo hq) within (h.depth_eq ▸ hd) trivial
  | upToBroken _ _ ih =>
    cases hf with
    | upTo hq =>
      exact (ih (.callAnywhere hq) hp hd hw).failed
  | seq h _ iha ihb =>
    cases hf with
    | seq ha hb =>
      have first := iha ha hp hd hw
      exact first.seq (ihb hb first.place (h.depth_eq ▸ hd) (first.holds rfl))
  | seqFailed _ ih =>
    cases hf with
    | seq ha _ => exact (ih ha hp hd hw).failed
  | echoPassed _ ih =>
    cases hf with
    | echo _ ha => exact ih ha hp hd hw
  | echoFailed _ ih =>
    cases hf with
    | echo hc ha =>
      have inner := ih (u := u) ha hp hd hw
      exact ⟨inner.inOrder.append (inOrder_complaint fun _ => hc), inner.place, nofun⟩
  | call _ ih =>
    cases hf with
    | call hq =>
      exact .called hd (ih (Routine.footed _) hp hd (Routine.holds_footing (hw.mono hq)))
  | refused hb =>
    refine ⟨.cons trivial (inOrder_complaint fun free => absurd ?_ hb), hp, nofun⟩
    subst free
    exact nofun
  | @nested k _ _ _ _ deeper h ih =>
    cases hf with
    | nested hk =>
      have above := Nat.lt_of_lt_of_eq (Nat.succ_pos _) h.depth_eq.symm
      exact .nested deeper (hw.mono hk) above
        (ih (.callAnywhere k.footing_body) hp deeper trivial)

/-! ## The rounds over a sentence -/

/-- On the way to where the next round begins, a token lies behind. -/
theorem Skips.inOrder {p' : Nat} (h : Skips s p p' t) (hp : 1 ≤ p) (hs : p ≤ s.tokens.size) :
    InOrder limit s u t ∧ p ≤ p' ∧ p' ≤ s.tokens.size := by
  induction h generalizing u with
  | atEnd => exact ⟨inOrder_nil, Nat.le_refl _, hs⟩
  | stop h _ => exact ⟨inOrder_singleton ⟨hp, hs⟩, Nat.le_refl _, hs⟩
  | further h _ _ ih =>
    obtain ⟨more, onward, within⟩ := ih (Nat.succ_pos _) h
    exact ⟨.cons ⟨hp, hs⟩ (.cons h (.cons ⟨Nat.lt_succ_self _, h⟩ more)),
      Nat.le_of_succ_le onward, within⟩

/-- A round that fails before the end goes on by one token at least. -/
theorem Resumes.inOrder {p' : Nat} (h : Resumes s p p' t) (hs : p ≤ s.tokens.size) :
    InOrder limit s u t ∧ (p < s.tokens.size → p < p') ∧ p ≤ p' ∧ p' ≤ s.tokens.size := by
  cases h with
  | inside h more =>
    obtain ⟨more, onward, within⟩ := more.inOrder (u := u ++ [.took p]) (Nat.succ_pos p) h
    have taken : InOrder limit s u (.took p :: _) := .cons h more
    exact ⟨taken.append (inOrder_singleton trivial), fun _ => onward, Nat.le_of_succ_le onward,
      within⟩
  | atEnd he more =>
    cases more with
    | atEnd =>
      exact ⟨inOrder_singleton trivial, fun h => absurd h (Nat.not_lt_of_le he), Nat.le_refl _, hs⟩
    | stop h _ => exact absurd h (Nat.not_lt_of_le he)
    | further h _ _ => exact absurd h (Nat.not_lt_of_le he)

/-- Over the rounds, the marks are in order. -/
theorem Traverses.inOrder (h : Traverses limit s w w' t) (hp : w.place ≤ s.tokens.size)
    (hd : ∀ n ∈ limit, w.depth ≤ n) : InOrder limit s u t := by
  induction h generalizing u with
  | finished => exact inOrder_nil
  | passed _ walks _ ih =>
    have sure := walks.sure (u := u) (f := .anywhere) (.call rfl) hp hd trivial
    obtain ⟨_, onward, within⟩ := walks.call_within hp hd
    exact sure.inOrder.append
      (.cons ⟨onward rfl, within⟩ (ih within (walks.depth_eq ▸ hd)))
  | @failed w w' _ p _ _ _ begun walks resumes _ ih =>
    have sure := walks.sure (u := u) (f := .anywhere) (.call rfl) hp hd trivial
    obtain ⟨least, _, within⟩ := walks.call_within hp hd
    obtain ⟨between, onward, behind, within'⟩ := resumes.inOrder within
    have further : w.place < p := by
      rcases Nat.lt_or_ge w'.place s.tokens.size with inside | atEnd
      · exact Nat.lt_of_le_of_lt least (onward inside)
      · exact Nat.lt_of_lt_of_le begun (Nat.le_trans atEnd behind)
    exact (sure.inOrder.append between).append
      (.cons ⟨further, within'⟩ (ih within' (walks.depth_eq ▸ hd)))

/-- From the front of the sentence, every mark is in order. -/
theorem Traverses.inOrder_start (h : Traverses limit s .start w t) : InOrder limit s [] t :=
  h.inOrder (Nat.zero_le _) fun n _ => Nat.zero_le n

end

end MiniC.Grammar
