import MiniC.Proofs.Grammar.Walking

/-!
# Readers in a sentence

A *standing* is all there is to a reader in the middle of a sentence: the sentence, the token
that comes next, how many constructs are open, and what has been recorded.  A rule leads from
a standing to another one, which is `Standing.run`.  Moves lead there as well when a walker makes
them one by one and counts the constructs that it opens and leaves, which is `Standing.Reaches`.

`reaches_iff` ties the two together: moves that do what a rule does lead where the rule leads,
and nowhere else.
-/

namespace MiniC

open Grammar (Covers Move Outcome Rule Walker Walks nestingLimit)

/-- A reader in the middle of a sentence. -/
@[ext]
structure Standing where
  /-- The sentence. -/
  sentence : Sentence
  /-- The index of the token that comes next. -/
  cursor : Nat
  /-- How many constructs are open. -/
  opened : Nat
  /-- What has been recorded. -/
  diagnostics : Collector
  /-- The reader is not beyond the end of the sentence. -/
  cursor_le : cursor ≤ sentence.tokens.size
  /-- No more constructs are open than may be. -/
  opened_le : opened ≤ nestingLimit

namespace Standing

/-- The kinds that lie ahead. -/
def ahead (x : Standing) : List Kind := x.sentence.kinds.drop x.cursor

/-- How many levels are left. -/
def room (x : Standing) : Nat := nestingLimit - x.opened

/-- Where a reader stands when it has come to an outcome. -/
def after (x : Standing) (o : Outcome) : Standing :=
  { x with
    cursor := x.sentence.position o.rest
    diagnostics := x.diagnostics ++ .ofList (o.reports.map x.sentence.diagnose)
    cursor_le := Nat.sub_le _ _ }

/-- Try a rule with the levels that are left.  It passes or fails, and leads somewhere. -/
def run (x : Standing) (rule : Nat → Rule) : Bool × Standing :=
  (((rule x.room).run x.ahead).passed, x.after ((rule x.room).run x.ahead))

/-- The walker who stands here. -/
def walker (x : Standing) : Walker := ⟨x.cursor, x.opened, x.diagnostics.toList⟩

/-- Who moves like this passes or fails, and reaches the standing `y`. -/
structure Reaches (m : Move) (x : Standing) (passed : Bool) (y : Standing) : Prop where
  /-- The sentence is the same. -/
  sentence : y.sentence = x.sentence
  /-- The tokens are taken, the constructs are counted, and what is complained of is recorded. -/
  walks : ∃ t, Walks (some nestingLimit) x.sentence m x.walker passed y.walker t

variable {x y : Standing} {m : Move} {f : List Kind → Outcome} {rule : Nat → Rule} {passed : Bool}

/-- The levels that are left are those up to the limit. -/
theorem covers (x : Standing) : Covers (some nestingLimit) x.opened x.room x.ahead :=
  (Nat.add_sub_of_le x.opened_le).symm

theorem walker_after (x : Standing) (o : Outcome) :
    (x.after o).walker = x.walker.after x.sentence o := by
  simp [walker, after, Walker.after]

/-- In one sentence, nobody else stands where the same walker does. -/
theorem walker_inj (hs : y.sentence = x.sentence) : y.walker = x.walker ↔ y = x := by
  constructor
  · intro same
    obtain ⟨cursor, opened, recorded⟩ := Walker.mk.inj same
    exact Standing.ext hs cursor opened (Collector.toList_inj.mp recorded)
  · rintro rfl
    rfl

/-- Moves that do what is done here lead to where it comes, and nowhere else. -/
theorem walks_iff (h : m.Does (some nestingLimit) x.sentence x.opened x.room f) {w : Walker} :
    (∃ t, Walks (some nestingLimit) x.sentence m x.walker passed w t) ↔
      passed = (f x.ahead).passed ∧ w = (x.after (f x.ahead)).walker := by
  have does : m.Does (some nestingLimit) x.sentence x.walker.depth x.room f := h
  rw [walker_after]
  exact does.walks_iff x.covers x.cursor_le

/-- Moves that do what a rule does lead where the rule leads. -/
theorem reaches_iff
    (h : m.Does (some nestingLimit) x.sentence x.opened x.room (rule x.room).run) :
    Reaches m x passed y ↔ x.run rule = (passed, y) := by
  constructor
  · rintro ⟨sentence, walks⟩
    obtain ⟨rfl, same⟩ := (walks_iff h).mp walks
    exact Prod.ext rfl ((walker_inj (x := x.after _) sentence).mp same).symm
  · rintro ⟨rfl, rfl⟩
    exact ⟨rfl, (walks_iff h).mpr ⟨rfl, rfl⟩⟩

end Standing

end MiniC
