import MiniC.Proofs.Grammar.Locality
import MiniC.Proofs.Standing

/-!
# The horizon of a declaration

A declaration sees nothing behind the token at which it stops, and nothing before the one at
which it began.  So what it comes to is settled by the tokens between the two, those at the
borders included, and if it stops at the end of the sentence, by the line of the end.

The kinds are dealt with by `declaration_alike`: a rule does alike on rows that go on alike up
to where it stops.  The diagnostics quote tokens besides, and the quoted token is the one at
which the declaration stops or the one before, which it has read (`declaration_looksBack`).

`declaration_horizon` says this of readers, wherever they stand.
-/

namespace MiniC

open Grammar (Complaint Outcome Report Rule declaration)

namespace Sentence

/-- From the place `p` to the place `q`, two sentences have the same tokens.  If one of them
ends there, so does the other, on the same line. -/
structure AgreesOn (s s' : Sentence) (p q : Nat) : Prop where
  /-- The tokens are the same. -/
  tokens : ∀ i, p ≤ i → i ≤ q → s.tokens[i]? = s'.tokens[i]?
  /-- The end is the same. -/
  atEnd : q = s.tokens.size → s'.tokens.size = q ∧ s'.endLine = s.endLine

theorem getElem?_kinds (s : Sentence) (i : Nat) : s.kinds[i]? = s.tokens[i]?.map Token.kind := by
  rw [kinds, List.getElem?_map, Array.getElem?_toList]

/-- The kinds up to a place and those behind it. -/
theorem drop_kinds (s : Sentence) {p q : Nat} (h : p ≤ q) :
    s.kinds.drop p = (s.kinds.drop p).take (q - p) ++ s.kinds.drop q := by
  have whole := List.take_append_drop (q - p) (s.kinds.drop p)
  rw [List.drop_drop, Nat.add_sub_of_le h] at whole
  exact whole.symm

namespace AgreesOn

variable {s s' : Sentence} {p q : Nat}

theorem getElem?_kinds (h : s.AgreesOn s' p q) {i : Nat} (hp : p ≤ i) (hq : i ≤ q) :
    s.kinds[i]? = s'.kinds[i]? := by
  rw [Sentence.getElem?_kinds, Sentence.getElem?_kinds, h.tokens i hp hq]

/-- The same kinds are between the two places. -/
theorem take_drop_kinds (h : s.AgreesOn s' p q) :
    (s.kinds.drop p).take (q - p) = (s'.kinds.drop p).take (q - p) := by
  refine List.ext_getElem? fun i => ?_
  rw [List.getElem?_take, List.getElem?_take]
  by_cases hi : i < q - p
  · rw [if_pos hi, if_pos hi, List.getElem?_drop, List.getElem?_drop]
    exact h.getElem?_kinds (Nat.le_add_right p i) (by omega)
  · rw [if_neg hi, if_neg hi]

/-- The other sentence is as long, at least up to the second place. -/
theorem le_size (h : s.AgreesOn s' p q) (hp : p ≤ q) (hq : q ≤ s.tokens.size) :
    q ≤ s'.tokens.size := by
  rcases Nat.lt_or_eq_of_le hq with inside | atEnd
  · have token : s'.tokens[q]? = some s.tokens[q] := by
      rw [← h.tokens q hp (Nat.le_refl q), Array.getElem?_eq_getElem inside]
    obtain ⟨inside', _⟩ := Array.getElem?_eq_some_iff.mp token
    exact Nat.le_of_lt inside'
  · exact Nat.le_of_eq (h.atEnd atEnd).1.symm

/-- A report that is made at the second place, and blames nothing before the first, is quoted
alike. -/
theorem diagnose (h : s.AgreesOn s' p q) (hp : p ≤ q) (hq : q ≤ s.tokens.size) {c : Complaint}
    (back : c.blamesPrevious = true → p < q) :
    s.diagnose ⟨c, s.kinds.drop q⟩ = s'.diagnose ⟨c, s'.kinds.drop q⟩ := by
  have place := position_drop hq
  have place' := position_drop (h.le_size hp hq)
  by_cases hc : c.blamesPrevious = true
  · have later := back hc
    have blamed : s.blamed ⟨c, s.kinds.drop q⟩ = q - 1 := by rw [blamed, if_pos hc, place]
    have blamed' : s'.blamed ⟨c, s'.kinds.drop q⟩ = q - 1 := by
      rw [Sentence.blamed, if_pos hc, place']
    refine diagnose_congr rfl ?_ fun none => ?_
    · rw [blamed, blamed', h.tokens (q - 1) (by omega) (by omega)]
    · rw [blamed, Array.getElem?_eq_none_iff] at none
      omega
  · have blamed : s.blamed ⟨c, s.kinds.drop q⟩ = q := by rw [blamed, if_neg hc, place]
    have blamed' : s'.blamed ⟨c, s'.kinds.drop q⟩ = q := by
      rw [Sentence.blamed, if_neg hc, place']
    refine diagnose_congr rfl ?_ fun none => ?_
    · rw [blamed, blamed', h.tokens q hp (Nat.le_refl q)]
    · rw [blamed, Array.getElem?_eq_none_iff] at none
      exact (h.atEnd (Nat.le_antisymm hq none)).2.symm

end AgreesOn

end Sentence

/-! ## Readers -/

namespace Standing

variable {x x' : Standing} {o : Outcome}

/-- A rule leads no further back than where the reader stands. -/
theorem cursor_le_position (h : o.rest <:+ x.ahead) : x.cursor ≤ x.sentence.position o.rest := by
  have fewer := h.length_le
  rw [ahead, List.length_drop, Sentence.length_kinds] at fewer
  have := x.cursor_le
  rw [Sentence.position]
  omega

/-- A declaration comes to the same in a sentence that agrees as far as it reads. -/
theorem declaration_alike (hc : x'.cursor = x.cursor) (ho : x'.opened = x.opened)
    (run : (declaration x.room).run x.ahead = o) {q : Nat} (hq : x.sentence.position o.rest = q)
    (agree : x.sentence.AgreesOn x'.sentence x.cursor q) :
    (o = .pass (x.sentence.kinds.drop q) ∧
        (declaration x'.room).run x'.ahead = .pass (x'.sentence.kinds.drop q)) ∨
      ∃ c cs, o = .failure c cs (x.sentence.kinds.drop q) ∧
        (declaration x'.room).run x'.ahead = .failure c cs (x'.sentence.kinds.drop q) := by
  have suffix : o.rest <:+ x.ahead := run ▸ Grammar.declaration_rest_suffix x.ahead
  have later : x.cursor ≤ q := hq ▸ cursor_le_position suffix
  have stop : x.sentence.kinds.drop q = o.rest :=
    hq ▸ Sentence.drop_position (suffix.trans (List.drop_suffix _ _))
  have next : (x.sentence.kinds.drop q).head? = (x'.sentence.kinds.drop q).head? := by
    rw [List.head?_drop, List.head?_drop]
    exact agree.getElem?_kinds later (Nat.le_refl q)
  have noDeeper (h : x.room < x.room) : False := Nat.lt_irrefl _ h
  have alike := Grammar.declaration_alike (Nat.le_refl x.room) noDeeper _ _ next
    ((x.sentence.kinds.drop x.cursor).take (q - x.cursor))
  -- The two rows are what lies ahead of the two readers.
  rw [← x.sentence.drop_kinds later, agree.take_drop_kinds, ← x'.sentence.drop_kinds later] at alike
  have room : x'.room = x.room := congrArg (Grammar.nestingLimit - ·) ho
  have ahead : x'.ahead = x'.sentence.kinds.drop x.cursor := by rw [Standing.ahead, hc]
  rw [room, ahead, ← run]
  exact alike.at_rest (run ▸ stop.symm)

/-- It stops at the same place and is quoted alike. -/
theorem declaration_same (hc : x'.cursor = x.cursor) (ho : x'.opened = x.opened)
    (run : (declaration x.room).run x.ahead = o) {q : Nat} (hq : x.sentence.position o.rest = q)
    (agree : x.sentence.AgreesOn x'.sentence x.cursor q) :
    ∃ o', (declaration x'.room).run x'.ahead = o' ∧ o'.passed = o.passed ∧
      x'.sentence.position o'.rest = q ∧
      o'.reports.map x'.sentence.diagnose = o.reports.map x.sentence.diagnose := by
  have later : x.cursor ≤ q :=
    hq ▸ cursor_le_position (run ▸ Grammar.declaration_rest_suffix x.ahead)
  have within : q ≤ x.sentence.tokens.size := hq ▸ Nat.sub_le _ _
  have place := Sentence.position_drop (agree.le_size later within)
  rcases declaration_alike hc ho run hq agree with ⟨rfl, pass'⟩ | ⟨c, cs, rfl, failure'⟩
  · exact ⟨_, pass', rfl, place, rfl⟩
  · have back : ∀ d ∈ c :: cs, d.blamesPrevious = true → x.cursor < q := by
      intro d hd previous
      have made : ⟨d, x.sentence.kinds.drop q⟩ ∈ ((declaration x.room).run x.ahead).reports :=
        run ▸ List.mem_map_of_mem (f := fun d => Report.mk d (x.sentence.kinds.drop q)) hd
      have reach := Grammar.declaration_looksBack x.room x.ahead _ made
      rw [Report.reach, if_pos previous, ahead, List.length_drop, List.length_drop,
        Sentence.length_kinds] at reach
      omega
    refine ⟨_, failure', rfl, place, ?_⟩
    rw [Outcome.failure, Outcome.failure, List.map_map, List.map_map]
    exact List.map_congr_left fun d hd => (agree.diagnose later within (back d hd)).symm

end Standing

/-- From the same place, and with as many constructs open, a declaration comes to the same in
any sentence that agrees up to where it stops: it passes or fails as it did, stops where it
did and records the same. -/
theorem declaration_horizon {x x' y : Standing} {passed : Bool} (hc : x'.cursor = x.cursor)
    (ho : x'.opened = x.opened) (hr : x.run declaration = (passed, y))
    (agree : x.sentence.AgreesOn x'.sentence x.cursor y.cursor) :
    ∃ y' more, x'.run declaration = (passed, y') ∧ y'.cursor = y.cursor ∧
      y.diagnostics = x.diagnostics ++ more ∧ y'.diagnostics = x'.diagnostics ++ more := by
  obtain ⟨rfl, rfl⟩ := Prod.mk.inj hr
  obtain ⟨o', run', passed, cursor, reports⟩ := Standing.declaration_same hc ho rfl rfl agree
  refine ⟨x'.after o', _, ?_, cursor, rfl, ?_⟩
  · rw [Standing.run, run', passed]
  · rw [Standing.after, reports]

/-- A reader before `x = ;`, behind another token. -/
def beforeAssignment (first : Token) (more : List Token) (endLine : Nat) : Standing where
  sentence := ⟨(first :: ⟨.identifier, "x", 1⟩ :: ⟨.sign .assign, "=", 1⟩ ::
    ⟨.sign .semicolon, ";", 2⟩ :: more).toArray, endLine⟩
  cursor := 1
  opened := 3
  diagnostics := .empty
  cursor_le := Nat.succ_le_succ (Nat.zero_le _)
  opened_le := by decide

/-- Whatever stands before `x = ;` and behind it, its failure is the same. -/
theorem horizon_of_unfinished_assignment :
    let x := beforeAssignment ⟨.sign .rightParen, ")", 1⟩ [⟨.identifier, "y", 3⟩] 3
    let x' := beforeAssignment ⟨.keyword .kwIf, "if", 0⟩ [] 7
    (x.run declaration).2.cursor = 3 ∧ x.sentence.AgreesOn x'.sentence 1 3 ∧
      ∃ y', x'.run declaration = (false, y') ∧ y'.cursor = 3 ∧
        y'.diagnostics = (x.run declaration).2.diagnostics := by
  intro x x'
  have stop : (x.run declaration).2.cursor = 3 := by decide +kernel
  have failed : x.run declaration = (false, (x.run declaration).2) :=
    Prod.ext (by decide +kernel) rfl
  have agree : x.sentence.AgreesOn x'.sentence 1 3 := by
    refine ⟨fun i hp hq => ?_, fun atEnd => by cases atEnd⟩
    obtain rfl | rfl | rfl : i = 1 ∨ i = 2 ∨ i = 3 := by omega
    · rfl
    · rfl
    · rfl
  have cursor' : x'.cursor = x.cursor := rfl
  have opened' : x'.opened = x.opened := rfl
  have upToThere : x.sentence.AgreesOn x'.sentence x.cursor (x.run declaration).2.cursor := by
    rw [stop]
    exact agree
  obtain ⟨y', more, run, cursor, recorded, recorded'⟩ :=
    declaration_horizon cursor' opened' failed upToThere
  exact ⟨stop, agree, y', run, cursor.trans stop, recorded'.trans recorded.symm⟩

end MiniC
