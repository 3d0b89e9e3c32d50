import Mathlib.Order.Bounds.Defs
import MiniC.Proofs.Grammar.Rounds

/-!
# Where reading restarts

After a failure the reader drops kinds, at least one, up to a place where a declaration is
likely to begin.  `RestartsAt` lists those places, counted from the front of the row.  The
reader goes on at the first of them behind the failure, which is `resync_isLeast`.

The rounds over a row stop at a row of places, the first of them at the front and the last
at the end.  From each of these stops the rounds are those over the kinds that are left
there, so a round owes nothing to the ones before it.  This is `rounds_drop`.
-/

namespace MiniC.Grammar

variable {room : Nat}

/-! ## Places to go on -/

/-- The keywords that begin a declaration or a statement. -/
def restartKeywords : List Keyword :=
  [.kwInt, .kwFloat, .kwChar, .kwIf, .kwWhile, .kwFor, .kwReturn]

theorem isAnchor_iff {k : Kind} : isAnchor k = true ↔ ∃ w ∈ restartKeywords, k = .keyword w := by
  cases k with
  | keyword w => cases w <;> simp [isAnchor, restartKeywords]
  | _ => simp [isAnchor]

/-- A declaration is likely to begin at the place `q` of the row. -/
inductive RestartsAt (ks : List Kind) : Nat → Prop where
  /-- The row ends there. -/
  | atEnd : RestartsAt ks ks.length
  /-- A semicolon stands before it. -/
  | behind {q : Nat} (h : ks[q]? = some (.sign .semicolon)) : RestartsAt ks (q + 1)
  /-- One of the keywords stands there. -/
  | before {q : Nat} {w : Keyword} (hw : w ∈ restartKeywords) (h : ks[q]? = some (.keyword w)) :
    RestartsAt ks q

/-- The reader that drops kinds stops exactly where a declaration is likely to begin. -/
theorem restartsAt_succ_iff {ks : List Kind} {dropped k : Kind} {f : Nat}
    (first : ks[f]? = some dropped) (second : ks[f + 1]? = some k) :
    RestartsAt ks (f + 1) ↔ dropped = .sign .semicolon ∨ isAnchor k = true := by
  constructor
  · intro h
    generalize hp : f + 1 = p at h second
    cases h with
    | atEnd =>
      rw [List.getElem?_eq_none (Nat.le_refl _)] at second
      cases second
    | behind hs =>
      obtain rfl := Nat.succ.inj hp
      exact .inl (Option.some.inj (first.symm.trans hs))
    | before hw hs =>
      exact .inr (isAnchor_iff.mpr ⟨_, hw, Option.some.inj (second.symm.trans hs)⟩)
  · rintro (rfl | anchor)
    · exact .behind first
    · obtain ⟨w, hw, rfl⟩ := isAnchor_iff.mp anchor
      exact .before hw second

/-- Behind a kind that is dropped, the reader stops at the first place to go on. -/
theorem seekAnchor_isLeast {ks : List Kind} {dropped : Kind} {tail : List Kind} {f : Nat}
    (h : ks.drop f = dropped :: tail) :
    ∃ q, seekAnchor dropped tail = ks.drop q ∧ IsLeast {q | f < q ∧ RestartsAt ks q} q := by
  induction tail generalizing f dropped with
  | nil =>
    have length : ks.length = f + 1 := by
      have := congrArg List.length h
      simp at this
      omega
    refine ⟨f + 1, ?_, ⟨Nat.lt_succ_self f, length ▸ .atEnd⟩, fun q hq => hq.1⟩
    rw [← length, List.drop_length, seekAnchor]
  | cons k tail ih =>
    have next : ks.drop (f + 1) = k :: tail := by
      rw [← List.drop_drop, h, List.drop_one, List.tail_cons]
    have restarts : RestartsAt ks (f + 1) ↔ dropped = .sign .semicolon ∨ isAnchor k = true := by
      refine restartsAt_succ_iff ?_ ?_
      · rw [← List.head?_drop, h, List.head?_cons]
      · rw [← List.head?_drop, next, List.head?_cons]
    rw [seekAnchor]
    split
    · next stops =>
      exact ⟨f + 1, next.symm, ⟨Nat.lt_succ_self f, restarts.mpr stops⟩, fun q hq => hq.1⟩
    · next goesOn =>
      obtain ⟨q, hq, ⟨later, found⟩, least⟩ := ih next
      refine ⟨q, hq, ⟨Nat.lt_of_succ_lt later, found⟩, fun q' hq' => least ⟨?_, hq'.2⟩⟩
      -- Only the place right behind `dropped` is new, and reading does not restart there.
      refine Nat.lt_of_le_of_ne hq'.1 ?_
      rintro rfl
      exact goesOn (restarts.mp hq'.2)

/-- After a failure within the row, the reader goes on at the first place behind it. -/
theorem resync_isLeast {ks : List Kind} {f : Nat} (hf : f < ks.length) :
    ∃ q, resync (ks.drop f) = ks.drop q ∧ IsLeast {q | f < q ∧ RestartsAt ks q} q := by
  rw [List.drop_eq_getElem_cons hf]
  exact seekAnchor_isLeast (List.drop_eq_getElem_cons hf)

/-! ## From one round to the next -/

/-- What the round at the place `p` of a row comes to when the next one is at `q`. -/
inductive Advances (room : Nat) (ks : List Kind) (p q : Nat) : Outcome → Prop where
  /-- A declaration has been read. -/
  | passed (h : Form.declaration.Whole room ((ks.take q).drop p) (ks.drop q)) :
    Advances room ks p q (.pass (ks.drop q))
  /-- Reading has failed at the place `f`, and what follows there has been dropped up to
  the next place where it restarts. -/
  | failed (c : Complaint) (cs : List Complaint) {f : Nat} (hp : p ≤ f) (hf : f ≤ ks.length)
    (last : f = ks.length → q = ks.length)
    (least : f < ks.length → IsLeast {q | f < q ∧ RestartsAt ks q} q) :
    Advances room ks p q (.failure c cs (ks.drop f))

theorem exists_advances (room : Nat) {ks : List Kind} {p : Nat} (hp : p < ks.length) :
    ∃ q, p < q ∧ q ≤ ks.length ∧
      (Round.of (declaration room) (ks.drop p)).resume = ks.drop q ∧
        Advances room ks p q ((declaration room).run (ks.drop p)) := by
  have cut {read rest : List Kind} (he : ks.drop p = read ++ rest) :
      p + read.length ≤ ks.length ∧ ks.drop (p + read.length) = rest ∧
        (ks.take (p + read.length)).drop p = read := by
    have length := congrArg List.length he
    rw [List.length_drop, List.length_append] at length
    refine ⟨by omega, ?_, ?_⟩
    · rw [← List.drop_drop, he, List.drop_left]
    · rw [List.drop_take, Nat.add_sub_cancel_left, he, List.take_left]
  rcases (declaration_meets room (ks.drop p)).pass_or_failure with
    ⟨read, rest, he, ho, whole⟩ | ⟨read, rest, c, cs, he, ho, _⟩
  · obtain ⟨within, hrest, hread⟩ := cut he
    have nonempty : 0 < read.length := by
      have less := ((declaration room).fits (ks.drop p)).2
      rw [ho, he, Outcome.rest_pass, List.length_append] at less
      have := less rfl
      omega
    refine ⟨p + read.length, by omega, within, ?_, ?_⟩
    · rw [Round.resume, Round.of, ho, hrest]
      rfl
    · rw [ho, ← hrest]
      refine .passed ?_
      rwa [hread, hrest]
  · obtain ⟨within, hrest, -⟩ := cut he
    have resume : (Round.of (declaration room) (ks.drop p)).resume =
        resync (ks.drop (p + read.length)) := by
      rw [Round.resume, Round.of, ho, hrest]
      rfl
    rw [ho, resume, ← hrest]
    rcases Nat.lt_or_eq_of_le within with inside | atEnd
    · obtain ⟨q, hq, least⟩ := resync_isLeast inside
      have later : p < q := Nat.lt_of_le_of_lt (Nat.le_add_right _ _) least.1.1
      refine ⟨q, later, least.2 ⟨inside, .atEnd⟩, hq, ?_⟩
      exact .failed c cs (Nat.le_add_right _ _) within (fun h => by omega) fun _ => least
    · refine ⟨ks.length, hp, Nat.le_refl _, ?_, ?_⟩
      · rw [atEnd, List.drop_length, resync]
      · exact .failed c cs (Nat.le_add_right _ _) within (fun _ => rfl) fun h => by omega

/-! ## The stops -/

/-- What lies ahead when the rounds begin, and after each of them. -/
def stops (room : Nat) (ks : List Kind) : List (List Kind) :=
  (rounds (declaration room) ks).map Round.start ++ [[]]

@[simp] theorem stops_nil : stops room [] = [[]] := by simp [stops]

theorem stops_cons (k : Kind) (ks : List Kind) :
    stops room (k :: ks) =
      (k :: ks) :: stops room (Round.of (declaration room) (k :: ks)).resume := by
  rw [stops, rounds_cons, List.map_cons, List.cons_append]
  rfl

@[simp] theorem head?_stops (ks : List Kind) : (stops room ks).head? = some ks := by
  cases ks with
  | nil => simp
  | cons k ks => rw [stops_cons, List.head?_cons]

/-- From a stop on, the rounds are those over what lies ahead there. -/
theorem rounds_drop {i : Nat} {ks ahead : List Kind} (h : (stops room ks)[i]? = some ahead) :
    ahead <:+ ks ∧ (rounds (declaration room) ks).drop i = rounds (declaration room) ahead := by
  induction i generalizing ks with
  | zero =>
    rw [← List.head?_eq_getElem?, head?_stops] at h
    obtain rfl := Option.some.inj h
    exact ⟨List.suffix_rfl, rfl⟩
  | succ i ih =>
    cases ks with
    | nil => simp at h
    | cons k ks =>
      rw [stops_cons, List.getElem?_cons_succ] at h
      obtain ⟨suffix, rounds⟩ := ih h
      rw [rounds_cons, List.drop_succ_cons]
      exact ⟨suffix.trans (resume_suffix _), rounds⟩

theorem stops_drop {i : Nat} {ks ahead : List Kind} (h : (stops room ks)[i]? = some ahead) :
    (stops room ks).drop i = stops room ahead := by
  have within : i ≤ (rounds (declaration room) ks).length := by
    obtain ⟨hi, _⟩ := List.getElem?_eq_some_iff.mp h
    rw [stops, List.length_append, List.length_map] at hi
    exact Nat.le_of_lt_succ hi
  rw [stops, List.drop_append_of_le_length (by simpa using within), ← List.map_drop,
    (rounds_drop h).2]
  rfl

/-- Between two stops there is one round, which resumes at the second one. -/
theorem round_of_stops {i : Nat} {ks ahead ahead' : List Kind}
    (h : (stops room ks)[i]? = some ahead) (h' : (stops room ks)[i + 1]? = some ahead') :
    ahead ≠ [] ∧ (rounds (declaration room) ks)[i]? = some (Round.of (declaration room) ahead) ∧
      (Round.of (declaration room) ahead).resume = ahead' := by
  have second : (stops room ahead)[1]? = some ahead' := by
    rw [← stops_drop h, List.getElem?_drop, h']
  have first : (rounds (declaration room) ks)[i]? = (rounds (declaration room) ahead).head? := by
    rw [← (rounds_drop h).2, List.head?_drop]
  cases ahead with
  | nil => simp at second
  | cons k tail =>
    rw [stops_cons, List.getElem?_cons_succ, ← List.head?_eq_getElem?, head?_stops] at second
    rw [first, rounds_cons]
    exact ⟨nofun, rfl, Option.some.inj second⟩

end MiniC.Grammar
