import MiniC.Grammar.Program
import MiniC.Proofs.Grammar.Completeness
import MiniC.Proofs.Grammar.Reach
import MiniC.Proofs.Grammar.Soundness

/-!
# The rounds of a program

Every round tries the rule for declarations at some place of the row.  What a round
leaves to the next one is an end of the row, since a rule reads its kinds in order
and what is dropped behind a failure is dropped from the front.

A round that passes reports nothing and a round that fails reports something, so the
rounds over a program all pass.  Each begins where the one before it ended, and their
trees make up the row.
-/

namespace MiniC.Grammar

variable {room : Nat}

/-! ## Where a round begins -/

theorem seekAnchor_suffix (dropped : Kind) (ks : List Kind) : seekAnchor dropped ks <:+ ks := by
  induction ks generalizing dropped with
  | nil => exact List.suffix_rfl
  | cons k ks ih =>
    rw [seekAnchor]
    split
    · exact List.suffix_rfl
    · exact (ih k).trans (List.suffix_cons k ks)

theorem resync_suffix (ks : List Kind) : resync ks <:+ ks := by
  cases ks with
  | nil => exact List.suffix_rfl
  | cons k ks => exact (seekAnchor_suffix k ks).trans (List.suffix_cons k ks)

/-- The rule for declarations reads its kinds in order. -/
theorem declaration_rest_suffix (ks : List Kind) : ((declaration room).run ks).rest <:+ ks := by
  rcases (declaration_meets room ks).pass_or_failure with
    ⟨read, rest, he, ho, _⟩ | ⟨read, rest, c, cs, he, ho, _⟩
  · rw [ho, he]
    exact List.suffix_append read rest
  · rw [ho, he]
    exact List.suffix_append read rest

theorem resume_suffix (ks : List Kind) : (Round.of (declaration room) ks).resume <:+ ks := by
  have rest : ((declaration room).run ks).rest <:+ ks := declaration_rest_suffix ks
  rw [Round.resume]
  split
  · exact rest
  · exact (resync_suffix _).trans rest

/-- A round tries the rule at an end of the row. -/
theorem start_of_mem_rounds {r : Round} : ∀ {ks : List Kind}, r ∈ rounds (declaration room) ks →
    r = Round.of (declaration room) r.start ∧ r.start <:+ ks
  | [], h => by
    rw [rounds_nil] at h
    cases h
  | k :: ks, h => by
    rw [rounds_cons] at h
    rcases List.mem_cons.mp h with rfl | h
    · exact ⟨rfl, List.suffix_rfl⟩
    · have shorter := Round.resume_length_lt (declaration room) k ks
      obtain ⟨hr, hs⟩ := start_of_mem_rounds h
      exact ⟨hr, hs.trans (resume_suffix _)⟩
termination_by ks => ks.length
decreasing_by exact shorter

/-- No round begins at the end of the row. -/
theorem start_ne_nil_of_mem_rounds {r : Round} : ∀ {ks : List Kind},
    r ∈ rounds (declaration room) ks → r.start ≠ []
  | [], h => by
    rw [rounds_nil] at h
    cases h
  | k :: ks, h => by
    rw [rounds_cons] at h
    rcases List.mem_cons.mp h with rfl | h
    · exact List.cons_ne_nil k ks
    · have shorter := Round.resume_length_lt (declaration room) k ks
      exact start_ne_nil_of_mem_rounds h
termination_by ks => ks.length
decreasing_by exact shorter

/-- A later round begins within what an earlier one leaves, and not at its end. -/
theorem rounds_pairwise (ks : List Kind) : (rounds (declaration room) ks).Pairwise
    fun r r' => r'.start <:+ r.resume ∧ r'.start ≠ [] := by
  cases ks with
  | nil =>
    rw [rounds_nil]
    exact .nil
  | cons k ks =>
    have shorter := Round.resume_length_lt (declaration room) k ks
    rw [rounds_cons]
    exact .cons (fun r' hr => ⟨(start_of_mem_rounds hr).2, start_ne_nil_of_mem_rounds hr⟩)
      (rounds_pairwise _)
termination_by ks.length
decreasing_by exact shorter

theorem Round.resume_of_failed {r : Round} (hf : r.outcome.passed = false) :
    r.resume = resync r.outcome.rest := by
  rw [resume, hf, if_neg Bool.false_ne_true]

/-- Behind a failure, the next round begins behind the place where it stopped. -/
theorem Round.length_start_lt {r r' : Round} (hf : r.outcome.passed = false)
    (hs : r'.start <:+ r.resume) (hn : r'.start ≠ []) :
    r'.start.length < r.outcome.rest.length := by
  rw [resume_of_failed hf] at hs
  cases hr : r.outcome.rest with
  | nil =>
    rw [hr] at hs
    exact absurd (List.suffix_nil.mp hs) hn
  | cons k rest =>
    rw [hr] at hs
    exact Nat.lt_of_le_of_lt hs.length_le (resync_length_lt (Nat.le_refl _))

/-! ## The rounds over a program -/

/-- If no round reports anything, the rounds have read a row of declarations. -/
theorem whole_of_rounds : ∀ ks : List Kind,
    (∀ r ∈ rounds (declaration room) ks, r.outcome.reports = []) →
      Form.declarations.Whole room ks []
  | [], _ => ⟨.nil, rfl, Nat.zero_le _, trivial⟩
  | k :: ks, h => by
    rw [rounds_cons] at h
    have less := Round.resume_length_lt (declaration room) k ks
    have silent : ((declaration room).run (k :: ks)).reports = [] := h _ List.mem_cons_self
    rcases (declaration_meets room (k :: ks)).pass_or_failure with
      ⟨read, rest, he, ho, d, hy, hd, hn⟩ | ⟨read, rest, c, cs, he, ho, _⟩
    · have resume : (Round.of (declaration room) (k :: ks)).resume = rest := by
        rw [Round.resume, Round.of, ho]
        rfl
      rw [resume] at h less
      have shorter : rest.length < (k :: ks).length := less
      obtain ⟨ds, hys, hds, hns⟩ := whole_of_rounds rest fun r hr => h r (List.mem_cons_of_mem _ hr)
      refine ⟨.cons d ds, ?_, Nat.max_le.mpr ⟨hd, hds⟩, ?_, hns⟩
      · rw [StatementTree.yield, hy, hys, he]
      · rw [hys, List.append_nil]
        exact hn
    · rw [ho] at silent
      cases silent
termination_by ks => ks.length
decreasing_by exact shorter

/-- The rounds over a row of declarations report nothing, and the next one begins behind
it. -/
theorem rounds_yield_append {rest : List Kind} : ∀ ds : StatementTree .declarations,
    ds.depth ≤ room → ds.NearestElse rest → ∃ silent : List Round,
      (∀ r ∈ silent, r.outcome.reports = []) ∧
        rounds (declaration room) (ds.yield ++ rest) = silent ++ rounds (declaration room) rest
  | .nil, _, _ => ⟨[], nofun, rfl⟩
  | .cons d ds, hd, hn => by
    obtain ⟨hdd, hds⟩ := Nat.max_le.mp hd
    obtain ⟨hnd, hns⟩ := hn
    have run := declaration_run_yield hdd hnd
    obtain ⟨silent, hs, he⟩ := rounds_yield_append ds hds hns
    obtain ⟨k, _, ks, hy⟩ := d.starts_declaration
    rw [StatementTree.yield, List.append_assoc]
    rw [hy, List.cons_append] at run ⊢
    let first := Round.of (declaration room) (k :: (ks ++ (ds.yield ++ rest)))
    have passed : first.outcome = .pass (ds.yield ++ rest) := run
    have resume : first.resume = ds.yield ++ rest := by
      rw [Round.resume, passed]
      rfl
    refine ⟨first :: silent, List.forall_mem_cons.mpr ⟨?_, hs⟩, ?_⟩
    · rw [passed]
      rfl
    · rw [rounds_cons, resume, he, List.cons_append]

/-- Over a row of declarations no round reports anything. -/
theorem rounds_of_whole (ds : StatementTree .declarations) (hd : ds.depth ≤ room)
    (hn : ds.NearestElse []) :
    ∀ r ∈ rounds (declaration room) ds.yield, r.outcome.reports = [] := by
  obtain ⟨silent, hs, he⟩ := rounds_yield_append ds hd hn
  rw [List.append_nil, rounds_nil, List.append_nil] at he
  rwa [he]

/-! ## The reports of all rounds -/

/-- The reports of the rounds over a row, in order. -/
def roundReports (room : Nat) (ks : List Kind) : List Report :=
  (rounds (declaration room) ks).flatMap (·.outcome.reports)

/-- The reports are those of the first round and of the rounds over what it leaves. -/
theorem roundReports_eq {ks : List Kind} (h : ks ≠ []) :
    roundReports room ks = ((declaration room).run ks).reports ++
      roundReports room (Round.of (declaration room) ks).resume := by
  cases ks with
  | nil => exact absurd rfl h
  | cons k ks =>
    rw [roundReports, rounds_cons, List.flatMap_cons]
    rfl

/-- Behind a row of declarations, the reports are those of what follows. -/
theorem roundReports_yield_append {ds : StatementTree .declarations} {rest : List Kind}
    (hd : ds.depth ≤ room) (hn : ds.NearestElse rest) :
    roundReports room (ds.yield ++ rest) = roundReports room rest := by
  obtain ⟨silent, hs, he⟩ := rounds_yield_append ds hd hn
  rw [roundReports, he, List.flatMap_append, List.flatMap_eq_nil_iff.mpr hs, List.nil_append]
  rfl

/-- No round blames anything before the row. -/
theorem reach_le_of_mem_roundReports {ks : List Kind} {r : Report}
    (h : r ∈ roundReports room ks) : r.reach ≤ ks.length := by
  obtain ⟨round, hr, h⟩ := List.mem_flatMap.mp h
  obtain ⟨he, hs⟩ := start_of_mem_rounds hr
  rw [he] at h
  exact Nat.le_trans (declaration_looksBack room round.start r h) hs.length_le

end MiniC.Grammar
