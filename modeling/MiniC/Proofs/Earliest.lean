import MiniC.Proofs.Grammar.Else
import MiniC.Proofs.Grammar.Locality
import MiniC.Proofs.Grammar.Rounds
import MiniC.Proofs.Sentence
import MiniC.Verdict

/-!
# Where a failure stops

A round that fails stops at the earliest place where it can be told that no
declaration is ahead.  What it has read begins some declaration, but no declaration
begins with that and the next kind.  If there is no next kind, what it has read is
not a declaration as it stands.  That is `failed_round_earliest`.

No kind is too late because a rule sees nothing behind the kind at which it stops.
Suppose that a declaration goes on as the row does, with that kind or with the end.
A rule with enough levels passes on the declaration.  But up to there the declaration
is the same as the row, on which the rule fails, so it should fail as well.
-/

namespace MiniC

namespace Grammar

variable {room : Nat} {read rest : List Kind} {c : Complaint} {cs : List Complaint}

/-- A rule with enough levels passes on a declaration, wherever its `else` belong. -/
theorem exists_run_yield (room : Nat) (t : StatementTree .declaration) :
    ∃ m, room ≤ m ∧ (declaration m).run t.yield = .pass [] := by
  obtain ⟨t', hy, hn⟩ := t.exists_nearestElse
  have run := declaration_run_yield (Nat.le_max_right room t'.depth) hn
  rw [List.append_nil, hy] at run
  exact ⟨_, Nat.le_max_left _ _, run⟩

/-- No declaration goes on like a row on which the rule has failed. -/
theorem yield_ne_of_failure (hc : c.isTooDeep = false)
    (hf : (declaration room).run (read ++ rest) = .failure c cs rest) {rest' : List Kind}
    (hr : rest.head? = rest'.head?) (t : StatementTree .declaration) : t.yield ≠ read ++ rest' := by
  intro hy
  obtain ⟨m, hm, run⟩ := exists_run_yield room t
  have alike : (declaration room).Alike True (declaration m) :=
    declaration_alike hm fun _ => trivial
  rw [hy, alike.failure hr hc hf] at run
  cases congrArg Outcome.passed run

/-- A failure has read what begins some declaration. -/
theorem begun_of_failure (hc : c.isTooDeep = false)
    (hf : (declaration room).run (read ++ rest) = .failure c cs rest) :
    Form.declaration.Begun read := by
  rcases (declaration_meets room (read ++ rest)).pass_or_failure with
    ⟨_, _, _, ho, _⟩ | ⟨read', rest', d, ds, he, ho, hb⟩
  · rw [hf] at ho
    cases congrArg Outcome.passed ho
  · obtain ⟨rfl, _, rfl⟩ := Outcome.failure_inj.mp (hf.symm.trans ho)
    rw [List.append_cancel_right he]
    exact hb hc

end Grammar

open Grammar (Form Round StatementTree)

/-- A round that fails, with another first complaint than that no level is left, has
read what begins some declaration.  With the next kind it begins none, and at the end
of the row it is none. -/
theorem failed_round_earliest (row : List Token) {r : Round}
    (hr : r ∈ (Verdict.ofTokens row).rounds) (hf : r.outcome.passed = false)
    (hc : ∀ first ∈ r.outcome.reports.head?, first.complaint.isTooDeep = false) :
    ∃ before read, kindsRead row = before ++ r.start ∧ r.start = read ++ r.outcome.rest ∧
      Form.declaration.Begun read ∧
      (∀ k tail, r.outcome.rest = k :: tail → ¬ Form.declaration.Begun (read ++ [k])) ∧
      (r.outcome.rest = [] → ¬ ∃ t : StatementTree .declaration, t.yield = read) := by
  obtain ⟨hround, before, hb⟩ := Grammar.start_of_mem_rounds hr
  have run : r.outcome = (Grammar.declaration 256).run r.start := congrArg Round.outcome hround
  rcases (Grammar.declaration_meets 256 r.start).pass_or_failure with
    ⟨_, _, _, ho, _⟩ | ⟨read, rest, c, cs, he, ho, _⟩
  · rw [run, ho] at hf
    cases hf
  rw [← run] at ho
  rw [ho] at hc ⊢
  have shallow : c.isTooDeep = false := hc _ rfl
  have failed : (Grammar.declaration 256).run (read ++ rest) = .failure c cs rest := by
    rw [← he, ← run, ho]
  refine ⟨before, read, ?_, he, Grammar.begun_of_failure shallow failed, ?_, ?_⟩
  · rw [← kinds_ofTokens]
    exact hb.symm
  · rintro k tail hk ⟨t, more, ht⟩
    rw [List.append_assoc] at ht
    refine Grammar.yield_ne_of_failure shallow failed ?_ t ht.symm
    rw [show rest = k :: tail from hk]
    rfl
  · rintro hk ⟨t, ht⟩
    refine Grammar.yield_ne_of_failure shallow failed (congrArg _ hk) t ?_
    rw [ht, List.append_nil]

/-- Nothing begins with `x = ;`, though something begins with `x =`. -/
theorem begun_before_semicolon :
    Form.declaration.Begun [.identifier, .sign .assign] ∧
      ¬ Form.declaration.Begun [.identifier, .sign .assign, .sign .semicolon] := by
  let row : List Token :=
    [⟨.identifier, "x", 1⟩, ⟨.sign .assign, "=", 1⟩, ⟨.sign .semicolon, ";", 1⟩]
  let failed : Round := ⟨[.identifier, .sign .assign, .sign .semicolon],
    .failure .operandExpected [.badRightHandSide] [.sign .semicolon]⟩
  have played : failed ∈ (Verdict.ofTokens row).rounds := by decide +kernel
  obtain ⟨_, read, _, hs, begun, no, _⟩ := failed_round_earliest row played rfl fun first h => by
    cases h
    rfl
  have cut : [.identifier, .sign .assign] ++ [.sign .semicolon] = read ++ [.sign .semicolon] := hs
  obtain rfl := List.append_cancel_right cut
  exact ⟨begun, no _ [] rfl⟩

end MiniC
