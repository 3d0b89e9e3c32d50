import MiniC.Proofs.Grammar.Starts

/-!
# The nearest conditional

Where an `else` belongs is a question about trees and not about what they derive.
Every yield is the yield of a tree in which each `else` belongs to the nearest
conditional, which is `exists_nearestElse`.

If an `else` follows a branch that leaves a conditional open, it is moved into that
branch.  `closed_or_attach` does this: either no conditional is open at the end of a
tree, or an `else` and its statement can be put there.
-/

namespace MiniC.Grammar.StatementTree

/-- It matters to a tree only whether an `else` is the next kind behind it. -/
theorem nearestElse_congr {f : Form} (t : StatementTree f) {a b : List Kind}
    (h : a.head? = some (.keyword .kwElse) ↔ b.head? = some (.keyword .kwElse)) :
    t.NearestElse a ↔ t.NearestElse b := by
  induction t generalizing a b with
  | nil => rfl
  | cons d ds ihd ihds =>
    refine and_congr (ihd ?_) (ihds h)
    cases ds.yield with
    | nil => exact h
    | cons k ks => rfl
  | function _ _ _ ih => exact ih h
  | uninitialized => rfl
  | initialized => rfl
  | stated _ ih => exact ih h
  | block _ ih => exact ih Iff.rfl
  | ifOnly _ _ ih => exact and_congr (ih h) (not_congr h)
  | ifElse _ _ _ ihy ihn => exact and_congr (ihy Iff.rfl) (ihn h)
  | returnNothing => rfl
  | returnValue => rfl
  | simple => rfl

/-- Nothing further behind the next kind matters to a tree. -/
theorem nearestElse_cons {f : Form} (t : StatementTree f) (k : Kind) (ks ks' : List Kind) :
    t.NearestElse (k :: ks) ↔ t.NearestElse (k :: ks') :=
  t.nearestElse_congr (a := k :: ks) (b := k :: ks') Iff.rfl

/-- What can stand at the end can stand before any kind but an `else`. -/
theorem NearestElse.of_ne {f : Form} {t : StatementTree f} (h : t.NearestElse []) {rest : List Kind}
    (hr : rest.head? ≠ some (.keyword .kwElse)) : t.NearestElse rest :=
  (t.nearestElse_congr (iff_of_false (fun he => by cases he) hr)).mp h

/-- Either no conditional is open at the end of a tree, or an `else` with its
statement can be put there. -/
theorem closed_or_attach {f : Form} (t : StatementTree f) (hf : f ≠ .declarations)
    {no : StatementTree .statement} (ht : t.NearestElse []) (hn : no.NearestElse []) :
    t.NearestElse [.keyword .kwElse] ∨
      ∃ t' : StatementTree f, t'.yield = t.yield ++ .keyword .kwElse :: no.yield ∧
        t'.NearestElse [] := by
  have single : Form.statement ≠ .declarations := fun he => by cases he
  induction t with
  | nil => exact absurd rfl hf
  | cons => exact absurd rfl hf
  | function k hk body ih =>
    rcases ih single ht with closed | ⟨body', hy, hb⟩
    · exact Or.inl closed
    · exact Or.inr ⟨.function k hk body', by rw [yield, hy]; rfl, hb⟩
  | uninitialized => exact Or.inl trivial
  | initialized => exact Or.inl trivial
  | stated s ih =>
    rcases ih single ht with closed | ⟨s', hy, hs⟩
    · exact Or.inl closed
    · exact Or.inr ⟨.stated s', hy, hs⟩
  | block ds => exact Or.inl ((ds.nearestElse_cons _ _ _).mp ht)
  | ifOnly condition yes ih =>
    -- The conditional is open itself, but the `else` belongs further inside if it can.
    refine Or.inr ?_
    rcases ih single ht.1 with closed | ⟨yes', hy, hs⟩
    · refine ⟨.ifElse condition yes no, (List.append_assoc _ _ _).symm, ?_, hn⟩
      exact (yes.nearestElse_cons _ _ _).mp closed
    · refine ⟨.ifOnly condition yes', ?_, hs, fun he => by cases he⟩
      rw [yield, yield, hy, List.append_assoc]
  | ifElse condition yes other _ ih =>
    rcases ih single ht.2 with closed | ⟨other', hy, hs⟩
    · exact Or.inl ⟨(yes.nearestElse_cons _ _ _).mp ht.1, closed⟩
    · refine Or.inr ⟨.ifElse condition yes other', ?_, ?_, hs⟩
      · rw [yield, yield, hy, List.append_assoc, List.append_assoc, List.cons_append]
      · exact (yes.nearestElse_cons _ _ _).mp ht.1
  | returnNothing => exact Or.inl trivial
  | returnValue => exact Or.inl trivial
  | simple => exact Or.inl trivial

/-- What a tree derives, a tree derives in which every `else` belongs to the nearest
conditional. -/
theorem exists_nearestElse {f : Form} (t : StatementTree f) :
    ∃ t' : StatementTree f, t'.yield = t.yield ∧ t'.NearestElse [] := by
  have single : Form.statement ≠ .declarations := fun he => by cases he
  have ended : ([] : List Kind).head? ≠ some (.keyword .kwElse) := fun he => by cases he
  induction t with
  | nil => exact ⟨.nil, rfl, trivial⟩
  | cons d ds ihd ihds =>
    obtain ⟨d', hd, hnd⟩ := ihd
    obtain ⟨ds', hds, hns⟩ := ihds
    refine ⟨.cons d' ds', by rw [yield, yield, hd, hds], hnd.of_ne ?_, hns⟩
    rw [List.append_nil]
    exact ds'.head?_yield_ne_else
  | function k hk body ih =>
    obtain ⟨body', hy, hn⟩ := ih
    exact ⟨.function k hk body', by rw [yield, yield, hy], hn⟩
  | uninitialized k hk => exact ⟨.uninitialized k hk, rfl, trivial⟩
  | initialized k hk value => exact ⟨.initialized k hk value, rfl, trivial⟩
  | stated s ih =>
    obtain ⟨s', hy, hn⟩ := ih
    exact ⟨.stated s', hy, hn⟩
  | block ds ih =>
    obtain ⟨ds', hy, hn⟩ := ih
    exact ⟨.block ds', by rw [yield, yield, hy], hn.of_ne fun he => by cases he⟩
  | ifOnly condition yes ih =>
    obtain ⟨yes', hy, hn⟩ := ih
    exact ⟨.ifOnly condition yes', by rw [yield, yield, hy], hn, ended⟩
  | ifElse condition yes no ihy ihn =>
    obtain ⟨yes', hy, hny⟩ := ihy
    obtain ⟨no', hno, hnn⟩ := ihn
    rcases closed_or_attach yes' single hny hnn with closed | ⟨both, hb, hnb⟩
    · refine ⟨.ifElse condition yes' no', by rw [yield, yield, hy, hno], ?_, hnn⟩
      exact (yes'.nearestElse_cons _ _ _).mp closed
    · exact ⟨.ifOnly condition both, by rw [yield, yield, hb, hy, hno], hnb, ended⟩
  | returnNothing => exact ⟨.returnNothing, rfl, trivial⟩
  | returnValue value => exact ⟨.returnValue value, rfl, trivial⟩
  | simple t => exact ⟨.simple t, rfl, trivial⟩

end MiniC.Grammar.StatementTree
