import MiniC.Proofs.Grammar.Parts
import MiniC.Proofs.Grammar.Outcome

/-!
# How far a rule looks

A rule sees nothing of what lies behind the kind at which it stops.  To say so, a
row of kinds is cut into the kinds `ahead` and a `rest`, and the rest is exchanged
for a `rest'` that begins with the same kind or is empty too.  As long as a rule
leaves all of the rest, its run on the new row is *alike*: it passes or fails as
before, complains of the same and leaves the same part of `ahead` before `rest'`.
This is `Rule.Alike`.

The rules of the two runs need not be the same.  The second one may have more levels
left.  Then a run in which the first complaint is that no level is left has nothing
to compare it with.

There is one place where a rule looks two kinds ahead, for the `=` behind an
identifier.  It stays alike because an identifier is read either way.
-/

namespace MiniC.Grammar

variable {deeper : Prop} {rest rest' : List Kind}

/-! ## Rows and outcomes -/

/-- Two rows that are the same up to `rest` and `rest'`, unless a part of `rest` has
been read already. -/
inductive Abreast (rest rest' : List Kind) : List Kind → List Kind → Prop where
  /-- The kinds `left` are left before the rest. -/
  | before (left : List Kind) : Abreast rest rest' (left ++ rest) (left ++ rest')
  /-- A part of the rest has been read. -/
  | beyond {ks : List Kind} (h : ks.length < rest.length) (ks' : List Kind) :
    Abreast rest rest' ks ks'

/-- Two rows begin with the same kind if their rests do. -/
theorem Abreast.next (h : rest.head? = rest'.head?) (ahead : List Kind) :
    (ahead ++ rest = [] ∧ ahead ++ rest' = []) ∨
      ∃ k ks ks', ahead ++ rest = k :: ks ∧ ahead ++ rest' = k :: ks' ∧
        Abreast rest rest' ks ks' := by
  cases ahead with
  | cons k ahead => exact Or.inr ⟨k, _, _, rfl, rfl, .before ahead⟩
  | nil =>
    cases rest with
    | nil => exact Or.inl ⟨rfl, List.head?_eq_none_iff.mp h.symm⟩
    | cons k ks =>
      obtain ⟨ks', rfl⟩ := List.head?_eq_some_iff.mp h.symm
      exact Or.inr ⟨k, ks, ks', rfl, rfl, .beyond (Nat.lt_succ_self _) ks'⟩

/-- What comes of a row, and what comes of the other. -/
inductive Outcome.Alike (deeper : Prop) (rest rest' : List Kind) : Outcome → Outcome → Prop where
  /-- Both runs pass. -/
  | pass (left : List Kind) : Alike deeper rest rest' (.pass (left ++ rest)) (.pass (left ++ rest'))
  /-- Both runs fail. -/
  | failure (c : Complaint) (cs : List Complaint) (left : List Kind) :
    Alike deeper rest rest' (.failure c cs (left ++ rest)) (.failure c cs (left ++ rest'))
  /-- The first run has read a part of the rest. -/
  | beyond {o : Outcome} (h : o.rest.length < rest.length) (o' : Outcome) :
    Alike deeper rest rest' o o'
  /-- The first run had no level left, and the second one has more of them. -/
  | tooDeep {c : Complaint} (hd : deeper) (hc : c.isTooDeep = true) (cs : List Complaint)
    (left : List Kind) (o' : Outcome) : Alike deeper rest rest' (.failure c cs left) o'

/-- Going on never gives back what has been read. -/
theorem Outcome.length_rest_andThen_le {next : List Kind → Outcome}
    (hn : ∀ ks, (next ks).rest.length ≤ ks.length) (o : Outcome) :
    (o.andThen next).rest.length ≤ o.rest.length := by
  rcases o with ⟨passed, left, reports⟩
  cases passed with
  | true => exact hn left
  | false => exact Nat.le_refl _

namespace Outcome.Alike

variable {o o' : Outcome}

theorem refusal (c : Complaint) (left : List Kind) :
    (Outcome.refusal c (left ++ rest)).Alike deeper rest rest' (.refusal c (left ++ rest')) :=
  .failure c [] left

theorem pass_of_abreast {ks ks' : List Kind} (h : Abreast rest rest' ks ks') :
    (Outcome.pass ks).Alike deeper rest rest' (.pass ks') := by
  cases h with
  | before left => exact .pass left
  | beyond hl => exact .beyond hl _

theorem echo (h : o.Alike deeper rest rest' o') (c : Complaint) :
    (o.echo c).Alike deeper rest rest' (o'.echo c) := by
  cases h with
  | pass left => exact .pass left
  | failure d cs left =>
    rw [echo_failure, echo_failure]
    exact .failure d _ left
  | beyond h =>
    refine .beyond ?_ _
    rcases o with ⟨passed, left, reports⟩
    cases passed with
    | true => exact h
    | false => exact h
  | tooDeep hd hc cs left =>
    rw [echo_failure]
    exact .tooDeep hd hc _ left _

theorem andThen {next next' : List Kind → Outcome} (h : o.Alike deeper rest rest' o')
    (hle : ∀ ks, (next ks).rest.length ≤ ks.length)
    (hn : ∀ left, o = .pass (left ++ rest) →
      (next (left ++ rest)).Alike deeper rest rest' (next' (left ++ rest'))) :
    (o.andThen next).Alike deeper rest rest' (o'.andThen next') := by
  cases h with
  | pass left => exact hn left rfl
  | failure c cs left => exact .failure c cs left
  | beyond h => exact .beyond (Nat.lt_of_le_of_lt (length_rest_andThen_le hle o) h) _
  | tooDeep hd hc cs left => exact .tooDeep hd hc cs left _

/-- With as many levels, a run that stops at the rest is the same in both rows. -/
theorem at_rest (h : o.Alike False rest rest' o') (hs : o.rest = rest) :
    (o = .pass rest ∧ o' = .pass rest') ∨
      ∃ c cs, o = .failure c cs rest ∧ o' = .failure c cs rest' := by
  cases h with
  | pass left =>
    obtain rfl := List.self_eq_append_left.mp hs.symm
    exact .inl ⟨rfl, rfl⟩
  | failure c cs left =>
    obtain rfl := List.self_eq_append_left.mp hs.symm
    exact .inr ⟨c, cs, rfl, rfl⟩
  | beyond h => exact absurd h (hs ▸ Nat.lt_irrefl _)
  | tooDeep hd => exact hd.elim

end Outcome.Alike

/-! ## Rules -/

/-- The two rules do alike on any two rows that are the same up to their rests and
the kinds with which these begin. -/
def Rule.Alike (deeper : Prop) (r r' : Rule) : Prop :=
  ∀ rest rest' : List Kind, rest.head? = rest'.head? → ∀ ahead,
    (r.run (ahead ++ rest)).Alike deeper rest rest' (r'.run (ahead ++ rest'))

/-- The rules one level down are alike, or only the second run has them. -/
inductive LevelsAlike (deeper : Prop) : Option Rule → Option Rule → Prop where
  /-- No level is left in either run. -/
  | none : LevelsAlike deeper none none
  /-- A level is left in both runs. -/
  | some {r r' : Rule} (h : r.Alike deeper r') : LevelsAlike deeper (some r) (some r')
  /-- A level is left in the second run. -/
  | tooDeep (hd : deeper) (r' : Rule) : LevelsAlike deeper none (some r')

namespace Rule.Alike

open Rule (moreOperands moreOperands_nil moreOperands_cons itemsUntil_nil itemsUntil_cons
  one_run_cons ifAhead_run_cons ifNext_run_cons ifNextTwo_run_cons ifNextTwo_run_of_ne
  andIfNext_run items_run)

variable {p : Kind → Bool} {k l : Kind} {c : Complaint}
variable {a a' b b' r r' yes yes' no no' : Rule} {inner inner' : Option Rule}

/-- Alike rules do alike on rows that are abreast. -/
theorem on (h : r.Alike deeper r') (hr : rest.head? = rest'.head?) {ks ks' : List Kind}
    (ha : Abreast rest rest' ks ks') : (r.run ks).Alike deeper rest rest' (r'.run ks') := by
  cases ha with
  | before left => exact h _ _ hr left
  | beyond hl => exact .beyond (Nat.lt_of_le_of_lt (r.fits ks).1 hl) _

/-- A failure at the rest is the same failure in both runs. -/
theorem failure (h : r.Alike deeper r') (hr : rest.head? = rest'.head?) {read : List Kind}
    {cs : List Complaint} (hc : c.isTooDeep = false)
    (hf : r.run (read ++ rest) = .failure c cs rest) :
    r'.run (read ++ rest') = .failure c cs rest' := by
  have alike := h _ _ hr read
  rw [hf] at alike
  generalize ho : Outcome.failure c cs rest = o at alike
  generalize r'.run (read ++ rest') = o' at alike ⊢
  cases alike with
  | pass left => cases congrArg Outcome.passed ho
  | failure d ds left =>
    obtain ⟨rfl, rfl, hl⟩ := Outcome.failure_inj.mp ho
    rw [List.self_eq_append_left.mp hl, List.nil_append]
  | beyond hl =>
    subst ho
    exact absurd hl (Nat.lt_irrefl _)
  | tooDeep _ hd ds left =>
    obtain ⟨rfl, _, _⟩ := Outcome.failure_inj.mp ho
    rw [hc] at hd
    cases hd

/-! ### Reading single kinds -/

theorem refuse : (Rule.refuse c).Alike deeper (.refuse c) := fun _ _ _ ahead => .refusal c ahead

theorem one : (Rule.one p c).Alike deeper (.one p c) := by
  intro rest rest' hr ahead
  have refused : (Outcome.refusal c (ahead ++ rest)).Alike deeper rest rest'
      (.refusal c (ahead ++ rest')) := .refusal c ahead
  rcases Abreast.next hr ahead with ⟨he, he'⟩ | ⟨k, ks, ks', he, he', hks⟩
  · rw [he, he'] at refused ⊢
    exact refused
  · rw [he, he'] at refused ⊢
    rw [one_run_cons, one_run_cons]
    by_cases hk : p k = true
    · rw [if_pos hk, if_pos hk]
      exact .pass_of_abreast hks
    · rw [if_neg hk, if_neg hk]
      exact refused

theorem exactly : (Rule.exactly k c).Alike deeper (.exactly k c) := one

/-! ### Looking ahead -/

theorem ifAhead (hy : yes.Alike deeper yes') (hn : no.Alike deeper no') :
    (Rule.ifAhead p yes no).Alike deeper (.ifAhead p yes' no') := by
  intro rest rest' hr ahead
  have hya := hy _ _ hr ahead
  have hna := hn _ _ hr ahead
  rcases Abreast.next hr ahead with ⟨he, he'⟩ | ⟨k, ks, ks', he, he', _⟩
  · rw [he, he'] at hna ⊢
    exact hna
  · rw [he, he'] at hya hna ⊢
    rw [ifAhead_run_cons, ifAhead_run_cons]
    by_cases hk : p k = true
    · rw [if_pos hk, if_pos hk]
      exact hya
    · rw [if_neg hk, if_neg hk]
      exact hna

theorem ifNext (hy : yes.Alike deeper yes') (hn : no.Alike deeper no') :
    (Rule.ifNext p yes no).Alike deeper (.ifNext p yes' no') := by
  intro rest rest' hr ahead
  have hna := hn _ _ hr ahead
  rcases Abreast.next hr ahead with ⟨he, he'⟩ | ⟨k, ks, ks', he, he', hks⟩
  · rw [he, he'] at hna ⊢
    exact hna
  · rw [he, he'] at hna ⊢
    rw [ifNext_run_cons, ifNext_run_cons]
    by_cases hk : p k = true
    · rw [if_pos hk, if_pos hk]
      exact hy.on hr hks
    · rw [if_neg hk, if_neg hk]
      exact hna

/-- A first kind that is read in any case is read. -/
theorem length_rest_ifNextTwo_le (hread : ∀ ks, (no.run (k :: ks)).rest.length ≤ ks.length)
    (ks : List Kind) :
    ((Rule.ifNextTwo k l yes no).run (k :: ks)).rest.length ≤ ks.length := by
  cases ks with
  | nil => exact hread []
  | cons i ks =>
    rw [ifNextTwo_run_cons]
    by_cases hi : k = k ∧ i = l
    · rw [if_pos hi]
      exact Nat.le_succ_of_le (yes.fits ks).1
    · rw [if_neg hi]
      exact hread _

/-- Two kinds are looked at.  If the first of them is read in any case, the second one
may be the first of the rest. -/
theorem ifNextTwo (hy : yes.Alike deeper yes') (hn : no.Alike deeper no')
    (hread : ∀ ks, (no.run (k :: ks)).rest.length ≤ ks.length) :
    (Rule.ifNextTwo k l yes no).Alike deeper (.ifNextTwo k l yes' no') := by
  intro rest rest' hr ahead
  have hna := hn _ _ hr ahead
  have stay (hne : ∀ t, ahead ++ rest ≠ k :: l :: t) (hne' : ∀ t, ahead ++ rest' ≠ k :: l :: t) :
      ((Rule.ifNextTwo k l yes no).run (ahead ++ rest)).Alike deeper rest rest'
        ((Rule.ifNextTwo k l yes' no').run (ahead ++ rest')) := by
    rw [ifNextTwo_run_of_ne hne, ifNextTwo_run_of_ne hne']
    exact hna
  rcases Abreast.next hr ahead with ⟨he, he'⟩ | ⟨j, ks, ks', he, he', hks⟩
  · exact stay (by rw [he]; nofun) (by rw [he']; nofun)
  by_cases hj : j = k
  · subst hj
    cases hks with
    | beyond hl =>
      -- The second kind lies in the rest, but so does the first, and that is read.
      refine .beyond ?_ _
      rw [he]
      exact Nat.lt_of_le_of_lt (length_rest_ifNextTwo_le hread ks) hl
    | before left =>
      rcases Abreast.next hr left with ⟨hl, hl'⟩ | ⟨i, ks, ks', hl, hl', hks⟩
      · exact stay (by rw [he, hl]; nofun) (by rw [he', hl']; nofun)
      · by_cases hi : i = l
        · rw [he, he', hl, hl', ifNextTwo_run_cons, ifNextTwo_run_cons, if_pos ⟨rfl, hi⟩,
            if_pos ⟨rfl, hi⟩]
          exact hy.on hr hks
        · refine stay (fun t ht => hi ?_) (fun t ht => hi ?_)
          · rw [he, hl] at ht
            exact (List.cons.inj (List.cons.inj ht).2).1
          · rw [he', hl'] at ht
            exact (List.cons.inj (List.cons.inj ht).2).1
  · refine stay (fun t ht => hj ?_) (fun t ht => hj ?_)
    · exact (List.cons.inj (he ▸ ht)).1
    · exact (List.cons.inj (he' ▸ ht)).1

theorem nested (hc : c.isTooDeep = true) (hi : LevelsAlike deeper inner inner') :
    (Rule.nested c inner).Alike deeper (.nested c inner') := by
  cases hi with
  | none => exact refuse
  | some h => exact h
  | tooDeep hd r' => exact fun _ _ _ ahead => .tooDeep hd hc [] _ _

theorem opening (hc : c.isTooDeep = true) (hi : LevelsAlike deeper inner inner')
    (ho : no.Alike deeper no') :
    (Rule.opening k c inner no).Alike deeper (.opening k c inner' no') := by
  cases hi with
  | none => exact ifAhead refuse ho
  | some h => exact ifNext h ho
  | tooDeep hd r' =>
    intro rest rest' hr ahead
    have hoa := ho _ _ hr ahead
    rcases Abreast.next hr ahead with ⟨he, he'⟩ | ⟨j, ks, ks', he, he', _⟩
    · rw [he, he'] at hoa ⊢
      exact hoa
    · rw [he, he'] at hoa ⊢
      by_cases hj : (j == k) = true
      · rw [Rule.opening, Rule.opening, ifAhead_run_cons, if_pos hj]
        exact .tooDeep hd hc [] _ _
      · rw [Rule.opening, Rule.opening, ifAhead_run_cons, ifNext_run_cons, if_neg hj, if_neg hj]
        exact hoa

theorem skipping (h : r.Alike deeper r') : (Rule.skipping p r).Alike deeper (.skipping p r') := by
  intro rest rest' hr ahead
  refine h.on hr ?_
  rw [List.dropWhile_append, List.dropWhile_append]
  by_cases he : (ahead.dropWhile p).isEmpty = true
  · rw [if_pos he, if_pos he]
    rcases Abreast.next hr [] with ⟨hr, hr'⟩ | ⟨k, ks, ks', hr, hr', _⟩
    · rw [show rest = [] from hr, show rest' = [] from hr']
      exact .before []
    · obtain rfl : rest = k :: ks := hr
      obtain rfl : rest' = k :: ks' := hr'
      by_cases hk : p k = true
      · refine .beyond ?_ _
        rw [List.dropWhile_cons_of_pos hk]
        exact Nat.lt_succ_of_le (List.dropWhile_suffix p).length_le
      · rw [List.dropWhile_cons_of_neg hk, List.dropWhile_cons_of_neg hk]
        exact .before []
  · rw [if_neg he, if_neg he]
    exact .before _

/-! ### One part behind another -/

theorem echo (h : r.Alike deeper r') : (r.echo c).Alike deeper (r'.echo c) :=
  fun _ _ hr ahead => (h _ _ hr ahead).echo c

theorem seq (ha : a.Alike deeper a') (hb : b.Alike deeper b') :
    (a.seq b).Alike deeper (a'.seq b') :=
  fun _ _ hr ahead =>
    (ha _ _ hr ahead).andThen (fun ks => (b.fits ks).1) fun left _ => hb _ _ hr left

theorem andIfNext (ha : a.Alike deeper a') (hb : b.Alike deeper b') :
    (a.andIfNext p b).Alike deeper (a'.andIfNext p b') := by
  intro rest rest' hr ahead
  rw [andIfNext_run, andIfNext_run]
  refine (ha _ _ hr ahead).andThen (fun ks => ?_) fun left _ => ?_
  · cases ks with
    | nil => exact Nat.le_refl _
    | cons k ks =>
      rw [orNothing]
      split
      · exact Nat.le_succ_of_le (b.fits ks).1
      · exact Nat.le_refl _
  · have stop : (Outcome.pass (left ++ rest)).Alike deeper rest rest' (.pass (left ++ rest')) :=
      .pass left
    rcases Abreast.next hr left with ⟨he, he'⟩ | ⟨k, ks, ks', he, he', hks⟩
    · rw [he, he'] at stop ⊢
      exact stop
    · rw [he, he'] at stop ⊢
      rw [orNothing, orNothing]
      by_cases hk : p k = true
      · rw [if_pos hk, if_pos hk]
        exact hb.on hr hks
      · rw [if_neg hk, if_neg hk]
        exact stop

/-! ### Loops -/

theorem moreOperands (h : r.Alike deeper r') (hr : rest.head? = rest'.head?) : ∀ ahead,
    (moreOperands p r [] (ahead ++ rest)).Alike deeper rest rest'
      (moreOperands p r' [] (ahead ++ rest')) := by
  intro ahead
  have stop : (Outcome.pass (ahead ++ rest)).Alike deeper rest rest' (.pass (ahead ++ rest')) :=
    .pass ahead
  rcases Abreast.next hr ahead with ⟨he, he'⟩ | ⟨k, ks, ks', he, he', hks⟩
  · rw [he, he'] at stop ⊢
    rw [moreOperands_nil, moreOperands_nil]
    exact stop
  · have length := congrArg List.length he
    rw [he, he'] at stop ⊢
    rw [moreOperands_cons, moreOperands_cons]
    by_cases hk : p k = true
    · rw [if_pos hk, if_pos hk]
      refine (h.on hr hks).andThen (moreOperands_le p r []) fun left hl => ?_
      have shorter : left.length < ahead.length := by
        have least := (r.fits ks).1
        rw [hl, Outcome.rest_pass, List.length_append] at least
        rw [List.length_append, List.length_cons] at length
        omega
      exact moreOperands h hr left
    · rw [if_neg hk, if_neg hk]
      exact stop
termination_by ahead => ahead.length
decreasing_by exact shorter

theorem chain (h : r.Alike deeper r') : (Rule.chain p r).Alike deeper (.chain p r') :=
  fun _ _ hr ahead =>
    (h _ _ hr ahead).andThen (moreOperands_le p r []) fun left _ => moreOperands h hr left

theorem items (h : r.Alike deeper r') : (Rule.items p c r).Alike deeper (.items p c r') := by
  intro rest rest' hr ahead
  have refused : (Outcome.refusal c (ahead ++ rest)).Alike deeper rest rest'
      (.refusal c (ahead ++ rest')) := .refusal c ahead
  have hra := h _ _ hr ahead
  rw [items_run, items_run]
  rcases Abreast.next hr ahead with ⟨he, he'⟩ | ⟨k, ks, ks', he, he', hks⟩
  · rw [he, he'] at refused ⊢
    rw [itemsUntil_nil, itemsUntil_nil]
    exact refused
  · have less := (r.fits (ahead ++ rest)).2
    rw [he, he'] at hra ⊢
    rw [itemsUntil_cons, itemsUntil_cons]
    by_cases hk : p k = true
    · rw [if_pos hk, if_pos hk]
      exact .pass_of_abreast hks
    · rw [if_neg hk, if_neg hk]
      refine hra.andThen (fun ks => ((Rule.items p c r).fits ks).1) fun left hl => ?_
      have shorter : left.length < ahead.length := by
        rw [he, hl] at less
        have := less rfl
        rw [← he, Outcome.rest_pass, List.length_append, List.length_append] at this
        omega
      exact items h _ _ hr left
termination_by _ _ _ ahead => ahead.length
decreasing_by exact shorter

end Rule.Alike

/-! ## The rules of the grammar -/

open Rule (Alike)

variable {inner inner' : Option Rule}

theorem LevelsAlike.map {f : Rule → Rule} (h : LevelsAlike deeper inner inner')
    (hf : ∀ {r r'}, r.Alike deeper r' → (f r).Alike deeper (f r')) :
    LevelsAlike deeper (inner.map f) (inner'.map f) := by
  cases h with
  | none => exact .none
  | some h => exact .some (hf h)
  | tooDeep hd r' => exact .tooDeep hd (f r')

/-! ### Expressions -/

theorem equality_alike (h : LevelsAlike deeper inner inner') :
    (equality inner).Alike deeper (equality inner') := by
  have operand : (operand inner).Alike deeper (operand inner') :=
    Alike.opening rfl (h.map fun hr => Alike.seq hr Alike.exactly) Alike.one
  exact Alike.chain (Alike.chain (Alike.chain (Alike.chain (Alike.skipping operand))))

/-- A chain reads a kind that its first operand reads. -/
theorem length_rest_chain_le {p : Kind → Bool} {r : Rule} {ks ks' : List Kind}
    (h : (r.run ks).rest.length ≤ ks'.length) :
    ((Rule.chain p r).run ks).rest.length ≤ ks'.length :=
  Nat.le_trans (Outcome.length_rest_andThen_le (Rule.moreOperands_le p r []) _) h

/-- An identifier is an operand, so it is read. -/
theorem length_rest_equality_le (inner : Option Rule) (ks : List Kind) :
    ((equality inner).run (.identifier :: ks)).rest.length ≤ ks.length := by
  have operand : (unary inner).run (.identifier :: ks) = .pass ks := by
    cases inner with
    | none => rfl
    | some _ => rfl
  have ofUnary : ((unary inner).run (.identifier :: ks)).rest.length ≤ ks.length := by
    rw [operand]
    exact Nat.le_refl _
  have ofTerm : ((term inner).run (.identifier :: ks)).rest.length ≤ ks.length :=
    length_rest_chain_le (length_rest_chain_le ofUnary)
  exact length_rest_chain_le (length_rest_chain_le ofTerm)

theorem assignment_alike (h : LevelsAlike deeper inner inner') :
    (assignment inner).Alike deeper (assignment inner') :=
  Alike.ifNextTwo (Alike.echo (Alike.nested rfl h)) (equality_alike h)
    (length_rest_equality_le inner)

/-- With as many levels, or more of them if that counts as deeper, an expression is read
alike. -/
theorem expression_alike {n m : Nat} (hle : n ≤ m) (hd : n < m → deeper) :
    (expression n).Alike deeper (expression m) := by
  induction n generalizing m with
  | zero =>
    cases m with
    | zero => exact assignment_alike .none
    | succ m => exact assignment_alike (.tooDeep (hd (Nat.succ_pos m)) _)
  | succ n ih =>
    obtain ⟨m, rfl⟩ : ∃ m', m = m' + 1 := ⟨m - 1, by omega⟩
    refine assignment_alike (.some (ih (Nat.le_of_succ_le_succ hle) fun h => ?_))
    exact hd (Nat.succ_lt_succ h)

/-! ### Statements and declarations -/

section Statements

variable {e e' s s' : Rule} {inBlock inBlock' inConditional inConditional' : Option Rule}

theorem declarationOf_alike (he : e.Alike deeper e') (hs : s.Alike deeper s') :
    (declarationOf e s).Alike deeper (declarationOf e' s') := by
  have ofFunction : (functionTail s).Alike deeper (functionTail s') :=
    Alike.seq Alike.exactly (Alike.echo hs)
  have ofVariable : (variableTail e).Alike deeper (variableTail e') :=
    Alike.ifNext (Alike.seq (Alike.echo he) Alike.exactly) Alike.exactly
  exact Alike.ifNext (Alike.seq Alike.exactly (Alike.ifNext ofFunction ofVariable)) hs

theorem conditionalTail_alike (he : e.Alike deeper e') (hs : s.Alike deeper s') :
    (conditionalTail e s).Alike deeper (conditionalTail e' s') :=
  Alike.seq (Alike.seq Alike.exactly (Alike.seq he Alike.exactly)) (Alike.andIfNext hs hs)

theorem statementOf_alike (he : e.Alike deeper e') (hb : LevelsAlike deeper inBlock inBlock')
    (hc : LevelsAlike deeper inConditional inConditional') :
    (statementOf e inBlock inConditional).Alike deeper
      (statementOf e' inBlock' inConditional') := by
  have ofReturn : (returnTail e).Alike deeper (returnTail e') :=
    Alike.ifAhead Alike.exactly (Alike.seq he Alike.exactly)
  have ofRest : ((Rule.ifNext (· == .keyword .kwReturn) (returnTail e) (simple e))).Alike deeper
      (.ifNext (· == .keyword .kwReturn) (returnTail e') (simple e')) :=
    Alike.ifNext ofReturn (Alike.seq he Alike.exactly)
  exact Alike.opening rfl hb (Alike.opening rfl hc ofRest)

end Statements

theorem statement_alike {n m : Nat} (hle : n ≤ m) (hd : n < m → deeper) :
    (statement n).Alike deeper (statement m) := by
  induction n generalizing m with
  | zero =>
    cases m with
    | zero => exact statementOf_alike (expression_alike hle hd) .none .none
    | succ m =>
      have more := hd (Nat.succ_pos m)
      exact statementOf_alike (expression_alike hle hd) (.tooDeep more _) (.tooDeep more _)
  | succ n ih =>
    obtain ⟨m, rfl⟩ : ∃ m', m = m' + 1 := ⟨m - 1, by omega⟩
    have hle' := Nat.le_of_succ_le_succ hle
    have inner := expression_alike hle' fun h => hd (Nat.succ_lt_succ h)
    have branch := ih hle' fun h => hd (Nat.succ_lt_succ h)
    refine statementOf_alike (expression_alike hle hd) (.some ?_) (.some ?_)
    · exact Alike.items (declarationOf_alike inner branch)
    · exact conditionalTail_alike inner branch

/-- With as many levels, or more of them if that counts as deeper, a declaration is
read alike. -/
theorem declaration_alike {n m : Nat} (hle : n ≤ m) (hd : n < m → deeper) :
    (declaration n).Alike deeper (declaration m) :=
  declarationOf_alike (expression_alike hle hd) (statement_alike hle hd)

end MiniC.Grammar
