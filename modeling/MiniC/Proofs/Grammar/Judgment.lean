import MiniC.Proofs.Grammar.Outcome

/-!
# What a rule reads

`Rule.Meets` is a judgment on rules.  It says of every row of kinds what the rule
makes of it:

* If the rule passes, it has read a part of the row that is `Whole` before the rest.
* If it fails, it has read a part that is `Begun`, unless the first complaint is
  that no level is left.

In both cases what was read and the rest make up the row, a pass reports nothing, and
all complaints of a failure are made where it stopped.

There is one lemma for each combination of rules.  What a combination makes of a row
follows from what its parts make of theirs, so a proof about a rule of the grammar
names the parts and says how a whole is put together from them.
-/

namespace MiniC.Grammar

variable {Whole Whole₁ Whole₂ : List Kind → List Kind → Prop}
variable {Begun Begun₁ Begun₂ : List Kind → Prop}

/-! ## The judgment on outcomes -/

/-- The outcome of reading `ks` is as the two predicates say. -/
inductive Outcome.Meets (Whole : List Kind → List Kind → Prop) (Begun : List Kind → Prop)
    (ks : List Kind) : Outcome → Prop where
  /-- What was read is whole. -/
  | pass (read : List Kind) {rest : List Kind} (he : ks = read ++ rest) (h : Whole read rest) :
    Meets Whole Begun ks (.pass rest)
  /-- What was read is begun, unless no level was left. -/
  | failure (read : List Kind) {rest : List Kind} {c : Complaint} {cs : List Complaint}
    (he : ks = read ++ rest) (h : c.isTooDeep = false → Begun read) :
    Meets Whole Begun ks (.failure c cs rest)

namespace Outcome.Meets

variable {ks : List Kind} {o : Outcome}

/-- The two cases, with the outcome as an equation. -/
theorem pass_or_failure (h : o.Meets Whole Begun ks) :
    (∃ read rest, ks = read ++ rest ∧ o = .pass rest ∧ Whole read rest) ∨
      ∃ read rest c cs, ks = read ++ rest ∧ o = .failure c cs rest ∧
        (c.isTooDeep = false → Begun read) := by
  cases h with
  | pass _ he h => exact Or.inl ⟨_, _, he, rfl, h⟩
  | failure _ he h => exact Or.inr ⟨_, _, _, _, he, rfl, h⟩

/-- A refusal has read nothing. -/
theorem refusal {c : Complaint} (h : c.isTooDeep = false → Begun []) :
    (Outcome.refusal c ks).Meets Whole Begun ks := by
  rw [refusal_eq]
  exact .failure [] (List.nil_append ks).symm h

theorem mono (h : o.Meets Whole₁ Begun₁ ks) (hw : ∀ read rest, Whole₁ read rest → Whole read rest)
    (hb : ∀ read, Begun₁ read → Begun read) : o.Meets Whole Begun ks := by
  cases h with
  | pass read he h => exact .pass read he (hw _ _ h)
  | failure read he h => exact .failure read he fun hc => hb _ (h hc)

/-- An outcome on the kinds behind `read` is one on all of them. -/
theorem behind (read : List Kind) (h : o.Meets (fun more => Whole (read ++ more))
    (fun more => Begun (read ++ more)) ks) : o.Meets Whole Begun (read ++ ks) := by
  cases h with
  | pass more he h => exact .pass (read ++ more) (by rw [he, List.append_assoc]) h
  | failure more he h => exact .failure (read ++ more) (by rw [he, List.append_assoc]) h

theorem echo (h : o.Meets Whole Begun ks) (c : Complaint) : (o.echo c).Meets Whole Begun ks := by
  cases h with
  | pass read he h => exact .pass read he h
  | failure read he h => rw [echo_failure]; exact .failure read he h

theorem andThen {next : List Kind → Outcome} (h : o.Meets Whole₁ Begun₁ ks)
    (hb : ∀ read, Begun₁ read → Begun read)
    (hn : ∀ read rest, Whole₁ read rest → (next rest).Meets (fun more => Whole (read ++ more))
      (fun more => Begun (read ++ more)) rest) : (o.andThen next).Meets Whole Begun ks := by
  cases h with
  | pass read he h =>
    subst he
    exact (hn _ _ h).behind read
  | failure read he h => exact .failure read he fun hc => hb _ (h hc)

end Outcome.Meets

/-! ## The judgment on rules -/

/-- Whatever the rule is tried on, it reads what the two predicates say. -/
def Rule.Meets (r : Rule) (Whole : List Kind → List Kind → Prop) (Begun : List Kind → Prop) :
    Prop :=
  ∀ ks, (r.run ks).Meets Whole Begun ks

namespace Rule.Meets

open Rule (moreOperands moreOperands_nil moreOperands_cons itemsUntil_nil itemsUntil_cons
  one_run_cons ifAhead_run_cons ifNext_run_cons ifNextTwo_run_cons items_run andIfNext_run)

variable {p : Kind → Bool} {k l : Kind} {c : Complaint} {a b r yes no : Rule} {inner : Option Rule}

theorem mono (h : r.Meets Whole₁ Begun₁) (hw : ∀ read rest, Whole₁ read rest → Whole read rest)
    (hb : ∀ read, Begun₁ read → Begun read) : r.Meets Whole Begun :=
  fun ks => (h ks).mono hw hb

/-! ### Reading single kinds -/

theorem refuse (hc : c.isTooDeep = true) : (Rule.refuse c).Meets Whole Begun :=
  fun _ => .refusal fun h => by rw [hc] at h; cases h

theorem one (hw : ∀ k rest, p k = true → Whole [k] rest) (hb : Begun []) :
    (Rule.one p c).Meets Whole Begun := by
  intro ks
  cases ks with
  | nil => exact .refusal fun _ => hb
  | cons k ks =>
    rw [one_run_cons]
    by_cases hk : p k = true
    · rw [if_pos hk]
      exact .pass [k] rfl (hw k ks hk)
    · rw [if_neg hk]
      exact .refusal fun _ => hb

theorem exactly : (Rule.exactly k c).Meets (fun read _ => read = [k]) (fun read => read = []) :=
  one (fun _ _ hj => by rw [eq_of_beq hj]) rfl

/-! ### Looking ahead -/

theorem ifAhead (hy : yes.Meets Whole Begun) (hn : no.Meets Whole Begun) :
    (Rule.ifAhead p yes no).Meets Whole Begun := by
  intro ks
  cases ks with
  | nil => exact hn []
  | cons k ks =>
    rw [ifAhead_run_cons]
    by_cases hk : p k = true
    · rw [if_pos hk]
      exact hy _
    · rw [if_neg hk]
      exact hn _

theorem ifNext (hy : ∀ k, p k = true →
      yes.Meets (fun more => Whole (k :: more)) (fun more => Begun (k :: more)))
    (hn : no.Meets Whole Begun) : (Rule.ifNext p yes no).Meets Whole Begun := by
  intro ks
  cases ks with
  | nil => exact hn []
  | cons k ks =>
    rw [ifNext_run_cons]
    by_cases hk : p k = true
    · rw [if_pos hk]
      exact (hy k hk ks).behind [k]
    · rw [if_neg hk]
      exact hn _

theorem ifNextTwo (hy : yes.Meets (fun more => Whole (k :: l :: more))
      (fun more => Begun (k :: l :: more)))
    (hn : no.Meets Whole Begun) : (Rule.ifNextTwo k l yes no).Meets Whole Begun
  | [] => hn []
  | [_] => hn [_]
  | a :: b :: ks => by
    rw [ifNextTwo_run_cons]
    by_cases h : a = k ∧ b = l
    · rw [if_pos h, h.1, h.2]
      exact (hy ks).behind [k, l]
    · rw [if_neg h]
      exact hn _

theorem opening (hc : c.isTooDeep = true) (hi : ∀ r, inner = some r →
      r.Meets (fun more => Whole (k :: more)) (fun more => Begun (k :: more)))
    (ho : no.Meets Whole Begun) : (Rule.opening k c inner no).Meets Whole Begun := by
  cases inner with
  | none => exact ifAhead (refuse hc) ho
  | some r =>
    refine ifNext (fun j hj => ?_) ho
    rw [eq_of_beq hj]
    exact hi r rfl

theorem nested (hc : c.isTooDeep = true) (hi : ∀ r, inner = some r → r.Meets Whole Begun) :
    (Rule.nested c inner).Meets Whole Begun := by
  cases inner with
  | none => exact refuse hc
  | some r => exact hi r rfl

theorem skipping (h : ∀ skipped, (∀ k ∈ skipped, p k = true) →
      r.Meets (fun more => Whole (skipped ++ more)) (fun more => Begun (skipped ++ more))) :
    (Rule.skipping p r).Meets Whole Begun := by
  intro ks
  have skipped : ∀ k ∈ ks.takeWhile p, p k = true := List.all_eq_true.mp List.all_takeWhile
  have whole := (h _ skipped (ks.dropWhile p)).behind _
  rwa [List.takeWhile_append_dropWhile] at whole

/-! ### One part behind another -/

theorem echo (h : r.Meets Whole Begun) : (r.echo c).Meets Whole Begun := fun ks => (h ks).echo c

theorem seq (ha : a.Meets Whole₁ Begun₁) (hb : b.Meets Whole₂ Begun₂)
    (hw : ∀ read more rest, Whole₁ read (more ++ rest) → Whole₂ more rest →
      Whole (read ++ more) rest)
    (hf : ∀ read, Begun₁ read → Begun read)
    (hs : ∀ read rest more, Whole₁ read rest → Begun₂ more → Begun (read ++ more)) :
    (a.seq b).Meets Whole Begun := by
  refine fun ks => (ha ks).andThen hf fun read rest h => ?_
  rcases (hb rest).pass_or_failure with ⟨x, rest', he, ho, h₂⟩ | ⟨x, rest', c, cs, he, ho, h₂⟩
  · rw [ho]
    exact .pass x he (hw _ _ _ (he ▸ h) h₂)
  · rw [ho]
    exact .failure x he fun hc => hs _ _ _ h (h₂ hc)

theorem andIfNext (ha : a.Meets Whole₁ Begun₁) (hb : b.Meets Whole₂ Begun₂)
    (hstop : ∀ read rest, Whole₁ read rest → (∀ k, rest.head? = some k → p k = false) →
      Whole read rest)
    (hgo : ∀ read k more rest, p k = true → Whole₁ read (k :: (more ++ rest)) → Whole₂ more rest →
      Whole (read ++ k :: more) rest)
    (hf : ∀ read, Begun₁ read → Begun read)
    (hs : ∀ read rest k more, p k = true → Whole₁ read rest → Begun₂ more →
      Begun (read ++ k :: more)) :
    (a.andIfNext p b).Meets Whole Begun := by
  intro ks
  rw [andIfNext_run]
  refine (ha ks).andThen hf fun read rest h => ?_
  cases rest with
  | nil =>
    refine .pass [] rfl ?_
    rw [List.append_nil]
    exact hstop _ _ h fun k hk => by cases hk
  | cons k rest =>
    show Outcome.Meets _ _ _ (if p k then b.run rest else .pass (k :: rest))
    by_cases hk : p k = true
    · rw [if_pos hk]
      rcases (hb rest).pass_or_failure with
        ⟨x, rest', he, ho, h₂⟩ | ⟨x, rest', c, cs, he, ho, h₂⟩
      · rw [ho]
        exact .pass (k :: x) (by rw [he]; rfl) (hgo _ _ _ _ hk (he ▸ h) h₂)
      · rw [ho]
        exact .failure (k :: x) (by rw [he]; rfl) fun hc => hs _ _ _ _ hk h (h₂ hc)
    · rw [if_neg hk]
      refine .pass [] rfl ?_
      rw [List.append_nil]
      refine hstop _ _ h fun j hj => ?_
      obtain rfl := Option.some.inj hj
      exact Bool.eq_false_iff.mpr hk

/-! ### Loops -/

/-- The loop over operands goes on behind what is whole already. -/
theorem moreOperands (hr : r.Meets Whole₁ Begun₁)
    (hgo : ∀ read k more rest, p k = true → Whole read (k :: (more ++ rest)) → Whole₁ more rest →
      Whole (read ++ k :: more) rest)
    (hs : ∀ read rest k more, p k = true → Whole read rest → Begun₁ more →
      Begun (read ++ k :: more)) :
    ∀ (ks read : List Kind), Whole read ks →
      (moreOperands p r [] ks).Meets (fun more => Whole (read ++ more))
        (fun more => Begun (read ++ more)) ks
  | [], read, h => by
    rw [moreOperands_nil]
    exact .pass [] rfl (by rwa [List.append_nil])
  | k :: ks, read, h => by
    rw [moreOperands_cons]
    by_cases hk : p k = true
    · rw [if_pos hk]
      rcases (hr ks).pass_or_failure with ⟨x, rest, he, ho, h₁⟩ | ⟨x, rest, c, cs, he, ho, h₁⟩
      · have shorter : rest.length < (k :: ks).length := by
          rw [he, List.length_cons, List.length_append]
          omega
        have whole := moreOperands hr hgo hs rest (read ++ k :: x) (hgo _ _ _ _ hk (he ▸ h) h₁)
        simp only [List.append_assoc] at whole
        rw [ho, he]
        exact whole.behind (k :: x)
      · rw [ho]
        exact .failure (k :: x) (by rw [he]; rfl) fun hc => hs _ _ _ _ hk h (h₁ hc)
    · rw [if_neg hk]
      exact .pass [] rfl (by rwa [List.append_nil])
termination_by ks => ks.length
decreasing_by exact shorter

theorem chain (hr : r.Meets Whole₁ Begun₁)
    (hfirst : ∀ read rest, Whole₁ read rest → Whole read rest)
    (hgo : ∀ read k more rest, p k = true → Whole read (k :: (more ++ rest)) → Whole₁ more rest →
      Whole (read ++ k :: more) rest)
    (hf : ∀ read, Begun₁ read → Begun read)
    (hs : ∀ read rest k more, p k = true → Whole read rest → Begun₁ more →
      Begun (read ++ k :: more)) :
    (Rule.chain p r).Meets Whole Begun :=
  fun ks => (hr ks).andThen hf fun read rest h =>
    moreOperands hr hgo hs rest read (hfirst read rest h)

theorem items (hr : r.Meets Whole₁ Begun₁) (hlast : ∀ k rest, p k = true → Whole [k] rest)
    (hgo : ∀ read more rest, Whole₁ read (more ++ rest) → Whole more rest →
      Whole (read ++ more) rest)
    (hn : Begun []) (hf : ∀ read, Begun₁ read → Begun read)
    (hs : ∀ read rest more, Whole₁ read rest → Begun more → Begun (read ++ more)) :
    (Rule.items p c r).Meets Whole Begun := by
  intro ks
  cases ks with
  | nil =>
    rw [items_run, itemsUntil_nil]
    exact .refusal fun _ => hn
  | cons k ks =>
    rw [items_run, itemsUntil_cons]
    by_cases hk : p k = true
    · rw [if_pos hk]
      exact .pass [k] rfl (hlast k ks hk)
    · rw [if_neg hk]
      have less := (r.fits (k :: ks)).2
      rcases (hr (k :: ks)).pass_or_failure with
        ⟨x, rest, he, ho, h₁⟩ | ⟨x, rest, d, cs, he, ho, h₁⟩
      · have shorter : rest.length < (k :: ks).length := by
          rw [ho] at less
          exact less rfl
        rw [ho, he]
        refine Outcome.Meets.behind x ?_
        rcases (items hr hlast hgo hn hf hs rest).pass_or_failure with
          ⟨y, rest', he₂, ho₂, h₂⟩ | ⟨y, rest', d, cs, he₂, ho₂, h₂⟩
        · rw [Outcome.pass_andThen, ← items_run, ho₂]
          exact .pass y he₂ (hgo _ _ _ (he₂ ▸ h₁) h₂)
        · rw [Outcome.pass_andThen, ← items_run, ho₂]
          exact .failure y he₂ fun hc => hs _ _ _ h₁ (h₂ hc)
      · rw [ho]
        exact .failure x he fun hc => hf _ (h₁ hc)
termination_by ks => ks.length
decreasing_by exact shorter

end Rule.Meets

end MiniC.Grammar
