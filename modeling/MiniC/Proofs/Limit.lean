import MiniC.Proofs.Citation
import MiniC.Proofs.Grammar.Footing

/-!
# The limit on nesting

A walker with a limit is compared with one that has none.  The two leave the same marks until
the one without a limit opens a construct too many.  There the other one refuses it, and the
next thing it records is its complaint.  So the limit changes nothing for a row that stays
within it, and for any other row it changes nothing before the first construct too many.

The proof goes through `Walks` step by step.  As long as the limit is kept the marks of both
are the same, by `Walks.bounded`, and where they part the walker with the limit fails from
there on up to the round it is in.  The rounds behind are played all the same, by
`exists_traverses`.  What a mark says of a walker without a limit is said by `Mark.Fits`.

`nesting_limit_exact` says this of the verdict on a row of tokens.
-/

namespace MiniC

namespace Grammar

/-! ## Marks within a limit -/

/-- No more than `n` constructs are open at once. -/
def Within (n : Nat) (t : List Mark) : Prop := ∀ k m place, Mark.opened k m place ∈ t → m ≤ n

/-- The first marks are those of a walker who opens too many constructs, and the others are the
same up to there.  Then comes the complaint, announced by the limit. -/
inductive Diverges (n : Nat) : List Mark → List Mark → Prop where
  /-- The construct is refused at this index. -/
  | refused {before : List Mark} (after more : List Mark) (k : Construct) (place : Nat)
    (h : Within n before) :
    Diverges n (before ++ .opened k (n + 1) place :: after)
      (before ++ .logged .limitReached :: .complained k.refusal place :: more)

/-- Tells the mark of a construct that is opened. -/
def Mark.opens : Mark → Bool
  | opened .. => true
  | _ => false

variable {n : Nat} {s : Sentence} {m : Move} {w w' : Walker} {passed : Bool}
variable {t t' u : List Mark} {a : Mark} {k : Construct} {depth place : Nat}

theorem within_nil : Within n [] := nofun

theorem Within.append (h : Within n t) (h' : Within n t') : Within n (t ++ t') :=
  fun k m place hm => (List.mem_append.mp hm).elim (h k m place) (h' k m place)

/-- Where nothing is opened, nothing is opened too many. -/
theorem within_silent (h : ∀ a ∈ t, a.opens = false) : Within n t := by
  intro k m place hm
  cases h _ hm

theorem Within.cons (ha : a.opens = false) (h : Within n t) : Within n (a :: t) :=
  (within_silent (List.forall_mem_singleton.mpr ha)).append h

theorem within_complaint {c : Complaint} {d : Diagnostic} :
    Within n (Mark.complaint c place d) := .cons rfl (.cons rfl within_nil)

theorem within_opened (hd : depth ≤ n) : Within n [.opened k depth place] := by
  intro _ _ _ h
  cases List.mem_singleton.mp h
  exact hd

theorem Resumes.within {p q : Nat} (h : Resumes s p q t) : Within n t := by
  refine within_silent fun a ha => ?_
  have between := h.between a ha
  cases a with
  | opened => cases between
  | _ => rfl

theorem Diverges.prepend (ht : Within n t) (h : Diverges n t' u) :
    Diverges n (t ++ t') (t ++ u) := by
  cases h with
  | refused after more k place h =>
    rw [← List.append_assoc, ← List.append_assoc]
    exact .refused after more k place (ht.append h)

theorem Diverges.cons (ha : a.opens = false) (h : Diverges n t u) : Diverges n (a :: t) (a :: u) :=
  h.prepend (within_silent (List.forall_mem_singleton.mpr ha))

theorem Diverges.append_left (h : Diverges n t u) (t' : List Mark) : Diverges n (t ++ t') u := by
  cases h with
  | refused after more k place h =>
    rw [List.append_assoc, List.cons_append]
    exact .refused (after ++ t') more k place h

theorem Diverges.append_right (h : Diverges n t u) (u' : List Mark) : Diverges n t (u ++ u') := by
  cases h with
  | refused after more k place h =>
    rw [List.append_assoc, List.cons_append, List.cons_append]
    exact .refused after (more ++ u') k place h

/-! ## Two walkers side by side -/

/-- What a walker with the limit `n` does where one without a limit leaves the marks `t`. -/
inductive Bounded (n : Nat) (s : Sentence) (m : Move) (w : Walker) (passed : Bool) (w' : Walker)
    (t : List Mark) : Prop where
  /-- It does the same. -/
  | same (within : Within n t) (h : Walks (some n) s m w passed w' t)
  /-- It fails where the marks part. -/
  | parted {w'' : Walker} {u : List Mark} (h : Walks (some n) s m w false w'' u)
    (parting : Diverges n t u)

theorem below_some {depth : Nat} : Below (some n) depth ↔ depth < n :=
  ⟨fun h => h n rfl, fun h _ hn => Option.some.inj hn ▸ h⟩

/-- Until the limit is passed, a walker with a limit does what one without does. -/
theorem Walks.bounded (h : Walks none s m w passed w' t) (hn : w.depth ≤ n) :
    Bounded n s m w passed w' t := by
  induction h with
  | pass w => exact .same within_nil (.pass w)
  | advance h => exact .same (.cons rfl within_nil) (.advance h)
  | advanceAtEnd h => exact .same within_nil (.advanceAtEnd h)
  | stepBack w => exact .same (.cons rfl within_nil) (.stepBack w)
  | fail hc w => exact .same within_complaint (.fail hc w)
  | failBehind hc w => exact .same (.cons rfl within_complaint) (.failBehind hc w)
  | next hs _ ih =>
    cases ih hn with
    | same within h => exact .same within (.next hs h)
    | parted h parting => exact .parted (.next hs h) parting
  | notNext hs _ ih =>
    cases ih hn with
    | same within h => exact .same within (.notNext hs h)
    | parted h parting => exact .parted (.notNext hs h) parting
  | take hs _ ih =>
    cases ih hn with
    | same within h => exact .same (.cons rfl within) (.take hs h)
    | parted h parting => exact .parted (.take hs h) (.cons rfl parting)
  | notTake hs _ ih =>
    cases ih hn with
    | same within h => exact .same within (.notTake hs h)
    | parted h parting => exact .parted (.notTake hs h) parting
  | whileStop hs => exact .same within_nil (.whileStop hs)
  | whileAgain hs h _ ih ihMore =>
    cases ih hn with
    | same within h =>
      -- the counter is back where it was before the rest of the loop
      cases ihMore (h.depth_eq ▸ hn) with
      | same within' more =>
        exact .same (.append (.cons rfl within) (.cons rfl within')) (.whileAgain hs h more)
      | parted more parting =>
        exact .parted (.whileAgain hs h more) ((parting.cons rfl).prepend (.cons rfl within))
    | parted h parting => exact .parted (.whileBroken hs h) ((parting.cons rfl).append_left _)
  | whileBroken hs _ ih =>
    cases ih hn with
    | same within h => exact .same (.cons rfl within) (.whileBroken hs h)
    | parted h parting => exact .parted (.whileBroken hs h) (parting.cons rfl)
  | upToStop hs => exact .same within_nil (.upToStop hs)
  | upToAgain hs h _ ih ihMore =>
    cases ih hn with
    | same within h =>
      cases ihMore (h.depth_eq ▸ hn) with
      | same within' more =>
        exact .same (within.append (.cons rfl within')) (.upToAgain hs h more)
      | parted more parting =>
        exact .parted (.upToAgain hs h more) ((parting.cons rfl).prepend within)
    | parted h parting => exact .parted (.upToBroken hs h) (parting.append_left _)
  | upToBroken hs _ ih =>
    cases ih hn with
    | same within h => exact .same within (.upToBroken hs h)
    | parted h parting => exact .parted (.upToBroken hs h) parting
  | seq _ _ iha ihb =>
    cases iha hn with
    | same within ha =>
      cases ihb (ha.depth_eq ▸ hn) with
      | same within' hb => exact .same (within.append within') (.seq ha hb)
      | parted hb parting => exact .parted (.seq ha hb) (parting.prepend within)
    | parted ha parting => exact .parted (.seqFailed ha) (parting.append_left _)
  | seqFailed _ ih =>
    cases ih hn with
    | same within h => exact .same within (.seqFailed h)
    | parted h parting => exact .parted (.seqFailed h) parting
  | echoPassed _ ih =>
    cases ih hn with
    | same within h => exact .same within (.echoPassed h)
    | parted h parting => exact .parted (.echoFailed h) (parting.append_right _)
  | echoFailed _ ih =>
    cases ih hn with
    | same within h => exact .same (within.append within_complaint) (.echoFailed h)
    | parted h parting => exact .parted (.echoFailed h) ((parting.append_left _).append_right _)
  | call _ ih =>
    cases ih hn with
    | same within h =>
      exact .same (.append (.cons rfl within) (.cons rfl within_nil)) (.call h)
    | parted h parting =>
      exact .parted (.call h) (((parting.cons rfl).append_left _).append_right _)
  | refused hb => exact absurd nofun hb
  | @nested k w _ _ _ _ _ ih =>
    by_cases hl : w.depth < n
    · have opened : Within n [.opened k w.deeper.depth w.place] := within_opened hl
      cases ih hl with
      | same within h =>
        exact .same ((opened.append within).append (.cons rfl within_nil))
          (.nested (below_some.mpr hl) h)
      | parted h parting =>
        exact .parted (.nested (below_some.mpr hl) h)
          (((parting.prepend opened).append_left _).append_right _)
    · -- the construct is one too many, and the walker with the limit refuses it
      obtain rfl : w.depth = n := Nat.le_antisymm hn (Nat.le_of_not_lt hl)
      exact .parted (.refused fun hb => hl (below_some.mp hb))
        (Diverges.refused _ _ k _ within_nil)

/-- From within the sentence there is a way to where the next round begins. -/
theorem exists_resumes_within {p : Nat} (hp : p ≤ s.tokens.size) :
    ∃ q t, Resumes s p q t ∧ q ≤ s.tokens.size := by
  obtain ⟨t, resumes, _⟩ := exists_resumes (List.drop_suffix p s.kinds)
  rw [Sentence.position_drop hp] at resumes
  exact ⟨_, t, resumes, Nat.sub_le _ _⟩

/-- From within the sentence the rounds are played. -/
theorem exists_traverses_within (hp : w.place ≤ s.tokens.size) (hd : w.depth = 0) :
    ∃ w' t, Traverses (some n) s w w' t := by
  have ahead : Ahead (some n) s 0 n (s.kinds.drop w.place) :=
    ⟨List.drop_suffix _ _, (Nat.zero_add n).symm⟩
  obtain ⟨t, traverses, _⟩ := exists_traverses ahead w.recorded
  rw [Sentence.position_drop hp, ← hd] at traverses
  exact ⟨_, t, traverses⟩

/-- Where the marks of a round part, it fails, and the rounds behind it are played. -/
theorem exists_traverses_of_parting (begun : w.place < s.tokens.size) (hd : w.depth = 0)
    (h : Walks (some n) s (.call .declaration) w false w' u) (parting : Diverges n t u)
    (t' : List Mark) : ∃ w'' v, Traverses (some n) s w w'' v ∧ Diverges n (t ++ t') v := by
  have within := (h.call_within (Nat.le_of_lt begun) fun _ _ => hd ▸ Nat.zero_le _).2.2
  obtain ⟨q, v, resumes, within'⟩ := exists_resumes_within within
  obtain ⟨w'', v', more⟩ := exists_traverses_within (n := n) (w := { w' with place := q }) within'
    (h.depth_eq.trans hd)
  exact ⟨w'', _, .failed begun h resumes more,
    ((parting.append_left t').append_right v).append_right _⟩

/-- The same of the rounds: they are played with the same marks, or with marks that part. -/
theorem Traverses.bounded (h : Traverses none s w w' t) (hd : w.depth = 0)
    (hp : w.place ≤ s.tokens.size) :
    (Within n t ∧ Traverses (some n) s w w' t) ∨
      ∃ w'' u, Traverses (some n) s w w'' u ∧ Diverges n t u := by
  induction h with
  | finished he => exact .inl ⟨within_nil, .finished he⟩
  | passed begun h _ ih =>
    have within := (h.call_within hp nofun).2.2
    cases h.bounded (n := n) (hd ▸ Nat.zero_le n) with
    | same same h =>
      rcases ih (h.depth_eq.trans hd) within with ⟨same', more⟩ | ⟨w'', u, more, parting⟩
      · exact .inl ⟨same.append (.cons rfl same'), .passed begun h more⟩
      · exact .inr ⟨w'', _, .passed begun h more, (parting.cons rfl).prepend same⟩
    | parted h parting => exact .inr (exists_traverses_of_parting begun hd h parting _)
  | failed begun h resumes _ ih =>
    have within := (h.call_within hp nofun).2.2
    obtain ⟨_, _, _, within'⟩ : InOrder none s [] _ ∧ _ := resumes.inOrder within
    cases h.bounded (n := n) (hd ▸ Nat.zero_le n) with
    | same same h =>
      have round := same.append resumes.within
      rcases ih (h.depth_eq.trans hd) within' with ⟨same', more⟩ | ⟨w'', u, more, parting⟩
      · exact .inl ⟨round.append (.cons rfl same'), .failed begun h resumes more⟩
      · exact .inr ⟨w'', _, .failed begun h resumes more, (parting.cons rfl).prepend round⟩
    | parted h parting =>
      rw [List.append_assoc]
      exact .inr (exists_traverses_of_parting begun hd h parting _)

end Grammar

/-! ## The diagnostics of a row -/

open Grammar

/-- The diagnostics of a row of tokens that are made with these marks. -/
def diagnosesOf (row : List Token) (t : List Mark) : List Diagnostic :=
  (reportsOf (.ofTokens row) t).map (Sentence.ofTokens row).diagnose

theorem diagnosesOf_append (row : List Token) (t t' : List Mark) :
    diagnosesOf row (t ++ t') = diagnosesOf row t ++ diagnosesOf row t' := by
  rw [diagnosesOf, reportsOf_append, List.map_append]
  rfl

/-- No diagnostic says that a level is missing. -/
def NoneTooDeep (ds : List Diagnostic) : Prop :=
  ∀ d ∈ ds, d.message ≠ "Expression nested too deeply" ∧ d.message ≠ "Statement nested too deeply"

theorem message_ne_of_isTooDeep {c : Complaint} (h : c.isTooDeep = false) :
    c.message ≠ "Expression nested too deeply" ∧ c.message ≠ "Statement nested too deeply" := by
  cases c <;> first | decide | cases h

/-- Without a limit, nobody complains that a level is missing. -/
theorem noneTooDeep_of_free {row : List Token} {t : List Mark}
    (h : ∀ a ∈ t, ∃ before, a.Fits none (.ofTokens row) before) :
    NoneTooDeep (diagnosesOf row t) := by
  intro d hd
  obtain ⟨r, hr, rfl⟩ := List.mem_map.mp hd
  obtain ⟨a, ha, he⟩ := List.mem_filterMap.mp hr
  obtain ⟨_, fits⟩ := h a ha
  cases a with
  | complained c place =>
    obtain rfl := Option.some.inj he
    exact message_ne_of_isTooDeep (fits rfl)
  | _ => cases he

/-- The construct `k` is refused, behind the kinds `read` and before the kinds `rest`.  It is the
first one that is opened at depth 257 in the marks `free`, and `before` are those before. -/
structure RefusedAt (row : List Token) (free before : List Mark) (k : Construct)
    (read rest : List Kind) (d : Diagnostic) (more : List Diagnostic) : Prop where
  /-- It is opened there. -/
  opened : ∃ after, free =
    before ++ .opened k 257 (read.length + (k.opener.length - k.held.length)) :: after
  /-- None is opened too many before. -/
  within : Within 256 before
  /-- It begins there. -/
  place : kindsRead row = read ++ (k.opener ++ rest)
  /-- The diagnostic says so. -/
  message : d.message = k.refusal.message
  /-- It cites the token where the construct begins, or what stands behind `=`. -/
  cites : Cites row (read.length + (k.opener.length - k.held.length)) d
  /-- What is recorded before is the same, and it is recorded next. -/
  diagnostics : (Verdict.ofTokens row).diagnostics.toList = diagnosesOf row before ++ d :: more
  /-- Nothing of the kind is recorded before. -/
  first : NoneTooDeep (diagnosesOf row before)

/-- A row of tokens is read without a limit with the marks `free`, and with the limit with the
marks `bounded`. -/
structure LimitExact (row : List Token) (free bounded : List Mark) : Prop where
  /-- What is made with the limit is the verdict on the row. -/
  judged : (Verdict.ofTokens row).diagnostics.toList = diagnosesOf row bounded
  /-- What is made without one are the reports with levels for every kind. -/
  unlimited : ∀ room, (kindsRead row).length ≤ room →
    reportsOf (.ofTokens row) free = roundReports room (kindsRead row)
  /-- No routine is called any deeper. -/
  calls : ∀ q m, .entered q m ∈ bounded → m ≤ 256
  /-- If there is nothing to refuse, the limit changes nothing. -/
  transparent : Within 256 free →
    ((Verdict.ofTokens row).accepted = true ↔ diagnosesOf row free = []) ∧
      (Verdict.ofTokens row).diagnostics.toList = diagnosesOf row free
  /-- Otherwise the first construct too many is refused. -/
  exact : ¬ Within 256 free → ∃ before k read rest d more,
    RefusedAt row free before k read rest d more

/-- Marks that part are not within the limit. -/
theorem not_within_of_diverges {n : Nat} {t u : List Mark} (h : Diverges n t u) : ¬ Within n t := by
  intro within
  cases h with
  | refused after more k place _ =>
    exact Nat.not_succ_le_self n
      (within k (n + 1) place (List.mem_append_right _ List.mem_cons_self))

/-- Where a construct is opened, what is held of its beginning lies ahead. -/
theorem drop_opener {k : Construct} (read rest : List Kind) :
    (read ++ (k.opener ++ rest)).drop (read.length + (k.opener.length - k.held.length)) =
      k.held ++ rest := by
  rw [List.drop_length_add_append]
  cases k <;> rfl

/-- A refusal cites the place where it is made. -/
theorem cites_refusal {row : List Token} {k : Construct} {read rest : List Kind}
    (h : kindsRead row = read ++ (k.opener ++ rest)) :
    Cites row (read.length + (k.opener.length - k.held.length))
      ((Sentence.ofTokens row).diagnose ⟨k.refusal, k.held ++ rest⟩) := by
  have here : k.refusal.blamesPrevious = false := by cases k <;> rfl
  have held : k.held.length ≤ k.opener.length := by cases k <;> decide
  have cites := cites_position row (r := ⟨k.refusal, k.held ++ rest⟩) here
  have size : (Sentence.ofTokens row).tokens.size =
      read.length + (k.opener.length + rest.length) := by
    rw [← Sentence.length_kinds, kinds_ofTokens, h, List.length_append, List.length_append]
  have place : (Sentence.ofTokens row).position (k.held ++ rest) =
      read.length + (k.opener.length - k.held.length) := by
    rw [Sentence.position, size, List.length_append]
    omega
  rw [← place]
  exact cites

/-- Where the marks part, the first construct too many is refused. -/
theorem refusedAt_of_diverges {row : List Token} {free bounded : List Mark}
    (h : Diverges 256 free bounded)
    (fits : ∀ a ∈ free, ∃ before, a.Fits none (.ofTokens row) before)
    (judged : (Verdict.ofTokens row).diagnostics.toList = diagnosesOf row bounded) :
    ∃ before k read rest d more, RefusedAt row free before k read rest d more := by
  cases h with
  | @refused before after more k place within =>
    obtain ⟨_, _, begins⟩ := fits _ (List.mem_append_right _ List.mem_cons_self)
    obtain ⟨read, rest, kinds, rfl⟩ : k.BeginsAt (.ofTokens row) place := begins
    have refusal : diagnosesOf row (.logged .limitReached :: .complained k.refusal
        (read.length + (k.opener.length - k.held.length)) :: more) =
        (Sentence.ofTokens row).diagnose ⟨k.refusal, k.held ++ rest⟩ :: diagnosesOf row more := by
      rw [← drop_opener read rest, ← kinds]
      rfl
    rw [diagnosesOf_append, refusal] at judged
    rw [kinds_ofTokens] at kinds
    exact ⟨before, k, read, rest, (Sentence.ofTokens row).diagnose ⟨k.refusal, k.held ++ rest⟩,
      diagnosesOf row more, {
        opened := ⟨after, rfl⟩
        within := within
        place := kinds
        message := rfl
        cites := cites_refusal kinds
        diagnostics := judged
        first := noneTooDeep_of_free fun a ha => fits a (List.mem_append_left _ ha) }⟩

/-- The limit on nesting is kept exactly, and nothing else comes of it. -/
theorem nesting_limit_exact (row : List Token) : ∃ free bounded,
    (∀ w t, Traverses none (.ofTokens row) .start w t ↔
      w = ⟨(Sentence.ofTokens row).tokens.size, 0, diagnosesOf row free⟩ ∧ t = free) ∧
    (∀ w t, Traverses (some nestingLimit) (.ofTokens row) .start w t ↔
      w = .final (.ofTokens row) ∧ t = bounded) ∧
    LimitExact row free bounded := by
  have enough : ∀ room, (kindsRead row).length ≤ room →
      Ahead none (.ofTokens row) 0 room (Sentence.ofTokens row).kinds := by
    intro room h
    rw [← kinds_ofTokens] at h
    exact ⟨List.suffix_rfl, h⟩
  obtain ⟨free, recounts, onlyFree⟩ := exists_traverses_iff (enough _ (Nat.le_refl _))
  obtain ⟨bounded, recounts', onlyBounded⟩ := exists_recounts (.ofTokens row)
  have hf := (onlyFree _ _).mpr ⟨rfl, rfl⟩
  have hb := (onlyBounded _ _).mpr ⟨rfl, rfl⟩
  have judged : (Verdict.ofTokens row).diagnostics.toList = diagnosesOf row bounded := by
    rw [diagnosesOf, recounts'.reports]
    exact Collector.toList_ofList _
  have recorded : diagnosesOf row free = (roundReports (kindsRead row).length
      (Sentence.ofTokens row).kinds).map (Sentence.ofTokens row).diagnose :=
    congrArg (List.map _) recounts.reports
  rw [← recorded] at onlyFree
  have fits : ∀ a ∈ free, ∃ before, a.Fits none (.ofTokens row) before :=
    fun _ => hf.inOrder_start.fits_of_mem
  refine ⟨free, bounded, onlyFree, onlyBounded, judged, fun room hr => ?_, fun q m hm => ?_,
    fun within => ?_, fun deep => ?_⟩
  · obtain ⟨t, recounts, only⟩ := exists_traverses_iff (enough room hr)
    have same := ((only _ _).mpr ⟨rfl, rfl⟩).unique hf
    rw [← same.2, recounts.reports, kinds_ofTokens]
    rfl
  · obtain ⟨_, within⟩ := hb.inOrder_start.fits_of_mem hm
    exact within nestingLimit rfl
  · have same : free = bounded := by
      rcases hf.bounded rfl (Nat.zero_le _) with ⟨_, h⟩ | ⟨_, u, _, parting⟩
      · exact (h.unique hb).2
      · exact absurd within (not_within_of_diverges parting)
    rw [same, ← judged]
    exact ⟨Collector.isEmpty_iff _, rfl⟩
  · rcases hf.bounded rfl (Nat.zero_le _) with ⟨within, _⟩ | ⟨_, u, hu, parting⟩
    · exact absurd within deep
    · obtain ⟨_, rfl⟩ := hu.unique hb
      exact refusedAt_of_diverges parting fits judged

/-- Of 257 blocks inside one another, one is refused. -/
theorem refusedAt_of_blocks : ∃ free before k read rest d more,
    RefusedAt (List.replicate 257 ⟨.sign .leftBrace, "\x7b", 1⟩) free before k read rest d
      more := by
  let row : List Token := List.replicate 257 ⟨.sign .leftBrace, "\x7b", 1⟩
  obtain ⟨free, bounded, hf, _, h⟩ := nesting_limit_exact row
  have deep : ¬ Within 256 free := by
    intro within
    have silent : NoneTooDeep (diagnosesOf row free) :=
      noneTooDeep_of_free fun _ => ((hf _ _).mpr ⟨rfl, rfl⟩).inOrder_start.fits_of_mem
    have one : (Verdict.ofTokens row).diagnostics.toList =
        [⟨1, .syntactic "Statement nested too deeply" "\x7b"⟩] := by decide +kernel
    rw [← (h.transparent within).2, one] at silent
    exact (silent _ List.mem_cons_self).2 rfl
  exact ⟨free, h.exact deep⟩

end MiniC
