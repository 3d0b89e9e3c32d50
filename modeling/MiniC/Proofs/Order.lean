import MiniC.Proofs.Blanking
import MiniC.Proofs.Citation
import MiniC.Proofs.Grammar.FollowUps
import MiniC.Proofs.Lexical.Split

/-!
# The order of diagnostics

Diagnostics come in the order of the source.  A failed declaration blames the place where it
stopped, and its first complaint may blame the token before.  The next round begins behind
that place and blames nothing before its start.  So the places that the grammar blames never
go back, and no place is blamed by two declarations.

Lines grow with the places, in a source.  The lexical diagnostics are in the order of their
lines, and so are those of the grammar behind them.  `diagnostics_ordered` says both, of the
places for every row of tokens and of the lines for every source.
-/

namespace MiniC

/-! ## How far back the reports reach -/

namespace Grammar

variable {room : Nat}

theorem Outcome.Led.length_rest_le_reach {o : Outcome} (h : o.Led) :
    ∀ a ∈ o.reports, o.rest.length ≤ a.reach := by
  cases h with
  | pass rest => nofun
  | failure rest hc hcs =>
    intro a ha
    obtain ⟨c, _, rfl⟩ := List.mem_map.mp ha
    exact Nat.le_add_right _ _

/-- Of one declaration, only the first report may reach behind the place where it stopped. -/
theorem Outcome.Led.pairwise_reach {o : Outcome} (h : o.Led) :
    o.reports.Pairwise fun a b => b.reach ≤ a.reach := by
  have least := h.length_rest_le_reach
  cases h with
  | pass rest => exact .nil
  | @failure c cs rest hc hcs =>
    have followUp : ∀ d ∈ cs, (Report.mk d rest).reach = rest.length := fun d hd =>
      Report.reach_eq (Complaint.blamesPrevious_of_follows (hcs d hd)) rest
    refine .cons (fun b hb => ?_) (List.pairwise_map.mpr (List.pairwise_of_forall_mem_list ?_))
    · obtain ⟨d, hd, rfl⟩ := List.mem_map.mp hb
      rw [followUp d hd]
      exact least _ List.mem_cons_self
    · intro d hd e he
      exact Nat.le_of_eq ((followUp e he).trans (followUp d hd).symm)

/-- A later round reaches less far back than every report of an earlier one. -/
theorem rounds_reach_lt (ks : List Kind) : (rounds (declaration room) ks).Pairwise
    fun r r' => ∀ a ∈ r.outcome.reports, ∀ b ∈ r'.outcome.reports, b.reach < a.reach := by
  refine (rounds_pairwise ks).imp_of_mem fun {r r'} hr hr' ⟨begins, nonempty⟩ a ha b hb => ?_
  have led : r.outcome.Led := by
    rw [(start_of_mem_rounds hr).1]
    exact declaration_led room r.start
  have failed : r.outcome.passed = false := by
    cases ho : r.outcome.passed with
    | false => rfl
    | true =>
      rw [led.reports_eq_nil ho] at ha
      cases ha
  rw [(start_of_mem_rounds hr').1] at hb
  calc b.reach
    _ ≤ r'.start.length := declaration_looksBack room r'.start b hb
    _ < r.outcome.rest.length := Round.length_start_lt failed begins nonempty
    _ ≤ a.reach := led.length_rest_le_reach a ha

/-- A later report of the rounds reaches no further back than an earlier one. -/
theorem roundReports_pairwise (ks : List Kind) :
    (roundReports room ks).Pairwise fun a b => b.reach ≤ a.reach := by
  refine List.pairwise_flatMap.mpr ⟨fun r hr => ?_, (rounds_reach_lt ks).imp ?_⟩
  · rw [(start_of_mem_rounds hr).1]
    exact (declaration_led room r.start).pairwise_reach
  · intro r r' less a ha b hb
    exact Nat.le_of_lt (less a ha b hb)

end Grammar

/-! ## The blamed places -/

/-- The places that the rounds blame, round by round. -/
def Verdict.blames (v : Verdict) : List (List Nat) :=
  v.rounds.map fun r => r.outcome.reports.map v.sentence.blamed

theorem Verdict.flatten_blames (v : Verdict) : v.blames.flatten = v.reports.map v.sentence.blamed := by
  rw [blames, reports, List.map_flatMap, List.flatMap_def]

namespace Sentence

variable (s : Sentence)

theorem blamed_mono {a b : Grammar.Report} (h : b.reach ≤ a.reach) : s.blamed a ≤ s.blamed b := by
  rw [blamed_eq, blamed_eq]
  exact Nat.sub_le_sub_left h _

theorem blamed_lt {a b : Grammar.Report} (h : b.reach < a.reach) (ha : a.reach ≤ s.tokens.size) :
    s.blamed a < s.blamed b := by
  rw [blamed_eq, blamed_eq]
  omega

/-- Over the reports of a sentence, the blamed places do not go back. -/
theorem blamed_pairwise : ((Verdict.ofSentence s).reports.map s.blamed).Pairwise (· ≤ ·) :=
  List.pairwise_map.mpr ((Grammar.roundReports_pairwise s.kinds).imp s.blamed_mono)

/-- A later round blames later places than an earlier one. -/
theorem blames_pairwise :
    (Verdict.ofSentence s).blames.Pairwise fun is js => ∀ i ∈ is, ∀ j ∈ js, i < j := by
  refine List.pairwise_map.mpr ((Grammar.rounds_reach_lt s.kinds).imp_of_mem ?_)
  intro r r' hr _ less i hi j hj
  obtain ⟨a, ha, rfl⟩ := List.mem_map.mp hi
  obtain ⟨b, hb, rfl⟩ := List.mem_map.mp hj
  refine s.blamed_lt (less a ha b hb) ?_
  rw [← s.length_kinds]
  exact Grammar.reach_le_of_mem_roundReports (List.mem_flatMap.mpr ⟨r, hr, ha⟩)

end Sentence

/-! ## Lines -/

/-- The lines of a row of pieces grow, up to the line on which the row ends. -/
theorem place_lines (line : Nat) (ps : List Piece) :
    (place line ps).Pairwise (·.line ≤ ·.line) ∧
      ∀ s ∈ place line ps, line ≤ s.line ∧ s.line ≤ line + newlines (ps.flatMap Piece.text) := by
  induction ps generalizing line with
  | nil => exact ⟨.nil, nofun⟩
  | cons p ps ih =>
    obtain ⟨sorted, within⟩ := ih (line + newlines p.text)
    have below : ∀ s ∈ place (line + newlines p.text) ps, line ≤ s.line ∧
        s.line ≤ line + newlines ((p :: ps).flatMap Piece.text) := by
      intro s hs
      have := within s hs
      rw [List.flatMap_cons, newlines_append]
      omega
    refine ⟨.cons (fun s hs => (below s hs).1) sorted, List.forall_mem_cons.mpr ⟨?_, below⟩⟩
    exact ⟨Nat.le_refl _, Nat.le_add_right _ _⟩

theorem scan_lines (source : String) :
    (Scan.ofSource source).spots.Pairwise (·.line ≤ ·.line) ∧
      ∀ s ∈ (Scan.ofSource source).spots, 1 ≤ s.line ∧ s.line ≤ (Scan.ofSource source).endLine := by
  obtain ⟨ps, _, text, hs⟩ := exists_row source.toList
  have lines := place_lines 1 ps
  rw [text, ← hs] at lines
  exact lines

theorem Spot.line_of_token? {s : Spot} {t : Token} (h : s.token? = some t) : t.line = s.line := by
  rcases s with ⟨line, piece⟩
  cases piece <;> cases h
  rfl

theorem Spot.line_of_diagnostic? {s : Spot} {d : Diagnostic} (h : s.diagnostic? = some d) :
    d.line = s.line := by
  rcases s with ⟨line, piece⟩
  cases piece <;> cases h <;> rfl

namespace Sentence

/-- The lines of the tokens grow, up to the line on which the sentence ends. -/
structure Ascends (s : Sentence) : Prop where
  /-- A later token is on no earlier line. -/
  sorted : s.tokens.toList.Pairwise (·.line ≤ ·.line)
  /-- No token is before the first line or below the end. -/
  within : ∀ t ∈ s.tokens.toList, 1 ≤ t.line ∧ t.line ≤ s.endLine
  /-- The end is not before the first line. -/
  one_le_endLine : 1 ≤ s.endLine

variable {s : Sentence}

theorem lineAt_eq (s : Sentence) (i : Nat) :
    s.lineAt i = (s.tokens.toList[i]?.map Token.line).getD s.endLine := by
  rw [lineAt, ← Array.getElem?_toList]
  cases s.tokens.toList[i]? <;> rfl

theorem Ascends.lineAt_within (h : s.Ascends) (i : Nat) :
    1 ≤ s.lineAt i ∧ s.lineAt i ≤ s.endLine := by
  rw [lineAt_eq]
  cases ht : s.tokens.toList[i]? with
  | none => exact ⟨h.one_le_endLine, Nat.le_refl _⟩
  | some t => exact h.within t (List.mem_of_getElem? ht)

theorem Ascends.lineAt_mono (h : s.Ascends) {i j : Nat} (hij : i ≤ j) : s.lineAt i ≤ s.lineAt j := by
  rcases Nat.lt_or_eq_of_le hij with less | rfl
  · by_cases hj : j < s.tokens.toList.length
    · have hi : i < s.tokens.toList.length := Nat.lt_trans less hj
      rw [lineAt_eq, lineAt_eq, List.getElem?_eq_getElem hi, List.getElem?_eq_getElem hj]
      exact List.pairwise_iff_getElem.mp h.sorted i j hi hj less
    · have atEnd : s.lineAt j = s.endLine := by
        rw [lineAt_eq, List.getElem?_eq_none (Nat.le_of_not_lt hj)]
        rfl
      rw [atEnd]
      exact (h.lineAt_within i).2
  · exact Nat.le_refl _

/-- Of a source, the sentence has the tokens that are no comments, and it ends where the
source does. -/
theorem ofTokens_scan (source : String) :
    (ofTokens (Scan.ofSource source).tokens).tokens.toList =
        ((Scan.ofSource source).spots.filterMap Spot.token?).filter (!·.kind.isComment) ∧
      (ofTokens (Scan.ofSource source).tokens).endLine = (Scan.ofSource source).endLine :=
  ofTokens_concat (kind_ne_endMarker_of_mem_spots source.toList) rfl

/-- The sentence of a source ascends. -/
theorem ascends_ofSource (source : String) :
    (ofTokens (Scan.ofSource source).tokens).Ascends := by
  obtain ⟨sorted, within⟩ := scan_lines source
  obtain ⟨tokens, endLine⟩ := ofTokens_scan source
  refine ⟨?_, fun t ht => ?_, ?_⟩
  · have all : ((Scan.ofSource source).spots.filterMap Spot.token?).Pairwise (·.line ≤ ·.line) :=
      sorted.filterMap _ fun a b hab t ht u hu => by
        rwa [Spot.line_of_token? ht, Spot.line_of_token? hu]
    rw [tokens]
    exact all.sublist List.filter_sublist
  · rw [tokens] at ht
    obtain ⟨spot, hs, hst⟩ := List.mem_filterMap.mp (List.mem_filter.mp ht).1
    rw [Spot.line_of_token? hst, endLine]
    exact within spot hs
  · rw [endLine]
    exact Nat.le_add_right 1 _

end Sentence

/-! ## Diagnostics in order -/

/-- The diagnostics of a row cite places that never go back, and a failed declaration cites
later places than every one before it.  Of a source, the lexical diagnostics come first and
those of the grammar behind them, each in the order of their lines, and all lines are between
the first one and that of the end marker. -/
theorem diagnostics_ordered :
    (∀ row : List Token,
      List.Forall₂ (Cites row) (Verdict.ofTokens row).blames.flatten
          (Verdict.ofTokens row).diagnostics.toList ∧
        (Verdict.ofTokens row).blames.flatten.Pairwise (· ≤ ·) ∧
        (Verdict.ofTokens row).blames.Pairwise fun is js => ∀ i ∈ is, ∀ j ∈ js, i < j) ∧
    ∀ source : String, ∃ lexical syntactic : List Diagnostic,
      (Analysis.ofSource source).diagnostics.toList = lexical ++ syntactic ∧
        (∀ d ∈ lexical, d.isLexical = true) ∧ (∀ d ∈ syntactic, d.isLexical = false) ∧
        lexical.Pairwise (·.line ≤ ·.line) ∧ syntactic.Pairwise (·.line ≤ ·.line) ∧
        ∀ d ∈ lexical ++ syntactic, 1 ≤ d.line ∧ d.line ≤ (Scan.ofSource source).endLine := by
  constructor
  · intro row
    rw [Verdict.flatten_blames]
    exact ⟨forall₂_cites row, Sentence.blamed_pairwise _, Sentence.blames_pairwise _⟩
  · intro source
    obtain ⟨sorted, within⟩ := scan_lines source
    have ascends := Sentence.ascends_ofSource source
    refine ⟨_, _, Collector.toList_append _ _, fun d => isLexical_of_mem_diagnostics,
      fun d => not_isLexical_of_mem_verdict, ?_, ?_, ?_⟩
    · rw [Scan.diagnostics, Collector.toList_ofList]
      exact sorted.filterMap _ fun a b hab d hd e he => by
        rwa [Spot.line_of_diagnostic? hd, Spot.line_of_diagnostic? he]
    · rw [Verdict.diagnostics, Collector.toList_ofList]
      refine List.pairwise_map.mpr ((Grammar.roundReports_pairwise _).imp fun h => ?_)
      exact ascends.lineAt_mono (Sentence.blamed_mono _ h)
    · intro d hd
      rcases List.mem_append.mp hd with hd | hd
      · rw [Scan.diagnostics, Collector.toList_ofList] at hd
        obtain ⟨spot, hs, hsd⟩ := List.mem_filterMap.mp hd
        rw [Spot.line_of_diagnostic? hsd]
        exact within spot hs
      · rw [Verdict.diagnostics, Collector.toList_ofList] at hd
        obtain ⟨r, _, rfl⟩ := List.mem_map.mp hd
        rw [← (Sentence.ofTokens_scan source).2]
        exact ascends.lineAt_within _

end MiniC
