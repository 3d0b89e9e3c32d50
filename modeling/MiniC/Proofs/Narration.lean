import MiniC.Proofs.Grammar.Walking
import MiniC.Proofs.Lexical.Head
import MiniC.Proofs.Order

/-!
# The log tells what happened

The log of an analysis is a third account of a run, beside its tokens and its diagnostics.
Events are logged on the way.  The head logs a token when it emits it and a diagnostic when it
records it.  The walker logs a diagnostic when it records it, the limit when it refuses a
construct, and behind a failure where it resumes.  Each of the two says at last how it came out.
`Runs` is such a run, with the head over the source and the walker over the tokens that it found.
When the diagnostics of both are put together nothing is logged any more.

The log is then compared with the other two accounts, line by line.

* The scan logs every token and every lexical diagnostic in the order in which they are found
  when the source is taken apart, which is `Splits`, and then counts them.
* The grammar counts the tokens that it reads.  Of a round that passes it says nothing.  Of a
  round that fails it logs the diagnostics, and a line before each that says that no level is
  left, and at last where the round stopped and where the next one begins (`RoundLog`).  The
  last line says whether the sentence is accepted.

`log_narrates` says that there is one run over every source, that it comes to the analysis and
leaves the log of the source, and that this log is like that.  Each diagnostic of the analysis is
recorded once and in order, and the stretches of the sentence that are dropped behind failures
follow one another without overlap.
-/

namespace MiniC

open Grammar (Mark Recognizes Report Round Walker eventsOf nestingLimit)

/-! ## Runs -/

/-- A run over a source comes to these tokens and these diagnostics, and this is logged on the
way. -/
inductive Runs (source : String) : List Token → List Diagnostic → List Event → Prop where
  /-- The source is scanned and the tokens are read.  The diagnostics of the grammar are put
  behind those of the scan, and nothing is logged of that. -/
  | mk {h : Head} {w : Walker} {t : List Mark} (scan : h = .scan source.toList)
    (recognize : Recognizes (some nestingLimit) (.ofTokens h.tokens) w t) :
    Runs source h.tokens (h.diagnostics ++ w.recorded) (h.logged ++ eventsOf t)

/-- There is one run over a source.  It comes to the analysis, and what it logs is the log. -/
theorem runs_iff {source : String} {ts : List Token} {ds : List Diagnostic} {log : List Event} :
    Runs source ts ds log ↔ ts = (Analysis.ofSource source).tokens ∧
      ds = (Analysis.ofSource source).diagnostics.toList ∧ log = logOf source := by
  obtain ⟨tokens, diagnostics, logged⟩ := Head.scan_eq source
  obtain ⟨t, events, recognizes⟩ :=
    Grammar.exists_recognizes (.ofTokens (Scan.ofSource source).tokens)
  have whole : (Scan.ofSource source).diagnostics.toList ++
      (Walker.final (.ofTokens (Scan.ofSource source).tokens)).recorded =
        (Analysis.ofSource source).diagnostics.toList := (Collector.toList_append _ _).symm
  have log_eq : (Scan.ofSource source).events ++ eventsOf t = logOf source := by
    rw [events]
    rfl
  constructor
  · rintro ⟨rfl, recognize⟩
    rw [tokens] at recognize
    obtain ⟨rfl, rfl⟩ := (recognizes _ _).mp recognize
    rw [tokens, diagnostics, logged]
    exact ⟨rfl, whole, log_eq⟩
  · rintro ⟨rfl, rfl, rfl⟩
    have recognize := (recognizes _ _).mpr ⟨rfl, rfl⟩
    rw [← tokens] at recognize
    have run : Runs source _ _ _ := .mk rfl recognize
    rw [tokens, diagnostics, logged, whole, log_eq] at run
    exact run

/-! ## Lines -/

namespace Event

/-- An event as a line: the name of its level, and its text. -/
def line (e : Event) : String × String := (e.level.name, e.text)

/-- The diagnostic that an event records. -/
def recorded? : Event → Option Diagnostic
  | recorded d => some d
  | _ => none

end Event

/-- The lines for a diagnostic of the grammar. -/
def reportLines (d : Diagnostic) : List (String × String) :=
  if d.message ∈ ["Expression nested too deeply", "Statement nested too deeply"] then
    [("DEBUG", "nesting limit of 256 reached"), ("DEBUG", d.render)]
  else [("DEBUG", d.render)]

/-- The line for a scan with so many tokens, the end marker included, and so many
diagnostics. -/
def scanLine (tokens diagnostics : Nat) : String × String :=
  ("DEBUG",
    "scanned " ++ toString tokens ++ " tokens with " ++ toString diagnostics ++ " diagnostics")

/-- The line for a sentence of so many tokens. -/
def readingLine (tokens : Nat) : String × String :=
  ("DEBUG", "recognizing " ++ toString tokens ++ " tokens")

/-- The line for a round that failed behind so many tokens, if the next one begins behind so
many. -/
def skipLine (stopped resumed : Nat) : String × String :=
  ("TRACE", "synchronized from token " ++ toString stopped ++ " to token " ++ toString resumed)

/-- The line for a sentence with these diagnostics. -/
def verdictLine (ds : List Diagnostic) : String × String :=
  ("DEBUG", (if ds = [] then "recognition succeeded with " else "recognition failed with ") ++
    toString ds.length ++ " diagnostics")

theorem isTooDeep_iff (c : Grammar.Complaint) : c.isTooDeep = true ↔
    c.message ∈ ["Expression nested too deeply", "Statement nested too deeply"] := by
  cases c <;> decide

theorem Verdict.map_line_reportEvents (v : Verdict) (r : Report) :
    (v.reportEvents r).map Event.line = reportLines (v.sentence.diagnose r) := by
  have limit : Event.line .limitReached = ("DEBUG", "nesting limit of 256 reached") := by
    decide +kernel
  have message : (v.sentence.diagnose r).message = r.complaint.message := rfl
  rw [reportEvents, reportLines, message]
  by_cases h : r.complaint.isTooDeep = true
  · rw [if_pos h, if_pos ((isTooDeep_iff _).mp h), List.map_append, List.map_singleton, limit]
    rfl
  · rw [if_neg h, if_neg (mt (isTooDeep_iff _).mpr h)]
    rfl

theorem line_judged (c : Collector) :
    Event.line (.judged c.isEmpty c.size) = verdictLine c.toList := by
  rcases c with ⟨⟨ds⟩⟩
  cases ds <;> rfl

/-! ## What the scan logs -/

/-- The line for what is found in a source. -/
def foundLine : Token ⊕ Diagnostic → String × String
  | .inl t => ("TRACE", t.render)
  | .inr d => ("DEBUG", d.render)

/-- The spots of a source log what is found at them. -/
theorem map_line_spots (row : List Spot) : (row.filterMap Spot.event?).map Event.line =
    (row.filterMap Spot.finding?).map foundLine := by
  rw [List.map_filterMap, List.map_filterMap]
  congr 1
  funext s
  rcases s with ⟨line, piece⟩
  cases piece <;> rfl

/-! ## What the grammar logs -/

/-- The rounds over a sentence come to these diagnostics.  Behind failures they skip from the
first to the second place of each pair, and they are logged in these lines. -/
inductive RoundLog (s : Sentence) : List Round → List Diagnostic → List (Nat × Nat) →
    List (String × String) → Prop where
  /-- There are no rounds. -/
  | done : RoundLog s [] [] [] []
  /-- The first round has passed, of which nothing is said. -/
  | passed {r : Round} {rs : List Round} {ds : List Diagnostic} {skips : List (Nat × Nat)}
    {ls : List (String × String)} (hp : r.outcome.passed = true) (h : RoundLog s rs ds skips ls) :
    RoundLog s (r :: rs) ds skips ls
  /-- The first round has failed, with its diagnostics. -/
  | failed {r : Round} {rs : List Round} {made ds : List Diagnostic} {stopped resumed : Nat}
    {skips : List (Nat × Nat)} {ls : List (String × String)} (hp : r.outcome.passed = false)
    (hm : made = r.outcome.reports.map s.diagnose) (hs : r.outcome.rest = s.kinds.drop stopped)
    (hr : r.resume = s.kinds.drop resumed) (h : RoundLog s rs ds skips ls) :
    RoundLog s (r :: rs) (made ++ ds) ((stopped, resumed) :: skips)
      (made.flatMap reportLines ++ skipLine stopped resumed :: ls)

/-- A log in lines: first what the scan has found and its counts, then how many tokens the grammar
reads, what it logs of the rounds, and the verdict. -/
inductive SourceLog (source : String) (v : Verdict) (found : List (Token ⊕ Diagnostic))
    (made : List Diagnostic) (skips : List (Nat × Nat)) : List (String × String) → Prop where
  /-- The parts follow one another. -/
  | mk {late : List (String × String)} (scan : Splits [] source.toList found)
    (rounds : RoundLog v.sentence v.rounds made skips late) :
    SourceLog source v found made skips
      (found.map foundLine ++
        [scanLine ((found.filterMap Sum.getLeft?).length + 1)
            (found.filterMap Sum.getRight?).length,
          readingLine ((found.filterMap Sum.getLeft?).filter (!·.kind.isComment)).length] ++
        late ++ [verdictLine made])

/-- Over a sentence of `n` tokens, what is skipped later lies behind what is skipped before. -/
structure SkipsForward (n : Nat) (skips : List (Nat × Nat)) : Prop where
  /-- What is skipped later begins no sooner than what is skipped before ends, and not where
  that begins. -/
  apart : skips.Pairwise fun a b => a.2 ≤ b.1 ∧ a.1 < b.1
  /-- Something is skipped unless nothing is left, and the end is not passed. -/
  forward : ∀ a ∈ skips, a.2 ≤ n ∧ (a.1 < a.2 ∨ a.1 = n ∧ a.2 = n)

/-- A round that passes has nothing to report, and what a round leaves lies ahead of it in the
sentence. -/
theorem round_facts {s : Sentence} {r : Round} (h : r ∈ (Verdict.ofSentence s).rounds) :
    (r.outcome.passed = true → r.outcome.reports = []) ∧ r.outcome.rest <:+ s.kinds ∧
      r.resume <:+ s.kinds := by
  obtain ⟨he, hs⟩ := Grammar.start_of_mem_rounds h
  rw [he]
  exact ⟨(Grammar.declaration_led nestingLimit r.start).reports_eq_nil,
    (Grammar.declaration_rest_suffix r.start).trans hs, (Grammar.resume_suffix r.start).trans hs⟩

/-- The places from which and to which a round skips. -/
def Sentence.skip (s : Sentence) (r : Round) : Nat × Nat :=
  (s.position r.outcome.rest, s.position r.resume)

/-- What is skipped behind the rounds that failed. -/
def Verdict.skips (v : Verdict) : List (Nat × Nat) :=
  (v.rounds.filter (!·.outcome.passed)).map v.sentence.skip

/-- Rounds are logged in order. -/
theorem roundLog_of_rounds (v : Verdict) {rs : List Round}
    (h : ∀ r ∈ rs, (r.outcome.passed = true → r.outcome.reports = []) ∧
      r.outcome.rest <:+ v.sentence.kinds ∧ r.resume <:+ v.sentence.kinds) :
    RoundLog v.sentence rs ((rs.flatMap (·.outcome.reports)).map v.sentence.diagnose)
      ((rs.filter (!·.outcome.passed)).map v.sentence.skip)
      ((rs.flatMap v.roundEvents).map Event.line) := by
  induction rs with
  | nil => exact .done
  | cons r rs ih =>
    obtain ⟨⟨silent, rest, resume⟩, others⟩ := List.forall_mem_cons.mp h
    have behind := ih others
    rw [List.flatMap_cons, List.flatMap_cons, List.map_append, List.map_append]
    cases hp : r.outcome.passed with
    | true =>
      rw [silent hp, Verdict.roundEvents, if_pos hp, List.filter_cons_of_neg (by simp [hp])]
      exact .passed hp behind
    | false =>
      have lines : (v.roundEvents r).map Event.line =
          (r.outcome.reports.map v.sentence.diagnose).flatMap reportLines ++
            [skipLine (v.sentence.skip r).1 (v.sentence.skip r).2] := by
        rw [Verdict.roundEvents, if_neg (by simp [hp]), List.map_append, List.map_flatMap,
          List.flatMap_map]
        simp only [Verdict.map_line_reportEvents]
        rfl
      rw [lines, List.append_assoc, List.filter_cons_of_pos (by simp [hp])]
      exact .failed hp rfl (Sentence.drop_position rest).symm (Sentence.drop_position resume).symm
        behind

/-- A round that fails stops within the sentence. -/
theorem stopped_of_mem_failed {s : Sentence} {r : Round}
    (h : r ∈ (Verdict.ofSentence s).rounds.filter (!·.outcome.passed)) :
    r.outcome.passed = false ∧ r.outcome.rest.length ≤ s.tokens.size := by
  obtain ⟨hr, failed⟩ := List.mem_filter.mp h
  rw [← s.length_kinds]
  exact ⟨by simpa using failed, (round_facts hr).2.1.length_le⟩

/-- What the rounds over a sentence skip, they skip forward. -/
theorem skipsForward_rounds (s : Sentence) :
    SkipsForward s.tokens.size (Verdict.ofSentence s).skips where
  apart := by
    refine List.pairwise_map.mpr (((Grammar.rounds_pairwise s.kinds).filter _).imp_of_mem ?_)
    intro r r' hr hr' ⟨begins, nonempty⟩
    obtain ⟨failed, within⟩ := stopped_of_mem_failed hr
    have later : r'.outcome.rest.length ≤ r'.start.length := by
      rw [(Grammar.start_of_mem_rounds (List.mem_filter.mp hr').1).1]
      exact (Grammar.declaration_rest_suffix r'.start).length_le
    have behind := Round.length_start_lt failed begins nonempty
    have left := begins.length_le
    simp only [Verdict.ofSentence, Sentence.skip, Sentence.position]
    omega
  forward := by
    intro a ha
    obtain ⟨r, hr, rfl⟩ := List.mem_map.mp ha
    obtain ⟨failed, within⟩ := stopped_of_mem_failed hr
    simp only [Verdict.ofSentence, Sentence.skip, Sentence.position, Round.resume_of_failed failed]
    cases hrest : r.outcome.rest with
    | nil => exact ⟨Nat.sub_le _ _, .inr ⟨Nat.sub_zero _, Nat.sub_zero _⟩⟩
    | cons k rest =>
      -- One kind at least is dropped, so the next round begins behind the place of the failure.
      have less : (Grammar.resync (k :: rest)).length < rest.length + 1 :=
        Grammar.resync_length_lt (Nat.le_refl _)
      rw [hrest, List.length_cons] at within
      simp only [List.length_cons]
      omega

/-! ## What is recorded -/

/-- The scan records its diagnostics. -/
theorem recorded_scan (s : Scan) : s.events.filterMap Event.recorded? = s.diagnostics.toList := by
  have spot (x : Spot) : x.event?.bind Event.recorded? = x.diagnostic? := by
    rcases x with ⟨line, piece⟩
    cases piece <;> rfl
  rw [Scan.events, Scan.diagnostics, Collector.toList_ofList, List.filterMap_append,
    List.filterMap_filterMap]
  simp [spot, Event.recorded?]

/-- A round records the diagnostics of its reports. -/
theorem recorded_round (v : Verdict) {r : Round}
    (h : r.outcome.passed = true → r.outcome.reports = []) :
    (v.roundEvents r).filterMap Event.recorded? = r.outcome.reports.map v.sentence.diagnose := by
  have report (x : Report) :
      (v.reportEvents x).filterMap Event.recorded? = [v.sentence.diagnose x] := by
    rw [Verdict.reportEvents]
    split <;> rfl
  rw [Verdict.roundEvents]
  split
  · next passed => rw [h passed]; rfl
  · simp [List.filterMap_flatMap, report, Event.recorded?, List.map_eq_flatMap]

/-- The grammar records its diagnostics. -/
theorem recorded_verdict (s : Sentence) :
    (Verdict.ofSentence s).events.filterMap Event.recorded? =
      (Verdict.ofSentence s).diagnostics.toList := by
  have rounds : ((Verdict.ofSentence s).rounds.flatMap (Verdict.ofSentence s).roundEvents).filterMap
      Event.recorded? = (Verdict.ofSentence s).reports.map s.diagnose := by
    rw [List.filterMap_flatMap, Verdict.reports, List.map_flatMap]
    refine List.flatMap_congr fun r hr => ?_
    exact recorded_round _ (round_facts hr).1
  rw [Verdict.events, List.filterMap_append, List.filterMap_append, rounds, Verdict.diagnostics,
    Collector.toList_ofList]
  exact List.append_nil _

/-! ## The log of a source -/

theorem Scan.map_line_events (s : Scan) : s.events.map Event.line =
    (s.spots.filterMap Spot.finding?).map foundLine ++
      [scanLine ((s.spots.filterMap Spot.token?).length + 1)
        (s.spots.filterMap Spot.diagnostic?).length] := by
  rw [events, List.map_append, List.map_singleton, tokens, List.length_append, diagnostics,
    Collector.size_eq_length, Collector.toList_ofList, map_line_spots]
  rfl

theorem Verdict.map_line_events (v : Verdict) : v.events.map Event.line =
    [readingLine v.sentence.tokens.size] ++ (v.rounds.flatMap v.roundEvents).map Event.line ++
      [verdictLine v.diagnostics.toList] := by
  rw [events, List.map_append, List.map_append, List.map_singleton, List.map_singleton,
    accepted, line_judged]
  rfl

/-- The lines of a log are those of its parts. -/
theorem sourceLog_logOf (source : String) :
    SourceLog source (Verdict.ofTokens (Scan.ofSource source).tokens)
      ((Scan.ofSource source).spots.filterMap Spot.finding?)
      (Verdict.ofTokens (Scan.ofSource source).tokens).diagnostics.toList
      (Verdict.ofTokens (Scan.ofSource source).tokens).skips
      ((logOf source).map Event.line) := by
  have rounds := roundLog_of_rounds (Verdict.ofTokens (Scan.ofSource source).tokens)
    fun r hr => round_facts hr
  rw [← Verdict.reports] at rounds
  have read : (Verdict.ofTokens (Scan.ofSource source).tokens).sentence.tokens.size =
      (((Scan.ofSource source).spots.filterMap Spot.token?).filter
        (!·.kind.isComment)).length := by
    rw [← (Sentence.ofTokens_scan source).1]
    exact Array.length_toList.symm
  have lines : (logOf source).map Event.line =
      (Scan.ofSource source).events.map Event.line ++
        (Verdict.ofTokens (Scan.ofSource source).tokens).events.map Event.line :=
    List.map_append
  rw [lines, Scan.map_line_events, Verdict.map_line_events, read, List.append_assoc,
    ← List.append_assoc [_], ← List.append_assoc [_], ← List.append_assoc, ← List.append_assoc,
    ← filterMap_getLeft?_finding?, ← filterMap_getRight?_finding?]
  refine .mk (splits_spots [] source.toList) ?_
  rw [Verdict.diagnostics, Collector.toList_ofList]
  exact rounds

/-- There is one run over each source, which comes to the analysis, and what is logged on the way
is the log of the source.  That log names what is found in the source, the tokens and the lexical
diagnostics, where they begin, counts them and the tokens that the grammar reads, names for each
round that failed its diagnostics and what was skipped behind them, and ends with the verdict.  It
records the diagnostics of the analysis, each once and in order, and what is skipped is skipped
forward. -/
theorem log_narrates (source : String) :
    (∀ ts ds log, Runs source ts ds log ↔ ts = (Analysis.ofSource source).tokens ∧
      ds = (Analysis.ofSource source).diagnostics.toList ∧ log = logOf source) ∧
    ∃ (found : List (Token ⊕ Diagnostic)) (made : List Diagnostic) (skips : List (Nat × Nat)),
      (Analysis.ofSource source).tokens =
        found.filterMap Sum.getLeft? ++ [.endMarker (1 + newlines source.toList)] ∧
      (Analysis.ofSource source).diagnostics.toList = found.filterMap Sum.getRight? ++ made ∧
      SourceLog source (Verdict.ofTokens (Scan.ofSource source).tokens) found made skips
        ((logOf source).map Event.line) ∧
      (logOf source).filterMap Event.recorded? = (Analysis.ofSource source).diagnostics.toList ∧
      SkipsForward ((found.filterMap Sum.getLeft?).filter (!·.kind.isComment)).length skips := by
  have whole : (Analysis.ofSource source).diagnostics.toList =
      (Scan.ofSource source).diagnostics.toList ++
        (Verdict.ofTokens (Scan.ofSource source).tokens).diagnostics.toList :=
    Collector.toList_append _ _
  refine ⟨fun _ _ _ => runs_iff, _, _, _, ?_, ?_, sourceLog_logOf source, ?_, ?_⟩
  · rw [filterMap_getLeft?_finding?]
    rfl
  · rw [whole, filterMap_getRight?_finding?, Scan.diagnostics, Collector.toList_ofList]
  · rw [whole, logOf, List.filterMap_append, recorded_scan]
    exact congrArg _ (recorded_verdict _)
  · rw [filterMap_getLeft?_finding?, ← (Sentence.ofTokens_scan source).1, Array.length_toList]
    exact skipsForward_rounds _

end MiniC
