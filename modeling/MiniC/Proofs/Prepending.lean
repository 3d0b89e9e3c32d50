import MiniC.Analysis
import MiniC.Proofs.Grammar.Else
import MiniC.Proofs.Grammar.Rounds
import MiniC.Proofs.Lexical.Split
import MiniC.Proofs.Quoting

/-!
# Putting one source before another

A source with which nothing is wrong can be put before another one, on lines of its own.
The other source is then analysed as it would be by itself, only further down.  That is
`analysis_newline`.

The tokens of the two sources follow one another, since a source without a problem leaves
no comment open.  Its declarations are read as before although more tokens follow, unless
an `else` follows: a conditional at the end would take it.  The rounds over the other
source begin where its tokens do, and none of them blames a token before that.
-/

namespace MiniC

open Grammar (StatementTree nestingLimit roundReports)

/-! ## What a source without problems comes to -/

theorem Analysis.diagnostics_of_success {source : String}
    (h : (Analysis.ofSource source).success = true) :
    (Scan.ofSource source).diagnostics.toList = [] ∧
      (Verdict.ofTokens (Scan.ofSource source).tokens).diagnostics.toList = [] := by
  rw [success, Collector.isEmpty_iff, Analysis.ofSource, Analysis.ofScan,
    Collector.toList_append] at h
  exact List.append_eq_nil_iff.mp h

/-- A source without a lexical problem leaves no comment open. -/
theorem closed_of_diagnostics {source : List Char}
    (h : (Scan.ofChars source).diagnostics.toList = []) : Closed (spots 1 source) := by
  refine closed_of_problems ?_
  rw [h]
  nofun

/-- A row without a syntactic problem is a row of declarations. -/
theorem exists_declarations {row : List Token}
    (h : (Verdict.ofTokens row).diagnostics.toList = []) :
    ∃ ds : StatementTree .declarations, ds.yield = (Sentence.ofTokens row).kinds ∧
      ds.depth ≤ nestingLimit ∧ ds.NearestElse [] := by
  rw [Verdict.toList_diagnostics, List.map_eq_nil_iff, roundReports, List.flatMap_eq_nil_iff] at h
  exact Grammar.whole_of_rounds _ h

/-! ## Two sources -/

/-- The grammar reads no `else` first if it is not the first token but comments. -/
theorem head?_kinds_ne_else {row : List Token}
    (h : ∀ t, row.find? (!·.kind.isComment) = some t → t.kind ≠ .keyword .kwElse) :
    (Sentence.ofTokens row).kinds.head? ≠ some (.keyword .kwElse) := by
  intro he
  rw [Sentence.kinds, List.head?_map] at he
  obtain ⟨t, ht, hk⟩ := Option.map_eq_some_iff.mp he
  have first : row.find? (!·.kind.isComment) = some t := by
    rw [Sentence.ofTokens, List.toList_toArray, List.head?_takeWhile, List.head?_filter] at ht
    exact (Option.filter_eq_some_iff.mp ht).1
  exact h t first hk

/-- Behind a row of declarations, the verdict is that on what follows. -/
theorem toList_diagnostics_append {row row' : List Token} {e : Token}
    (h : ∀ t ∈ row, t.kind ≠ .endMarker) (he : e.kind = .endMarker)
    (hr : (Verdict.ofTokens (row ++ [e])).diagnostics.toList = [])
    (h' : ∃ t ∈ row', t.kind = .endMarker)
    (hn : (Sentence.ofTokens row').kinds.head? ≠ some (.keyword .kwElse)) :
    (Verdict.ofTokens (row ++ row')).diagnostics.toList =
      (Verdict.ofTokens row').diagnostics.toList := by
  obtain ⟨tokens, endLine⟩ := Sentence.ofTokens_append h h'
  obtain ⟨ds, hy, hd, nearest⟩ := exists_declarations hr
  have kinds : (Sentence.ofTokens (row ++ row')).kinds =
      ds.yield ++ (Sentence.ofTokens row').kinds := by
    rw [hy, Sentence.kinds, Sentence.kinds, Sentence.kinds, tokens,
      (Sentence.ofTokens_concat h he).1, List.map_append]
  rw [Verdict.toList_diagnostics, Verdict.toList_diagnostics, kinds,
    Grammar.roundReports_yield_append hd (nearest.of_ne hn)]
  exact Sentence.map_diagnose_behind _ tokens endLine

/-- Behind a source without problems, another one is scanned as it would be by itself. -/
theorem scan_of_success {a b : String} (ha : (Analysis.ofSource a).success = true) :
    (Scan.ofSource (a ++ "\n" ++ b)).tokens =
        (spots 1 a.toList).filterMap Spot.token? ++
          (Scan.ofSource b).tokens.map (Token.down (1 + newlines a.toList)) ∧
      (Scan.ofSource (a ++ "\n" ++ b)).diagnostics.toList =
        (Scan.ofSource b).diagnostics.toList.map (Diagnostic.down (1 + newlines a.toList)) := by
  have lexical : (Scan.ofChars a.toList).diagnostics.toList = [] :=
    (Analysis.diagnostics_of_success ha).1
  have closed : Closed (spots 1 a.toList) := closed_of_diagnostics lexical
  have source : (a ++ "\n" ++ b).toList = a.toList ++ '\n' :: b.toList := by simp
  constructor
  · rw [Scan.ofSource, source, tokens_newline closed]
    rfl
  · rw [Scan.ofSource, source, diagnostics_newline closed, lexical, List.nil_append]
    rfl

/-- Behind a source without problems, the verdict on another one is that on it by itself,
further down, unless it begins with an `else`. -/
theorem verdict_of_success {a b : String} (ha : (Analysis.ofSource a).success = true)
    (hb : ∀ t, (Scan.ofSource b).tokens.find? (!·.kind.isComment) = some t →
      t.kind ≠ .keyword .kwElse) :
    (Verdict.ofTokens (Scan.ofSource (a ++ "\n" ++ b)).tokens).diagnostics.toList =
      (Verdict.ofTokens (Scan.ofSource b).tokens).diagnostics.toList.map
        (Diagnostic.down (1 + newlines a.toList)) := by
  have marker := (Scan.ofSource b).endMarker_mem_tokens
  have syntactic := (Analysis.diagnostics_of_success ha).2
  have first := head?_kinds_ne_else hb
  rw [(scan_of_success ha).1, ← Verdict.toList_diagnostics_down marker]
  refine toList_diagnostics_append (kind_ne_endMarker_of_mem_spots _) rfl syntactic ?_ ?_
  · obtain ⟨t, ht, he⟩ := marker
    exact ⟨_, List.mem_map_of_mem ht, he⟩
  · rwa [Sentence.ofTokens_down marker, Sentence.kinds_down]

/-- A source without problems before another one leaves the analysis of that as it is,
further down, unless that begins with an `else`. -/
theorem analysis_newline {a b : String} (ha : (Analysis.ofSource a).success = true)
    (hb : ∀ t, (Scan.ofSource b).tokens.find? (!·.kind.isComment) = some t →
      t.kind ≠ .keyword .kwElse) :
    (Analysis.ofSource (a ++ "\n" ++ b)).tokens =
        (Analysis.ofSource a).tokens.dropLast ++
          (Analysis.ofSource b).tokens.map (Token.down (1 + newlines a.toList)) ∧
      (Analysis.ofSource (a ++ "\n" ++ b)).diagnostics.toList =
        (Analysis.ofSource b).diagnostics.toList.map (Diagnostic.down (1 + newlines a.toList)) ∧
      (Analysis.ofSource (a ++ "\n" ++ b)).success = (Analysis.ofSource b).success := by
  obtain ⟨tokens, found⟩ := scan_of_success ha (b := b)
  have diagnostics : (Analysis.ofSource (a ++ "\n" ++ b)).diagnostics.toList =
      (Analysis.ofSource b).diagnostics.toList.map (Diagnostic.down (1 + newlines a.toList)) := by
    rw [Analysis.ofSource, Analysis.ofScan, Collector.toList_append, found,
      verdict_of_success ha hb, ← List.map_append, ← Collector.toList_append]
    rfl
  refine ⟨?_, diagnostics, ?_⟩
  · have before : (Analysis.ofSource a).tokens.dropLast =
        (spots 1 a.toList).filterMap Spot.token? := List.dropLast_concat
    rw [before]
    exact tokens
  · rw [Analysis.success, Analysis.success, Bool.eq_iff_iff, Collector.isEmpty_iff,
      Collector.isEmpty_iff, diagnostics, List.map_eq_nil_iff]

/-- An unfinished statement behind a conditional is missing its semicolon on the line below. -/
theorem newline_behind_conditional :
    (Analysis.ofSource "if (x) y;").success = true ∧
      (Analysis.ofSource ("if (x) y;" ++ "\n" ++ "z")).diagnostics.toList =
        [⟨2, .syntactic "Missing ';' after expression" "z"⟩] := by
  have success : (Analysis.ofSource "if (x) y;").success = true := by decide +kernel
  have first : (Scan.ofSource "z").tokens.find? (!·.kind.isComment) =
      some ⟨.identifier, "z", 1⟩ := by decide +kernel
  have alone : (Analysis.ofSource "z").diagnostics.toList =
      [⟨1, .syntactic "Missing ';' after expression" "z"⟩] := by decide +kernel
  obtain ⟨_, below, _⟩ := analysis_newline success fun t ht => by
    obtain rfl := Option.some.inj (first.symm.trans ht)
    nofun
  refine ⟨success, ?_⟩
  rw [below, alone]
  rfl

end MiniC
