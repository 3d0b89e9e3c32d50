import MiniC.Proofs.Grammar.Restart
import MiniC.Proofs.Quoting

/-!
# The places between the rounds

The rounds of a verdict cut its sentence into pieces, one for each round.  The *cursors*
are the places where they are cut, counted in tokens from the front.  The first cursor is
at the front and the last one at the end, and each round moves the cursor on.

A round that passes has read a declaration up to the next cursor.  One that fails has read
up to some place and has dropped the tokens from there to the next cursor, the first place
behind it where reading restarts.

From a cursor on, the diagnostics are those of the tokens behind it, read as a row of their
own.  Neither the levels that were open nor an earlier failure leave anything behind, and
no report blames a token before the cursor at which its round began.

`Verdict.Partitioned` collects all this, and `rounds_partition` proves it.
-/

namespace MiniC

open Grammar (Advances Round nestingLimit roundReports rounds stops topDeclaration)

/-! ## Cursors -/

namespace Verdict

/-- The places at which the rounds begin, and the end. -/
def cursors (v : Verdict) : List Nat :=
  v.rounds.map (v.sentence.position ·.start) ++ [v.sentence.tokens.size]

/-- The diagnostics of the rounds from number `i` on, the first of which is number zero. -/
def diagnosticsFrom (v : Verdict) (i : Nat) : List Diagnostic :=
  ((v.rounds.drop i).flatMap (·.outcome.reports)).map v.sentence.diagnose

theorem diagnosticsFrom_zero (v : Verdict) : v.diagnosticsFrom 0 = v.diagnostics.toList := by
  rw [diagnosticsFrom, List.drop_zero, diagnostics, Collector.toList_ofList, reports]

/-- The rounds cut the sentence at the cursors and restart there. -/
structure Partitioned (v : Verdict) : Prop where
  /-- The first cursor is at the front. -/
  front : v.cursors.head? = some 0
  /-- The last cursor is at the end. -/
  back : v.cursors.getLast? = some v.sentence.tokens.size
  /-- There is a cursor before each round and one behind the last. -/
  length : v.cursors.length = v.rounds.length + 1
  /-- Each round moves the cursor on, over a declaration or over what it drops. -/
  advance : ∀ i p q, v.cursors[i]? = some p → v.cursors[i + 1]? = some q →
    p < q ∧ v.rounds[i]? = some (Round.of topDeclaration (v.sentence.kinds.drop p)) ∧
      Advances nestingLimit v.sentence.kinds p q (topDeclaration.run (v.sentence.kinds.drop p))
  /-- From a cursor on, the diagnostics are those of the tokens behind it and the same end. -/
  restart : ∀ i p e, v.cursors[i]? = some p → e.kind = .endMarker → e.line = v.sentence.endLine →
    v.diagnosticsFrom i = (ofTokens (v.sentence.tokens.toList.drop p ++ [e])).diagnostics.toList

end Verdict

/-! ## The partition -/

namespace Sentence

theorem cursors_eq (s : Sentence) :
    (Verdict.ofSentence s).cursors = (stops nestingLimit s.kinds).map s.position := by
  simp [Verdict.cursors, Verdict.ofSentence, stops, topDeclaration, position, Function.comp_def]

/-- At a cursor stands what lies ahead at one of the stops. -/
theorem stops_of_cursors {s : Sentence} {i p : Nat}
    (h : (Verdict.ofSentence s).cursors[i]? = some p) :
    p ≤ s.tokens.size ∧ (stops nestingLimit s.kinds)[i]? = some (s.kinds.drop p) := by
  rw [cursors_eq, List.getElem?_map] at h
  obtain ⟨ahead, ha, rfl⟩ := Option.map_eq_some_iff.mp h
  have suffix := (Grammar.rounds_drop ha).1
  have ahead_eq := List.suffix_iff_eq_drop.mp suffix
  rw [length_kinds] at ahead_eq
  exact ⟨Nat.sub_le _ _, by rw [position, ← ahead_eq, ha]⟩

/-- The tokens of a sentence are read by the grammar. -/
theorem read_of_mem_ofTokens (row : List Token) :
    ∀ t ∈ (ofTokens row).tokens.toList, t.kind.isComment = false ∧ t.kind ≠ .endMarker := by
  intro t ht
  rw [ofTokens, List.toList_toArray] at ht
  have before := List.all_eq_true.mp List.all_takeWhile t ht
  have kept := (List.mem_filter.mp ((List.takeWhile_sublist _).subset ht)).2
  exact ⟨by simpa using kept, by simpa using before⟩

/-- The last tokens of the sentence of a row, read as a row of their own. -/
theorem diagnostics_drop {row : List Token} {e : Token} (he : e.kind = .endMarker)
    (hl : e.line = (ofTokens row).endLine) (p : Nat) :
    (Verdict.ofTokens ((ofTokens row).tokens.toList.drop p ++ [e])).diagnostics.toList =
      (roundReports nestingLimit ((ofTokens row).kinds.drop p)).map (ofTokens row).diagnose := by
  obtain ⟨tokens, endLine⟩ := ofTokens_concat_of_read
    (fun t ht => read_of_mem_ofTokens row t (List.mem_of_mem_drop ht)) he
  have kinds : (ofTokens ((ofTokens row).tokens.toList.drop p ++ [e])).kinds =
      (ofTokens row).kinds.drop p := by
    rw [Sentence.kinds, tokens, List.map_drop, Sentence.kinds]
  have whole : (ofTokens row).tokens.toList = (ofTokens row).tokens.toList.take p ++
      (ofTokens ((ofTokens row).tokens.toList.drop p ++ [e])).tokens.toList := by
    rw [tokens, List.take_append_drop]
  rw [Verdict.toList_diagnostics, ← kinds]
  exact (map_diagnose_behind nestingLimit whole (hl.symm.trans endLine.symm)).symm

end Sentence

/-- The rounds over a row of tokens partition its sentence, and they restart at every
cursor as if nothing had been read before. -/
theorem rounds_partition (row : List Token) : (Verdict.ofTokens row).Partitioned where
  front := by
    show (Verdict.ofSentence _).cursors.head? = some 0
    rw [Sentence.cursors_eq, List.head?_map, Grammar.head?_stops, Option.map_some,
      Sentence.position, Sentence.length_kinds, Nat.sub_self]
  back := by rw [Verdict.cursors, List.getLast?_concat]
  length := by rw [Verdict.cursors, List.length_append, List.length_map, List.length_singleton]
  advance := by
    intro i p q hp hq
    obtain ⟨within, stop⟩ := Sentence.stops_of_cursors hp
    obtain ⟨within', stop'⟩ := Sentence.stops_of_cursors hq
    obtain ⟨nonempty, round, resume⟩ := Grammar.round_of_stops stop stop'
    have inside : p < (Sentence.ofTokens row).kinds.length := by
      refine Nat.lt_of_not_le fun h => nonempty ?_
      rw [List.drop_eq_nil_of_le h]
    obtain ⟨q', later, bounded, resume', advances⟩ := Grammar.exists_advances nestingLimit inside
    rw [Sentence.length_kinds] at bounded
    have same : q' = q := by
      rw [← Sentence.position_drop bounded, ← resume', resume, Sentence.position_drop within']
    rw [same] at later advances
    exact ⟨later, round, advances⟩
  restart := by
    intro i p e hp he hl
    obtain ⟨_, stop⟩ := Sentence.stops_of_cursors hp
    have behind : (Verdict.ofTokens row).rounds.drop i =
        rounds topDeclaration ((Sentence.ofTokens row).kinds.drop p) :=
      (Grammar.rounds_drop stop).2
    rw [Verdict.diagnosticsFrom, behind]
    exact (Sentence.diagnostics_drop he hl p).symm

/-- `x = ; y; 1` fails at its third and its last token, and the rounds begin at the first,
the fourth and the last token. -/
example : (Verdict.ofTokens [⟨.identifier, "x", 1⟩, ⟨.sign .assign, "=", 1⟩,
      ⟨.sign .semicolon, ";", 1⟩, ⟨.identifier, "y", 2⟩, ⟨.sign .semicolon, ";", 2⟩,
      ⟨.number, "1", 3⟩]).cursors = [0, 3, 5, 6] := by decide +kernel

end MiniC
