import MiniC.Proofs.Quoting
import Mathlib.Data.List.Forall2

/-!
# What diagnostics cite

A diagnostic of the grammar *cites* a token of the row, or its end.  The rules see the kinds
of a row and nothing else, so the places that are cited and what is said of them are a
function of the kinds.  Lexemes and lines come in when the cited token is quoted, and they
are those of the row itself.

`Cites` says what it is to cite a place, in terms of the row alone: comments do not count,
what stands behind the first end marker does not count, and the end is on the line of that
marker.  `forall₂_cites` says that the diagnostics of a row cite the places that its reports blame, and
`map_blamed_reports` that the kinds determine these.  So two rows of the same kinds are judged
alike, which is `diagnostics_of_kinds`.
-/

namespace MiniC

open Grammar (Report nestingLimit roundReports)

/-! ## Citing a place -/

/-- The row ends on this line. -/
inductive EndsOn : List Token → Nat → Prop where
  /-- The first end marker is on it. -/
  | marked {before after : List Token} {e : Token} (he : e.kind = .endMarker)
    (h : ∀ t ∈ before, t.kind ≠ .endMarker) : EndsOn (before ++ e :: after) e.line
  /-- There is no end marker, and the last token is on it. -/
  | unmarked {before : List Token} {last : Token}
    (h : ∀ t ∈ before ++ [last], t.kind ≠ .endMarker) : EndsOn (before ++ [last]) last.line
  /-- There is no token, and it is the first line. -/
  | empty : EndsOn [] 1

/-- The diagnostic cites the place `i` among the tokens that are read of the row. -/
inductive Cites (row : List Token) : Nat → Diagnostic → Prop where
  /-- It has the line and the label of the token there. -/
  | token {i : Nat} {t : Token} (message : String) (ht : (tokensRead row)[i]? = some t) :
    Cites row i ⟨t.line, .syntactic message t.label⟩
  /-- Behind the last token, it has the line of the end and the name of an end marker. -/
  | atEnd {line : Nat} (message : String) (hl : EndsOn row line) :
    Cites row (tokensRead row).length ⟨line, .syntactic message "EOF_TOKEN"⟩

theorem endsOn_endLineOf (row : List Token) : EndsOn row (Sentence.endLineOf row) := by
  rw [Sentence.endLineOf]
  cases hf : row.find? (·.kind == .endMarker) with
  | some e =>
    obtain ⟨he, before, after, rfl, hb⟩ := List.find?_eq_some_iff_append.mp hf
    exact .marked (by simpa using he) fun t ht => by simpa using hb t ht
  | none =>
    have unmarked : ∀ t ∈ row, t.kind ≠ .endMarker := by simpa using hf
    cases hl : row.getLast? with
    | none =>
      obtain rfl := List.getLast?_eq_none_iff.mp hl
      exact .empty
    | some last =>
      obtain ⟨before, rfl⟩ := List.getLast?_eq_some_iff.mp hl
      exact .unmarked unmarked

/-- A report is quoted as a diagnostic that cites the blamed token. -/
theorem cites_diagnose (row : List Token) (r : Report) :
    Cites row ((Sentence.ofTokens row).blamed r) ((Sentence.ofTokens row).diagnose r) := by
  have tokens := toList_tokens_ofTokens row
  have within : (Sentence.ofTokens row).blamed r ≤ (Sentence.ofTokens row).tokens.size := by
    rw [Sentence.blamed_eq]
    exact Nat.sub_le _ _
  rw [Sentence.diagnose, Sentence.lineAt, Sentence.labelAt, ← Array.getElem?_toList, tokens]
  cases ht : (tokensRead row)[(Sentence.ofTokens row).blamed r]? with
  | some t => exact .token _ ht
  | none =>
    have behind := List.getElem?_eq_none_iff.mp ht
    rw [← Array.length_toList, tokens] at within
    rw [Nat.le_antisymm within behind]
    exact .atEnd _ (endsOn_endLineOf row)

/-- A report that blames nothing before it is quoted where it is made. -/
theorem cites_position (row : List Token) {r : Report} (h : r.complaint.blamesPrevious = false) :
    Cites row ((Sentence.ofTokens row).position r.ahead) ((Sentence.ofTokens row).diagnose r) := by
  have cites := cites_diagnose row r
  rwa [Sentence.blamed, h, if_neg Bool.false_ne_true] at cites

/-- The diagnostics of a row cite the places that its reports blame. -/
theorem forall₂_cites (row : List Token) :
    List.Forall₂ (Cites row) ((Verdict.ofTokens row).reports.map (Sentence.ofTokens row).blamed)
      (Verdict.ofTokens row).diagnostics.toList := by
  rw [Verdict.diagnostics, Collector.toList_ofList, List.forall₂_map_left_iff,
    List.forall₂_map_right_iff, List.forall₂_same]
  exact fun r _ => cites_diagnose row r

/-! ## What the kinds determine -/

/-- The places that the diagnostics of a row of these kinds cite, in order. -/
def citedPlaces (ks : List Kind) : List Nat :=
  (roundReports nestingLimit ks).map fun r => ks.length - r.reach

/-- The blamed places are those that the kinds determine. -/
theorem map_blamed_reports (row : List Token) :
    (Verdict.ofTokens row).reports.map (Sentence.ofTokens row).blamed =
      citedPlaces (kindsRead row) := by
  rw [citedPlaces, ← kinds_ofTokens]
  refine List.map_congr_left fun r _ => ?_
  rw [Sentence.blamed_eq, Sentence.length_kinds]

/-- The messages of a row are those that its kinds determine. -/
theorem map_message_diagnostics (row : List Token) :
    (Verdict.ofTokens row).diagnostics.toList.map Diagnostic.message =
      (roundReports nestingLimit (kindsRead row)).map (·.complaint.message) := by
  rw [Verdict.toList_diagnostics, kinds_ofTokens, List.map_map]
  rfl

/-- Two rows of the same kinds are both accepted or both not.  They have as many diagnostics,
with the same messages, and these cite the same places, each in the tokens of its own row. -/
theorem diagnostics_of_kinds {row row' : List Token} (h : kindsRead row = kindsRead row') :
    (Verdict.ofTokens row).accepted = (Verdict.ofTokens row').accepted ∧
      (Verdict.ofTokens row).diagnostics.size = (Verdict.ofTokens row').diagnostics.size ∧
      (Verdict.ofTokens row).diagnostics.toList.map Diagnostic.message =
        (Verdict.ofTokens row').diagnostics.toList.map Diagnostic.message ∧
      ∃ places, List.Forall₂ (Cites row) places (Verdict.ofTokens row).diagnostics.toList ∧
        List.Forall₂ (Cites row') places (Verdict.ofTokens row').diagnostics.toList := by
  have messages : (Verdict.ofTokens row).diagnostics.toList.map Diagnostic.message =
      (Verdict.ofTokens row').diagnostics.toList.map Diagnostic.message := by
    rw [map_message_diagnostics, map_message_diagnostics, h]
  have size : (Verdict.ofTokens row).diagnostics.size =
      (Verdict.ofTokens row').diagnostics.size := by
    rw [Collector.size_eq_length, Collector.size_eq_length, ← List.length_map Diagnostic.message,
      messages, List.length_map]
  refine ⟨?_, size, messages, _, forall₂_cites row, ?_⟩
  · rw [Verdict.accepted, Verdict.accepted, Bool.eq_iff_iff, Collector.isEmpty_iff,
      Collector.isEmpty_iff, ← List.length_eq_zero_iff, ← List.length_eq_zero_iff,
      ← Collector.size_eq_length, ← Collector.size_eq_length, size]
  · rw [map_blamed_reports, h, ← map_blamed_reports]
    exact forall₂_cites row'

/-- An assignment without its right-hand side, once at the end of a row with a comment and no
end marker, and once of tokens without texts before an end marker. -/
theorem diagnostics_of_unfinished_assignment :
    kindsRead [⟨.identifier, "x", 4⟩, ⟨.sign .assign, "=", 4⟩, ⟨.lineComment, "//", 7⟩] =
        kindsRead [⟨.identifier, "", 0⟩, ⟨.sign .assign, "", 0⟩, .endMarker 9, ⟨.number, "1", 3⟩] ∧
      (Verdict.ofTokens [⟨.identifier, "x", 4⟩, ⟨.sign .assign, "=", 4⟩,
          ⟨.lineComment, "//", 7⟩]).diagnostics.toList.map Diagnostic.message =
        [Grammar.Complaint.operandExpected.message, Grammar.Complaint.badRightHandSide.message] := by
  have kinds : kindsRead [⟨.identifier, "x", 4⟩, ⟨.sign .assign, "=", 4⟩, ⟨.lineComment, "//", 7⟩] =
      kindsRead [⟨.identifier, "", 0⟩, ⟨.sign .assign, "", 0⟩, .endMarker 9, ⟨.number, "1", 3⟩] := by
    decide
  refine ⟨kinds, ?_⟩
  rw [(diagnostics_of_kinds kinds).2.2.1]
  decide +kernel

end MiniC
