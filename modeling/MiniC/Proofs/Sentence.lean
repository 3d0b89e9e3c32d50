import MiniC.Lexical.Scan
import MiniC.Verdict

/-!
# What is read of a row of tokens

The grammar reads the kinds of a sentence.  They are the kinds of the tokens before
the first end marker, without those of the comments, in whatever order the two are
taken away.  So rows that differ in their comments alone have the same sentence, and
scans that do have the same verdict.
-/

namespace MiniC

/-- The tokens before the first end marker, without the comments. -/
def tokensRead (row : List Token) : List Token :=
  (row.takeWhile (·.kind != .endMarker)).filter (!·.kind.isComment)

/-- The kinds of the tokens before the first end marker, without the comments. -/
def kindsRead (row : List Token) : List Kind := (tokensRead row).map Token.kind

/-- The comments may be dropped before the row is cut. -/
theorem toList_tokens_ofTokens (row : List Token) :
    (Sentence.ofTokens row).tokens.toList = tokensRead row := by
  show (row.filter (!·.kind.isComment)).takeWhile (·.kind != .endMarker) =
    (row.takeWhile (·.kind != .endMarker)).filter (!·.kind.isComment)
  induction row with
  | nil => rfl
  | cons t row ih =>
    by_cases he : t.kind = .endMarker
    · simp [he, Kind.isComment]
    · by_cases hc : t.kind.isComment = true
      · rw [List.filter_cons_of_neg (by simp [hc]), ih, List.takeWhile_cons_of_pos (by simp [he]),
          List.filter_cons_of_neg (by simp [hc])]
      · rw [List.filter_cons_of_pos (by simp [hc]), List.takeWhile_cons_of_pos (by simp [he]), ih,
          List.takeWhile_cons_of_pos (by simp [he]), List.filter_cons_of_pos (by simp [hc])]

theorem kinds_ofTokens (row : List Token) : (Sentence.ofTokens row).kinds = kindsRead row :=
  congrArg (List.map Token.kind) (toList_tokens_ofTokens row)

theorem find?_endMarker {row : List Token} (h : ∃ t ∈ row, t.kind = .endMarker) :
    ∃ e, row.find? (·.kind == .endMarker) = some e := by
  obtain ⟨t, ht, he⟩ := h
  exact Option.isSome_iff_exists.mp (List.find?_isSome.mpr ⟨t, ht, by rw [he]; rfl⟩)

/-- The comments may be dropped from a row that has an end marker. -/
theorem ofTokens_filter {row : List Token} (h : ∃ t ∈ row, t.kind = .endMarker) :
    Sentence.ofTokens (row.filter (!·.kind.isComment)) = Sentence.ofTokens row := by
  have marker : (row.filter (!·.kind.isComment)).find? (·.kind == .endMarker) =
      row.find? (·.kind == .endMarker) := by
    rw [List.find?_filter]
    congr 1
    funext t
    cases t.kind <;> simp [Kind.isComment]
  have endLine : Sentence.endLineOf (row.filter (!·.kind.isComment)) = Sentence.endLineOf row := by
    obtain ⟨e, he⟩ := find?_endMarker h
    rw [Sentence.endLineOf, Sentence.endLineOf, marker, he]
  simp [Sentence.ofTokens, endLine]

/-- Rows that differ in their comments alone have the same sentence. -/
theorem ofTokens_congr {row row' : List Token} (h : ∃ t ∈ row, t.kind = .endMarker)
    (h' : ∃ t ∈ row', t.kind = .endMarker)
    (same : row.filter (!·.kind.isComment) = row'.filter (!·.kind.isComment)) :
    Sentence.ofTokens row = Sentence.ofTokens row' := by
  rw [← ofTokens_filter h, same, ofTokens_filter h']

/-- Scans that differ in their comments alone have the same verdict. -/
theorem verdict_congr {s s' : Scan}
    (same : s.tokens.filter (!·.kind.isComment) = s'.tokens.filter (!·.kind.isComment)) :
    Verdict.ofTokens s.tokens = Verdict.ofTokens s'.tokens := by
  have sentence := ofTokens_congr s.endMarker_mem_tokens s'.endMarker_mem_tokens same
  rw [Verdict.ofTokens, sentence, Verdict.ofTokens]

end MiniC
