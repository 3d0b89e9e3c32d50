import MiniC.Proofs.Grammar.Rounds
import MiniC.Proofs.Lexical.Newline
import MiniC.Proofs.Sentence
import MiniC.Verdict

/-!
# Quoting the blamed token

A report becomes a diagnostic in a sentence, which looks up the token that is blamed.
The token is found by counting from the end of the sentence, so it does not matter what
stands before the tokens that a report reaches.  That is `diagnose_behind`.  If a report
is made again with more kinds ahead, it blames the same token before the tokens of those
kinds, which is `diagnose_before`.
-/

namespace MiniC

open Grammar (Complaint Report nestingLimit roundReports)

namespace Sentence

/-! ## Sentences of rows -/

theorem length_kinds (s : Sentence) : s.kinds.length = s.tokens.size := by simp [kinds]

theorem position_drop {s : Sentence} {p : Nat} (hp : p ≤ s.tokens.size) :
    s.position (s.kinds.drop p) = p := by
  rw [position, List.length_drop, length_kinds]
  omega

theorem drop_position {s : Sentence} {ahead : List Kind} (h : ahead <:+ s.kinds) :
    s.kinds.drop (s.position ahead) = ahead := by
  rw [position, ← s.length_kinds]
  exact (List.suffix_iff_eq_drop.mp h).symm

/-- Behind tokens before the end marker, the row goes on as it would by itself. -/
theorem ofTokens_append {row row' : List Token} (h : ∀ t ∈ row, t.kind ≠ .endMarker)
    (h' : ∃ t ∈ row', t.kind = .endMarker) :
    (ofTokens (row ++ row')).tokens.toList =
        row.filter (!·.kind.isComment) ++ (ofTokens row').tokens.toList ∧
      (ofTokens (row ++ row')).endLine = (ofTokens row').endLine := by
  constructor
  · have before : ∀ t ∈ row.filter (!·.kind.isComment), (t.kind != .endMarker) = true := by
      intro t ht
      simpa using h t (List.mem_filter.mp ht).1
    simp [ofTokens, List.takeWhile_append_of_pos before]
  · have skip : (row ++ row').find? (·.kind == .endMarker) =
        row'.find? (·.kind == .endMarker) := by
      rw [List.find?_append, List.find?_eq_none.mpr (by simpa using h), Option.none_or]
    obtain ⟨e, he⟩ := find?_endMarker h'
    show endLineOf (row ++ row') = endLineOf row'
    rw [endLineOf, endLineOf, skip, he]

/-- Before an end marker, the row is read without its comments. -/
theorem ofTokens_concat {row : List Token} {e : Token} (h : ∀ t ∈ row, t.kind ≠ .endMarker)
    (he : e.kind = .endMarker) :
    (ofTokens (row ++ [e])).tokens.toList = row.filter (!·.kind.isComment) ∧
      (ofTokens (row ++ [e])).endLine = e.line := by
  obtain ⟨tokens, endLine⟩ := ofTokens_append h ⟨e, List.mem_singleton_self e, he⟩
  rw [tokens, endLine]
  simp [ofTokens, endLineOf, he, Kind.isComment]

/-- Nothing is left out of a row that has no comment before its end marker. -/
theorem ofTokens_concat_of_read {row : List Token} {e : Token}
    (h : ∀ t ∈ row, t.kind.isComment = false ∧ t.kind ≠ .endMarker) (he : e.kind = .endMarker) :
    (ofTokens (row ++ [e])).tokens.toList = row ∧ (ofTokens (row ++ [e])).endLine = e.line := by
  have kept : row.filter (!·.kind.isComment) = row :=
    List.filter_eq_self.mpr fun t ht => by rw [(h t ht).1, Bool.not_false]
  have read := ofTokens_concat (fun t ht => (h t ht).2) he
  rwa [kept] at read

/-! ## The blamed token -/

theorem blamed_eq (s : Sentence) (r : Report) : s.blamed r = s.tokens.size - r.reach := by
  rw [blamed, position, Report.reach]
  split
  · exact Nat.sub_sub _ _ _
  · rfl

/-- Two reports of the same are quoted alike if they blame the same token, or both the end on
the same line. -/
theorem diagnose_congr {s s' : Sentence} {r r' : Report} (hc : r.complaint = r'.complaint)
    (ht : s.tokens[s.blamed r]? = s'.tokens[s'.blamed r']?)
    (he : s.tokens[s.blamed r]? = none → s.endLine = s'.endLine) :
    s.diagnose r = s'.diagnose r' := by
  rw [diagnose, diagnose, lineAt, lineAt, labelAt, labelAt, ← ht, hc]
  cases h : s.tokens[s.blamed r]? with
  | some t => rfl
  | none => rw [he h]

/-- What stands before the tokens that a report reaches does not matter to it. -/
theorem diagnose_behind {s s' : Sentence} {before : List Token}
    (ht : s.tokens.toList = before ++ s'.tokens.toList) (he : s.endLine = s'.endLine)
    {r : Report} (hr : r.reach ≤ s'.tokens.size) : s.diagnose r = s'.diagnose r := by
  refine diagnose_congr rfl ?_ fun _ => he
  have size : s.tokens.size = before.length + s'.tokens.size := by
    simpa using congrArg List.length ht
  have index : s.tokens.size - r.reach = before.length + (s'.tokens.size - r.reach) := by omega
  rw [blamed_eq, blamed_eq, ← Array.getElem?_toList, ← Array.getElem?_toList, ht, index,
    List.getElem?_append_right (Nat.le_add_right _ _), Nat.add_sub_cancel_left]

/-- A report made with more kinds ahead blames the same token before those of them. -/
theorem diagnose_before {s s' : Sentence} {more : List Token}
    (ht : s.tokens.toList = s'.tokens.toList ++ more) (he : s.endLine = s'.endLine)
    {c : Complaint} {ahead rest : List Kind} (ha : ahead ≠ []) (hs : ahead.length ≤ s'.tokens.size)
    (hr : rest.length = more.length) :
    s.diagnose ⟨c, ahead ++ rest⟩ = s'.diagnose ⟨c, ahead⟩ := by
  refine diagnose_congr rfl ?_ fun _ => he
  have size : s.tokens.size = s'.tokens.size + more.length := by
    simpa using congrArg List.length ht
  have reach : (Report.mk c (ahead ++ rest)).reach = (Report.mk c ahead).reach + more.length := by
    simp only [Report.reach, List.length_append, hr]
    omega
  have ahead_pos := List.length_pos_iff.mpr ha
  have inside : (Report.mk c ahead).reach ≥ ahead.length := Nat.le_add_right _ _
  have index : s'.blamed ⟨c, ahead⟩ < s'.tokens.toList.length := by
    rw [blamed_eq, Array.length_toList]
    omega
  have same : s.blamed ⟨c, ahead ++ rest⟩ = s'.blamed ⟨c, ahead⟩ := by
    rw [blamed_eq, blamed_eq, size, reach, Nat.add_sub_add_right]
  rw [same, ← Array.getElem?_toList, ← Array.getElem?_toList, ht, List.getElem?_append_left index]

/-! ## Further down -/

/-- A sentence `d` lines further down. -/
def down (d : Nat) (s : Sentence) : Sentence := ⟨s.tokens.map (Token.down d), s.endLine + d⟩

@[simp] theorem kinds_down (d : Nat) (s : Sentence) : (s.down d).kinds = s.kinds := by
  simp [kinds, down, Function.comp_def]

theorem diagnose_down (d : Nat) (s : Sentence) (r : Report) :
    (s.down d).diagnose r = (s.diagnose r).down d := by
  have blamed : (s.down d).blamed r = s.blamed r := by
    rw [blamed_eq, blamed_eq, down, Array.size_map]
  have token : (s.down d).tokens[s.blamed r]? = s.tokens[s.blamed r]?.map (Token.down d) :=
    Array.getElem?_map
  rw [diagnose, diagnose, lineAt, lineAt, labelAt, labelAt, blamed, token]
  cases s.tokens[s.blamed r]? with
  | none => rfl
  | some t => rfl

/-- The sentence of a row that stands further down. -/
theorem ofTokens_down {row : List Token} (h : ∃ t ∈ row, t.kind = .endMarker) (d : Nat) :
    ofTokens (row.map (Token.down d)) = (ofTokens row).down d := by
  obtain ⟨e, he⟩ := find?_endMarker h
  have endLine : endLineOf (row.map (Token.down d)) = endLineOf row + d := by
    have marker : (row.map (Token.down d)).find? (·.kind == .endMarker) = some (e.down d) := by
      rw [List.find?_map]
      exact congrArg (Option.map (Token.down d)) he
    rw [endLineOf, endLineOf, marker, he]
    rfl
  rw [ofTokens, ofTokens, down, endLine, List.filter_map, List.takeWhile_map]
  simp [Function.comp_def]

/-! ## Verdicts -/

/-- The rounds over the last tokens of a sentence are quoted as in the sentence of those
tokens. -/
theorem map_diagnose_behind {s s' : Sentence} {before : List Token} (room : Nat)
    (ht : s.tokens.toList = before ++ s'.tokens.toList) (he : s.endLine = s'.endLine) :
    (roundReports room s'.kinds).map s.diagnose = (roundReports room s'.kinds).map s'.diagnose := by
  refine List.map_congr_left fun r hr => diagnose_behind ht he ?_
  rw [← length_kinds]
  exact Grammar.reach_le_of_mem_roundReports hr

end Sentence

/-- The diagnostics of a row are the reports of the rounds over its sentence. -/
theorem Verdict.toList_diagnostics (row : List Token) :
    (Verdict.ofTokens row).diagnostics.toList =
      (roundReports nestingLimit (Sentence.ofTokens row).kinds).map
        (Sentence.ofTokens row).diagnose := by
  rw [diagnostics, Collector.toList_ofList]
  rfl

theorem Verdict.toList_diagnostics_down {row : List Token} (h : ∃ t ∈ row, t.kind = .endMarker)
    (d : Nat) : (Verdict.ofTokens (row.map (Token.down d))).diagnostics.toList =
      (Verdict.ofTokens row).diagnostics.toList.map (Diagnostic.down d) := by
  rw [toList_diagnostics, toList_diagnostics, Sentence.ofTokens_down h, Sentence.kinds_down,
    List.map_map]
  exact List.map_congr_left fun r _ => Sentence.diagnose_down d _ r

end MiniC
