import MiniC.Proofs.Grammar.Segment
import MiniC.Proofs.Quoting

/-!
# Broken statements and their neighbours

A row of tokens that ends with its only semicolon is read by itself, whatever stands before
or behind it, if neither an opening brace nor an `else` is about.  What is wrong with it is
reported, and reading begins anew behind it.  So the diagnostics of several such rows, one
behind another, are those of each of them in turn.  This is `diagnostics_segments`.

In a block this would not hold, since the declarations of a block are not read in rounds:
the first failure ends the block.  Nor would it hold before an `else`, which belongs to the
conditional that ends there.
-/

namespace MiniC

open Grammar (Inside NoElse Report StatementTree nestingLimit roundReports)

/-! ## Segments of tokens -/

/-- The token is read by the grammar, and it is neither an opening brace nor an `else`. -/
def Token.Plain (t : Token) : Prop :=
  (t.kind.isComment = false ∧ t.kind ≠ .endMarker) ∧
    t.kind ≠ .sign .leftBrace ∧ t.kind ≠ .keyword .kwElse

instance (t : Token) : Decidable t.Plain := inferInstanceAs (Decidable (_ ∧ _))

/-- A row of plain tokens, of which the last one and no other is a semicolon. -/
structure IsSegment (row : List Token) : Prop where
  /-- The tokens are plain. -/
  plain : ∀ t ∈ row, t.Plain
  /-- The last token is a semicolon. -/
  last : row.getLast?.map Token.kind = some (.sign .semicolon)
  /-- No other token is one. -/
  only : ∀ t ∈ row.dropLast, t.kind ≠ .sign .semicolon

theorem IsSegment.exists_kinds {row : List Token} (h : IsSegment row) :
    ∃ left, Inside left ∧ row.map Token.kind = left ++ [.sign .semicolon] := by
  obtain ⟨t, ht, hk⟩ := Option.map_eq_some_iff.mp h.last
  refine ⟨row.dropLast.map Token.kind, ?_, ?_⟩
  · intro k hk
    obtain ⟨t, ht, rfl⟩ := List.mem_map.mp hk
    exact ⟨h.only t ht, (h.plain t ((List.dropLast_sublist row).subset ht)).2.1⟩
  · obtain ⟨before, rfl⟩ := List.getLast?_eq_some_iff.mp ht
    rw [List.dropLast_concat, List.map_append, List.map_singleton, hk]

namespace Sentence

theorem kinds_ofTokens_plain {row : List Token} {e : Token} (h : ∀ t ∈ row, t.Plain)
    (he : e.kind = .endMarker) : (ofTokens (row ++ [e])).kinds = row.map Token.kind := by
  rw [kinds, (ofTokens_concat_of_read (fun t ht => (h t ht).1) he).1]

/-- The reports of a segment and what follows it are quoted as those of the two. -/
theorem map_diagnose_segment {s s₁ s₂ : Sentence} {left : List Kind}
    (tokens : s.tokens.toList = s₁.tokens.toList ++ s₂.tokens.toList)
    (endLine₁ : s.endLine = s₁.endLine) (endLine₂ : s.endLine = s₂.endLine)
    (hk : s₁.kinds = left ++ [.sign .semicolon]) (hl : Inside left) (hr : NoElse s₂.kinds) :
    (roundReports nestingLimit s.kinds).map s.diagnose =
      (roundReports nestingLimit s₁.kinds).map s₁.diagnose ++
        (roundReports nestingLimit s₂.kinds).map s₂.diagnose := by
  have kinds : s.kinds = left ++ .sign .semicolon :: s₂.kinds := by
    have split : s.kinds = s₁.kinds ++ s₂.kinds := by
      rw [Sentence.kinds, tokens, List.map_append, Sentence.kinds, Sentence.kinds]
    rw [split, hk, List.append_assoc]
    rfl
  obtain ⟨reports, ahead⟩ := Grammar.roundReports_segment nestingLimit hl hr
  rw [kinds, reports, List.map_append, map_diagnose_behind nestingLimit tokens endLine₂, ← hk,
    List.map_map]
  rw [← hk] at ahead
  congr 1
  refine List.map_congr_left fun r h => ?_
  have within : r.ahead.length ≤ s₁.tokens.size := by
    have reach := Grammar.reach_le_of_mem_roundReports h
    rw [length_kinds] at reach
    exact Nat.le_trans (Nat.le_add_right _ _) reach
  have rest : s₂.kinds.length = s₂.tokens.toList.length := by simp [Sentence.kinds]
  exact diagnose_before tokens endLine₁ (ahead r h) within rest

end Sentence

/-! ## Their diagnostics -/

variable {e : Token}

/-- The diagnostics of a segment and what follows it are those of the two. -/
theorem diagnostics_segment_append {a row : List Token} (ha : IsSegment a)
    (hr : ∀ t ∈ row, t.Plain) (he : e.kind = .endMarker) :
    (Verdict.ofTokens (a ++ row ++ [e])).diagnostics.toList =
      (Verdict.ofTokens (a ++ [e])).diagnostics.toList ++
        (Verdict.ofTokens (row ++ [e])).diagnostics.toList := by
  have both : ∀ t ∈ a ++ row, t.Plain := List.forall_mem_append.mpr ⟨ha.plain, hr⟩
  obtain ⟨tokens, endLine⟩ := Sentence.ofTokens_concat_of_read (fun t ht => (both t ht).1) he
  obtain ⟨tokens₁, endLine₁⟩ := Sentence.ofTokens_concat_of_read (fun t ht => (ha.plain t ht).1) he
  obtain ⟨tokens₂, endLine₂⟩ := Sentence.ofTokens_concat_of_read (fun t ht => (hr t ht).1) he
  obtain ⟨left, inside, kinds⟩ := ha.exists_kinds
  rw [Verdict.toList_diagnostics, Verdict.toList_diagnostics, Verdict.toList_diagnostics]
  refine Sentence.map_diagnose_segment ?_ ?_ ?_ ?_ inside ?_
  · rw [tokens, tokens₁, tokens₂]
  · rw [endLine, endLine₁]
  · rw [endLine, endLine₂]
  · rw [Sentence.kinds_ofTokens_plain ha.plain he, kinds]
  · intro first
    rw [Sentence.kinds_ofTokens_plain hr he, List.head?_map] at first
    obtain ⟨t, ht, hk⟩ := Option.map_eq_some_iff.mp first
    exact (hr t (List.mem_of_mem_head? ht)).2.2 hk

/-- The diagnostics of segments, one behind another, and of a row behind them are those of
each segment and of the row.  A segment that is a row of declarations has none. -/
theorem diagnostics_segments {as : List (List Token)} {r : List Token}
    (ha : ∀ a ∈ as, IsSegment a) (hr : ∀ t ∈ r, t.Plain) (he : e.kind = .endMarker) :
    (Verdict.ofTokens (as.flatten ++ r ++ [e])).diagnostics.toList =
        as.flatMap (fun a => (Verdict.ofTokens (a ++ [e])).diagnostics.toList) ++
          (Verdict.ofTokens (r ++ [e])).diagnostics.toList ∧
      ∀ a ∈ as, (∃ ds : StatementTree .declarations, ds.yield = a.map Token.kind ∧
          ds.depth ≤ nestingLimit ∧ ds.NearestElse []) →
        (Verdict.ofTokens (a ++ [e])).diagnostics.toList = [] := by
  constructor
  · induction as with
    | nil => rfl
    | cons a as ih =>
      obtain ⟨first, others⟩ := List.forall_mem_cons.mp ha
      have behind : ∀ t ∈ as.flatten ++ r, t.Plain := by
        refine List.forall_mem_append.mpr ⟨fun t ht => ?_, hr⟩
        obtain ⟨b, hb, ht⟩ := List.mem_flatten.mp ht
        exact (others b hb).plain t ht
      rw [List.flatten_cons, List.append_assoc a, diagnostics_segment_append first behind he,
        ih others, List.flatMap_cons, List.append_assoc]
  · rintro a hs ⟨ds, hy, hd, hn⟩
    have silent := Grammar.rounds_of_whole ds hd hn
    rw [hy, ← Sentence.kinds_ofTokens_plain (ha a hs).plain he] at silent
    rw [Verdict.toList_diagnostics, roundReports, List.flatMap_eq_nil_iff.mpr silent, List.map_nil]

/-- A broken assignment before a good one is reported by itself, and so is what is left
unfinished behind them. -/
theorem segments_around_assignment :
    (Verdict.ofTokens [⟨.identifier, "x", 1⟩, ⟨.sign .assign, "=", 1⟩, ⟨.sign .semicolon, ";", 1⟩,
        ⟨.identifier, "y", 2⟩, ⟨.sign .assign, "=", 2⟩, ⟨.number, "1", 2⟩,
        ⟨.sign .semicolon, ";", 2⟩, ⟨.identifier, "z", 3⟩, .endMarker 3]).diagnostics.toList =
      [⟨1, .syntactic Grammar.Complaint.operandExpected.message ";"⟩,
        ⟨1, .syntactic Grammar.Complaint.badRightHandSide.message ";"⟩,
        ⟨3, .syntactic Grammar.Complaint.expressionNotEnded.message "z"⟩] := by
  let broken : List Token :=
    [⟨.identifier, "x", 1⟩, ⟨.sign .assign, "=", 1⟩, ⟨.sign .semicolon, ";", 1⟩]
  let good : List Token := [⟨.identifier, "y", 2⟩, ⟨.sign .assign, "=", 2⟩, ⟨.number, "1", 2⟩,
    ⟨.sign .semicolon, ";", 2⟩]
  let unfinished : List Token := [⟨.identifier, "z", 3⟩]
  have segments : ∀ a ∈ [broken, good], IsSegment a := by
    refine List.forall_mem_cons.mpr ⟨⟨by decide, rfl, by decide⟩, ?_⟩
    exact List.forall_mem_singleton.mpr ⟨by decide, rfl, by decide⟩
  have plain : ∀ t ∈ unfinished, t.Plain := by decide
  obtain ⟨each, silent⟩ := diagnostics_segments segments plain (e := .endMarker 3) rfl
  have declared : (Verdict.ofTokens (good ++ [.endMarker 3])).diagnostics.toList = [] :=
    silent good (by simp) ⟨.cons (.stated (.simple (.assigned Grammar.plainNumber))) .nil,
      rfl, by decide, by decide⟩
  have reported : (Verdict.ofTokens (broken ++ [.endMarker 3])).diagnostics.toList =
      [⟨1, .syntactic Grammar.Complaint.operandExpected.message ";"⟩,
        ⟨1, .syntactic Grammar.Complaint.badRightHandSide.message ";"⟩] := by decide +kernel
  have missing : (Verdict.ofTokens (unfinished ++ [.endMarker 3])).diagnostics.toList =
      [⟨3, .syntactic Grammar.Complaint.expressionNotEnded.message "z"⟩] := by decide +kernel
  rw [List.flatMap_cons, List.flatMap_cons, declared, reported, missing] at each
  exact each

end MiniC
