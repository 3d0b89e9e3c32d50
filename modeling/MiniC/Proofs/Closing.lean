import MiniC.Proofs.Appending
import MiniC.Proofs.Blanking

/-!
# Closing an open comment

A comment that is not closed takes all that is left of a source, so it is the last piece.
When the closer is put behind the source, the comment ends there.  It does not end before,
since there was no closer in it, and none comes about where the two meet: a slash at the front
of what is appended would make one, but a star does not.

The pieces before the comment stay as they are, and the comment is nothing to the grammar.  So
closing it takes back one diagnostic and leaves the others.  `closing_repairs` says this.
-/

namespace MiniC

/-! ## The comment -/

/-- A text without a closer ends at its first closer when one is appended. -/
theorem endsAtCloser_append {text : List Char}
    (h : ∀ before after, text ≠ before ++ '*' :: '/' :: after) :
    EndsAtCloser (text ++ ['*', '/']) := by
  refine ⟨List.suffix_append _ _, fun before after he => ?_⟩
  rcases List.append_eq_append_iff.mp he with ⟨more, _, hm⟩ | ⟨more, ht, hm⟩
  · have length := congrArg List.length hm
    simp only [List.length_append, List.length_cons, List.length_nil] at length
    exact List.eq_nil_of_length_eq_zero (by omega)
  · -- The closer begins in the text.  It would have to end there, or to overlap the other one.
    match more, hm with
    | [], hm =>
      cases hm
      rfl
    | [_], hm => cases hm
    | _ :: _ :: more, hm =>
      cases hm
      exact absurd ht (h before more)

/-- An open comment is a block comment when it is closed. -/
theorem Piece.Munched.close {text rest : List Char} (h : (Piece.openComment text).Munched rest)
    (rest' : List Char) : (Piece.token .blockComment (text ++ ['*', '/'])).Munched rest' := by
  obtain ⟨_, tail, rfl, unclosed⟩ := h
  exact ⟨_, rfl, endsAtCloser_append unclosed⟩

theorem Spot.piece_of_openComment {s : Spot} {d : Diagnostic} (h : s.diagnostic? = some d)
    (hd : d.problem = .openComment) : ∃ text, s.piece = .openComment text := by
  rcases s with ⟨line, piece⟩
  cases piece with
  | token => cases h
  | blank => cases h
  | stray =>
    obtain rfl := Option.some.inj h
    cases hd
  | openComment text => exact ⟨text, rfl⟩

/-- A source that is reported to end in an open comment has it for its last piece. -/
theorem exists_openComment {a : List Char}
    (h : ∃ e ∈ (Scan.ofChars a).diagnostics.toList, e.problem = .openComment) :
    ∃ ps text, a = ps.flatMap Piece.text ++ text ∧ (Piece.openComment text).Munched [] ∧
      (∀ p ∈ ps, ∀ text, p ≠ .openComment text) ∧ (∀ b, Munches ps (text ++ b)) ∧
      spots 1 a = place 1 ps ++ [⟨1 + newlines (ps.flatMap Piece.text), .openComment text⟩] := by
  obtain ⟨e, he, hp⟩ := h
  rw [Scan.diagnostics, Collector.toList_ofList, Scan.ofChars] at he
  obtain ⟨s, hs, found⟩ := List.mem_filterMap.mp he
  have nonempty : a ≠ [] := by
    rintro rfl
    rw [spots_nil] at hs
    cases hs
  obtain ⟨ps, last, rfl, munched, closed, stays, hspots⟩ := exists_last nonempty
  rw [hspots] at hs ⊢
  have piece : s.piece ∈ ps ++ [last] := by
    rw [← map_piece_place 1 (ps ++ [last])]
    exact List.mem_map_of_mem hs
  obtain ⟨text, ht⟩ := Spot.piece_of_openComment found hp
  rcases List.mem_append.mp piece with inside | atEnd
  · exact absurd ht (closed _ inside text)
  · obtain rfl : last = .openComment text := (List.mem_singleton.mp atEnd).symm.trans ht
    exact ⟨ps, text, rfl, munched, closed, stays, place_append 1 ps _⟩

/-! ## The scan -/

/-- When the comment is closed, its spot is that of a token. -/
theorem spots_close {a text : List Char} {ps : List Piece}
    (source : a = ps.flatMap Piece.text ++ text) (munched : (Piece.openComment text).Munched [])
    (stays : ∀ b, Munches ps (text ++ b)) :
    spots 1 (a ++ ['*', '/']) = place 1 ps ++
      [⟨1 + newlines (ps.flatMap Piece.text), .token .blockComment (text ++ ['*', '/'])⟩] := by
  have comment := spots_of_munched (munched.close []) (1 + newlines (ps.flatMap Piece.text))
  rw [spots_nil, List.append_nil] at comment
  rw [source, List.append_assoc, spots_of_munches (stays _)]
  exact congrArg _ comment

section

variable {a : List Char} {row : List Spot} {last : Spot}

theorem tokens_of_spots (h : spots 1 a = row ++ [last]) : (Scan.ofChars a).tokens =
    row.filterMap Spot.token? ++ (last.token?.toList ++ [.endMarker (1 + newlines a)]) := by
  rw [Scan.tokens, Scan.ofChars, h, List.filterMap_append, List.append_assoc]
  rfl

theorem diagnostics_of_spots (h : spots 1 a = row ++ [last]) :
    (Scan.ofChars a).diagnostics.toList =
      row.filterMap Spot.diagnostic? ++ last.diagnostic?.toList := by
  rw [Scan.diagnostics, Collector.toList_ofList, Scan.ofChars, h, List.filterMap_append]
  rfl

end

/-- A source ends in a comment that is opened behind the spots `row` on the line `line`.  To
close it repairs that and nothing else. -/
structure Repairs (source : String) (row : List Spot) (line : Nat) (text : String) : Prop where
  /-- The comment is the last piece. -/
  opened : (Scan.ofSource source).spots = row ++ [⟨line, .openComment text.toList⟩]
  /-- It takes the rest of the source. -/
  source_eq : source.toList = texts row ++ text.toList
  /-- It begins with its opener. -/
  opener : ['/', '*'] <+: text.toList
  /-- Its line is that of the opener. -/
  line_eq : line = 1 + newlines (texts row)
  /-- The diagnostics are the same but for the last one. -/
  reported : (Scan.ofSource source).diagnostics.toList =
    (Scan.ofSource (source ++ "*/")).diagnostics.toList ++ [⟨line, .openComment⟩]
  /-- No comment is open any more. -/
  closed : ∀ d ∈ (Scan.ofSource (source ++ "*/")).diagnostics.toList, d.problem ≠ .openComment
  /-- The tokens are the same but for the comment before the end marker. -/
  tokens : ∃ ts endLine, (Scan.ofSource source).tokens = ts ++ [.endMarker endLine] ∧
    (Scan.ofSource (source ++ "*/")).tokens =
      ts ++ [⟨.blockComment, text ++ "*/", line⟩, .endMarker endLine]
  /-- The grammar finds the same wrong. -/
  syntactic : (Analysis.ofSource (source ++ "*/")).diagnostics.toList.filter (!·.isLexical) =
    (Analysis.ofSource source).diagnostics.toList.filter (!·.isLexical)

/-- A source that is reported to end in an open comment is repaired by closing it. -/
theorem closing_repairs {source : String}
    (h : ∃ e ∈ (Scan.ofSource source).diagnostics.toList, e.problem = .openComment) :
    ∃ row line text, Repairs source row line text := by
  obtain ⟨ps, text, whole, munched, silent, stays, hs⟩ := exists_openComment h
  have closed : (source ++ "*/").toList = source.toList ++ ['*', '/'] := String.toList_append
  have lines : newlines (source ++ "*/").toList = newlines source.toList := by
    rw [closed]
    exact newlines_append ..
  have hs' := spots_close whole munched stays
  rw [← closed] at hs'
  have tokens := tokens_of_spots hs
  have tokens' := tokens_of_spots hs'
  have diagnostics := diagnostics_of_spots hs
  have diagnostics' := (diagnostics_of_spots hs').trans (List.append_nil _)
  refine ⟨place 1 ps, 1 + newlines (ps.flatMap Piece.text), String.ofList text, ?_⟩
  exact {
    opened := by rw [String.toList_ofList]; exact hs
    source_eq := by rw [String.toList_ofList, texts_place]; exact whole
    opener := by
      obtain ⟨_, tail, rfl, _⟩ := munched
      rw [String.toList_ofList]
      exact ⟨tail, rfl⟩
    line_eq := by rw [texts_place]
    reported := by
      rw [Scan.ofSource, Scan.ofSource, diagnostics, diagnostics']
      rfl
    closed := by
      rw [Scan.ofSource, diagnostics']
      intro d hd he
      have stray := isStray_of_place silent 1 d hd
      rw [Diagnostic.isStray, he] at stray
      cases stray
    tokens := by
      refine ⟨_, _, tokens, ?_⟩
      rw [Scan.ofSource, tokens', lines, ← String.ofList_append]
      rfl
    syntactic := by
      have same : (Scan.ofSource (source ++ "*/")).tokens.filter (!·.kind.isComment) =
          (Scan.ofSource source).tokens.filter (!·.kind.isComment) := by
        rw [Scan.ofSource, Scan.ofSource, tokens, tokens', lines]
        simp [Spot.token?, Kind.isComment]
      rw [Analysis.filter_not_isLexical, Analysis.filter_not_isLexical, verdict_congr same] }

/-- A comment that is opened by its first two characters alone, and ends in a star. -/
theorem closing_repairs_star : ∃ row, Repairs "x @\n y /*/ *" row 2 "/*/ *" := by
  have reported : ∃ e ∈ (Scan.ofSource "x @\n y /*/ *").diagnostics.toList,
      e.problem = .openComment := ⟨⟨2, .openComment⟩, by decide +kernel, rfl⟩
  obtain ⟨row, line, text, h⟩ := closing_repairs reported
  have last : (Scan.ofSource "x @\n y /*/ *").spots.getLast? =
      some ⟨2, .openComment "/*/ *".toList⟩ := by decide +kernel
  rw [h.opened, List.getLast?_concat] at last
  obtain ⟨rfl, piece⟩ := Spot.mk.inj (Option.some.inj last)
  obtain rfl := String.toList_injective (Piece.openComment.inj piece)
  exact ⟨row, h⟩

end MiniC
