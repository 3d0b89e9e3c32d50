import MiniC.Analysis
import MiniC.Proofs.Lexical.Reading
import MiniC.Proofs.Sentence

/-!
# What the grammar does not see

Comments and stray characters are nothing to the grammar.  `blankOut` puts blanks in
their place, one for each character, and leaves the newlines of comments as they are.
The tokens that remain are then found where they were, and nothing is wrong with the
source but what the grammar finds.  That is `analysis_blankOut`.

No token runs into its neighbours when what stood between them turns blank, since no
token goes on with a blank.  And none turns into another one, since what could not be
read on before cannot be read on before a blank.
-/

namespace MiniC

/-! ## Blanking out -/

/-- A newline stays, and any other character becomes a space. -/
def hide (c : Char) : Char := if c = '\n' then '\n' else ' '

/-- The characters of a piece, hidden if the piece is a comment, a stray character or an
open comment. -/
def Piece.hidden : Piece → List Char
  | .token kind lexeme => if kind.isComment then lexeme.map hide else lexeme
  | .blank c => [c]
  | .stray _ => [' ']
  | .openComment text => text.map hide

/-- A source with its comments and its stray characters hidden. -/
def blankOut (source : String) : String :=
  String.ofList (((Scan.ofSource source).spots.map Spot.piece).flatMap Piece.hidden)

theorem isWhitespace_hide (c : Char) : (hide c).isWhitespace = true := by
  rw [hide]
  split
  · decide
  · decide

theorem newlines_map_hide (text : List Char) : newlines (text.map hide) = newlines text := by
  induction text with
  | nil => rfl
  | cons c text ih =>
    by_cases hc : c = '\n'
    · simpa [newlines, hide, hc] using ih
    · simpa [newlines, hide, hc] using ih

/-! ## The row of pieces that is left -/

/-- A row of blanks. -/
def blanks (text : List Char) : List Piece := text.map .blank

/-- What a piece turns into. -/
def Piece.blanked (p : Piece) : List Piece :=
  match p with
  | .token kind lexeme => if kind.isComment then blanks p.hidden else [.token kind lexeme]
  | _ => blanks p.hidden

@[simp] theorem text_blanks (text : List Char) : (blanks text).flatMap Piece.text = text := by
  induction text with
  | nil => rfl
  | cons c text ih => simpa [blanks, Piece.text] using ih

@[simp] theorem text_blanked (p : Piece) : p.blanked.flatMap Piece.text = p.hidden := by
  cases p with
  | token kind lexeme =>
    by_cases hk : kind.isComment = true
    · simp [Piece.blanked, hk]
    · simp [Piece.blanked, Piece.hidden, Piece.text, hk]
  | blank c => simp [Piece.blanked]
  | stray c => simp [Piece.blanked]
  | openComment text => simp [Piece.blanked]

@[simp] theorem text_flatMap_blanked (ps : List Piece) :
    (ps.flatMap Piece.blanked).flatMap Piece.text = ps.flatMap Piece.hidden := by
  simp [List.flatMap_assoc]

/-- A piece turns into itself, or else into blanks and gives no token but a comment. -/
theorem Piece.Munched.blanked_cases {p : Piece} {rest : List Char} (h : p.Munched rest) :
    (∃ kind lexeme, p = .token kind lexeme ∧ kind.isComment = false ∧ p.blanked = [p] ∧
        p.hidden = p.text) ∨
      (p.blanked = blanks p.hidden ∧ (∀ c ∈ p.hidden, c.isWhitespace = true) ∧
        ∀ kind lexeme, p = .token kind lexeme → kind.isComment = true) := by
  cases p with
  | token kind lexeme =>
    by_cases hk : kind.isComment = true
    · refine .inr ⟨by simp [blanked, hk], ?_, ?_⟩
      · simp [hidden, hk, isWhitespace_hide]
      · simp [hk]
    · rw [Bool.not_eq_true] at hk
      exact .inl ⟨kind, lexeme, rfl, hk, by simp [blanked, hk], by simp [hidden, hk, text]⟩
  | blank c =>
    have blank : c.isWhitespace = true := h
    exact .inr ⟨rfl, by simp [hidden, blank], fun _ _ he => by cases he⟩
  | stray c => exact .inr ⟨rfl, by simp [hidden], fun _ _ he => by cases he⟩
  | openComment text =>
    exact .inr ⟨rfl, by simp [hidden, isWhitespace_hide], fun _ _ he => by cases he⟩

/-- Hiding keeps the lines. -/
theorem Piece.Munched.newlines_hidden {p : Piece} {rest : List Char} (h : p.Munched rest) :
    newlines p.hidden = newlines p.text := by
  cases p with
  | token kind lexeme =>
    by_cases hk : kind.isComment = true
    · simp [Piece.hidden, Piece.text, hk, newlines_map_hide]
    · simp [Piece.hidden, Piece.text, hk]
  | blank c => rfl
  | stray c =>
    have noNewline : c ≠ '\n' := by
      rintro rfl
      exact h (.inl rfl)
    simp [Piece.hidden, Piece.text, newlines, noNewline]
  | openComment text => simp [Piece.hidden, Piece.text, newlines_map_hide]

theorem Piece.length_hidden (p : Piece) : p.hidden.length = p.text.length := by
  cases p with
  | token kind lexeme =>
    by_cases hk : kind.isComment = true
    · simp [hidden, text, hk]
    · simp [hidden, text, hk]
  | blank c => rfl
  | stray c => rfl
  | openComment text => simp [hidden, Piece.text]

/-- A row with its pieces hidden begins as it did or with a blank. -/
theorem Munches.head_hidden {ps : List Piece} {rest : List Char} (h : Munches ps rest) :
    ∀ d ∈ (ps.flatMap Piece.hidden).head?,
      d ∈ (ps.flatMap Piece.text).head? ∨ d.isWhitespace = true := by
  cases ps with
  | nil => nofun
  | cons p ps =>
    obtain ⟨munched, _⟩ := h
    obtain ⟨c, cs, hc⟩ : ∃ c cs, p.hidden = c :: cs := by
      refine List.exists_cons_of_ne_nil fun he => munched.text_ne_nil ?_
      rw [← List.length_eq_zero_iff, ← p.length_hidden, he, List.length_nil]
    rw [List.flatMap_cons, List.flatMap_cons, hc]
    rintro d ⟨rfl⟩
    rcases munched.blanked_cases with ⟨_, _, _, _, _, same⟩ | ⟨_, blank, _⟩
    · rw [← same, hc]
      exact .inl rfl
    · exact .inr (blank c (by simp [hc]))

theorem munches_blanks {text : List Char} (h : ∀ c ∈ text, c.isWhitespace = true)
    (rest : List Char) : Munches (blanks text) rest := by
  induction text with
  | nil => trivial
  | cons c text ih => exact ⟨h c (by simp), ih fun d hd => h d (by simp [hd])⟩

/-- The row that is left is as the lexical grammar has it. -/
theorem Munches.blanked {ps : List Piece} (h : Munches ps []) :
    Munches (ps.flatMap Piece.blanked) [] := by
  induction ps with
  | nil => trivial
  | cons p ps ih =>
    obtain ⟨munched, more⟩ := h
    rw [List.flatMap_cons, munches_append]
    refine ⟨?_, ih more⟩
    rw [text_flatMap_blanked, List.append_nil]
    rw [List.append_nil] at munched
    rcases munched.blanked_cases with ⟨kind, lexeme, rfl, hk, he, _⟩ | ⟨he, blank, _⟩
    · rw [he]
      refine ⟨Munched.before munched fun d hd => ?_, trivial⟩
      refine (more.head_hidden d hd).imp_right fun blank => ⟨blank, ?_⟩
      rintro rfl
      cases hk
    · rw [he]
      exact munches_blanks blank _

/-! ## The scan of what is left -/

theorem place_blanks_silent (text : List Char) (line : Nat) :
    (place line (blanks text)).filterMap Spot.token? = [] ∧
      (place line (blanks text)).filterMap Spot.diagnostic? = [] := by
  induction text generalizing line with
  | nil => exact ⟨rfl, rfl⟩
  | cons c text ih => exact ih _

/-- The tokens that are no comments are still there, each on its line. -/
theorem Munches.tokens_blanked {ps : List Piece} {rest : List Char} (h : Munches ps rest)
    (line : Nat) : (place line (ps.flatMap Piece.blanked)).filterMap Spot.token? =
      ((place line ps).filterMap Spot.token?).filter (!·.kind.isComment) := by
  induction ps generalizing line with
  | nil => rfl
  | cons p ps ih =>
    obtain ⟨munched, more⟩ := h
    rw [List.flatMap_cons, place_append, List.filterMap_append, text_blanked,
      munched.newlines_hidden, ih more, place, List.filterMap_cons]
    rcases munched.blanked_cases with ⟨kind, lexeme, rfl, hk, he, _⟩ | ⟨he, _, comment⟩
    · simp [he, place, Spot.token?, hk]
    · rw [he, (place_blanks_silent _ _).1, List.nil_append]
      cases p with
      | token kind lexeme => simp [Spot.token?, comment kind lexeme rfl]
      | blank c => rfl
      | stray c => rfl
      | openComment text => rfl

/-- Nothing is wrong with the row that is left. -/
theorem Munches.diagnostics_blanked {ps : List Piece} {rest : List Char} (h : Munches ps rest)
    (line : Nat) : (place line (ps.flatMap Piece.blanked)).filterMap Spot.diagnostic? = [] := by
  induction ps generalizing line with
  | nil => rfl
  | cons p ps ih =>
    obtain ⟨munched, more⟩ := h
    rw [List.flatMap_cons, place_append, List.filterMap_append, ih more, List.append_nil]
    rcases munched.blanked_cases with ⟨kind, lexeme, rfl, _, he, _⟩ | ⟨he, _, _⟩
    · simp [he, place, Spot.diagnostic?]
    · rw [he, (place_blanks_silent _ _).2]

/-- The lines of a row stay as they are. -/
theorem Munches.newlines_hidden {ps : List Piece} {rest : List Char} (h : Munches ps rest) :
    newlines (ps.flatMap Piece.hidden) = newlines (ps.flatMap Piece.text) := by
  induction ps with
  | nil => rfl
  | cons p ps ih => simp [h.1.newlines_hidden, ih h.2]

/-- Nothing is wrong with a source that is blanked out, and its tokens are those that are
no comments. -/
theorem scan_blankOut (source : String) :
    (Scan.ofSource (blankOut source)).diagnostics.toList = [] ∧
      (Scan.ofSource (blankOut source)).tokens =
        (Scan.ofSource source).tokens.filter (!·.kind.isComment) := by
  obtain ⟨ps, row, text, hs⟩ := exists_row source.toList
  have hidden : (blankOut source).toList = ps.flatMap Piece.hidden := by
    rw [blankOut, String.toList_ofList, Scan.ofSource, Scan.ofChars, hs, map_piece_place]
  have spots : spots 1 (ps.flatMap Piece.hidden) = place 1 (ps.flatMap Piece.blanked) := by
    have read := spots_of_munches row.blanked 1
    rwa [text_flatMap_blanked, spots_nil, List.append_nil, List.append_nil] at read
  have lines : newlines (ps.flatMap Piece.hidden) = newlines source.toList := by
    rw [row.newlines_hidden, text]
  constructor
  · rw [Scan.diagnostics, Scan.ofSource, Scan.ofChars, hidden, spots, row.diagnostics_blanked,
      Collector.toList_ofList]
  · rw [Scan.tokens, Scan.tokens, Scan.ofSource, Scan.ofSource, Scan.ofChars, Scan.ofChars, hidden,
      spots, lines, row.tokens_blanked, hs, List.filter_append]
    rfl

/-! ## The analysis of what is left -/

theorem isLexical_of_mem_diagnostics {s : Scan} {d : Diagnostic} (h : d ∈ s.diagnostics.toList) :
    d.isLexical = true := by
  rw [Scan.diagnostics, Collector.toList_ofList] at h
  obtain ⟨spot, _, hd⟩ := List.mem_filterMap.mp h
  rcases spot with ⟨line, piece⟩
  cases piece with
  | token => cases hd
  | blank => cases hd
  | stray => obtain rfl := Option.some.inj hd; rfl
  | openComment => obtain rfl := Option.some.inj hd; rfl

theorem not_isLexical_of_mem_verdict {v : Verdict} {d : Diagnostic}
    (h : d ∈ v.diagnostics.toList) : d.isLexical = false := by
  rw [Verdict.diagnostics, Collector.toList_ofList] at h
  obtain ⟨r, _, rfl⟩ := List.mem_map.mp h
  rfl

/-- What the grammar finds wrong with a source. -/
theorem Analysis.filter_not_isLexical (source : String) :
    (Analysis.ofSource source).diagnostics.toList.filter (!·.isLexical) =
      (Verdict.ofTokens (Scan.ofSource source).tokens).diagnostics.toList := by
  have lexical : (Scan.ofSource source).diagnostics.toList.filter (!·.isLexical) = [] :=
    List.filter_eq_nil_iff.mpr fun d hd => by simp [isLexical_of_mem_diagnostics hd]
  have syntactic : ∀ d ∈ (Verdict.ofTokens (Scan.ofSource source).tokens).diagnostics.toList,
      (!d.isLexical) = true := fun d hd => by simp [not_isLexical_of_mem_verdict hd]
  rw [Analysis.ofSource, Analysis.ofScan, Collector.toList_append, List.filter_append, lexical,
    List.nil_append, List.filter_eq_self.mpr syntactic]

/-- A source whose comments and stray characters are blanked out has no lexical problem and
the same tokens without the comments.  What is wrong with it is what the grammar finds
wrong with the source. -/
theorem analysis_blankOut (source : String) :
    (Scan.ofSource (blankOut source)).diagnostics.toList = [] ∧
      (Scan.ofSource (blankOut source)).tokens =
        (Scan.ofSource source).tokens.filter (!·.kind.isComment) ∧
      (Analysis.ofSource (blankOut source)).diagnostics.toList =
        (Analysis.ofSource source).diagnostics.toList.filter (!·.isLexical) ∧
      ((Analysis.ofSource (blankOut source)).success = true ↔
        (Verdict.ofTokens (Scan.ofSource source).tokens).accepted = true) := by
  obtain ⟨clean, tokens⟩ := scan_blankOut source
  have verdict : Verdict.ofTokens (Scan.ofSource (blankOut source)).tokens =
      Verdict.ofTokens (Scan.ofSource source).tokens := by
    rw [Verdict.ofTokens, tokens, ofTokens_filter (Scan.endMarker_mem_tokens _), Verdict.ofTokens]
  have left : (Analysis.ofSource (blankOut source)).diagnostics.toList =
      (Verdict.ofTokens (Scan.ofSource source).tokens).diagnostics.toList := by
    rw [Analysis.ofSource, Analysis.ofScan, Collector.toList_append, clean, verdict,
      List.nil_append]
  refine ⟨clean, tokens, ?_, ?_⟩
  · rw [left, Analysis.filter_not_isLexical]
  · rw [Analysis.success, Collector.isEmpty_iff, left, Verdict.accepted, Collector.isEmpty_iff]

/-- The two signs behind `x` do not become one. -/
example : blankOut "x =#= 1; /* y\n */ // z" = "x = = 1;     \n        " := by decide +kernel

end MiniC
