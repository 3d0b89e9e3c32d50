import MiniC.Analysis
import MiniC.Proofs.Lexical.Reading
import MiniC.Proofs.Sentence
import Mathlib.Data.List.Forall2

/-!
# The style of line endings

A line ends in a newline, and there may be a carriage return before it.  `returnLines` puts
one before every newline of a source.  Nothing is then found elsewhere, and nothing else is
wrong, which is `analysis_returnLines`.

Between tokens the carriage return is one more blank.  Behind a line comment it becomes the
last character of the comment, and inside a block comment it stays with its newline.  It never
parts the star and the slash of a closer, and it makes no closer either.  `Returned` goes
through a row of pieces and tells these places apart, and all else follows from it by
induction.
-/

namespace MiniC

/-! ## Carriage returns -/

/-- A newline gets a carriage return before it, and any other character stays. -/
def withReturn (c : Char) : List Char := if c = '\n' then ['\r', '\n'] else [c]

/-- A text with a carriage return before each newline. -/
def withReturns (text : List Char) : List Char := text.flatMap withReturn

/-- A source with a carriage return before each newline. -/
def returnLines (source : String) : String := String.ofList (withReturns source.toList)

@[simp] theorem withReturns_nil : withReturns [] = [] := rfl

@[simp] theorem withReturns_append (a b : List Char) :
    withReturns (a ++ b) = withReturns a ++ withReturns b :=
  List.flatMap_append

theorem withReturns_newline (text : List Char) :
    withReturns ('\n' :: text) = '\r' :: '\n' :: withReturns text := rfl

theorem withReturns_cons {c : Char} (h : c ≠ '\n') (text : List Char) :
    withReturns (c :: text) = c :: withReturns text := by
  rw [withReturns, List.flatMap_cons, withReturn, if_neg h]
  rfl

/-- Without newlines, a text stays as it is. -/
theorem withReturns_eq_self {text : List Char} (h : '\n' ∉ text) : withReturns text = text := by
  induction text with
  | nil => rfl
  | cons c text ih =>
    rw [List.mem_cons, not_or] at h
    rw [withReturns_cons (Ne.symm h.1), ih h.2]

@[simp] theorem newlines_withReturns (text : List Char) :
    newlines (withReturns text) = newlines text := by
  induction text with
  | nil => rfl
  | cons c text ih =>
    by_cases hc : c = '\n'
    · simpa [newlines, hc, withReturns_newline] using ih
    · simpa [newlines, hc, withReturns_cons hc] using ih

theorem newlines_append_return (text : List Char) : newlines (text ++ ['\r']) = newlines text :=
  newlines_append ..

/-- A text begins as it did or with a carriage return. -/
theorem head?_withReturns (text : List Char) :
    ∀ d ∈ (withReturns text).head?, d ∈ text.head? ∨ d = '\r' := by
  cases text with
  | nil => nofun
  | cons c text =>
    by_cases hc : c = '\n'
    · subst hc
      rintro d ⟨rfl⟩
      exact .inr rfl
    · rw [withReturns_cons hc]
      exact fun d hd => .inl hd

/-! ### Closers -/

theorem withReturns_eq_cons {c : Char} {text after : List Char} (hc : c ≠ '\r')
    (h : withReturns text = c :: after) : ∃ tail, text = c :: tail ∧ withReturns tail = after := by
  cases text with
  | nil => cases h
  | cons d text =>
    by_cases hd : d = '\n'
    · subst hd
      exact absurd (List.cons.inj h).1.symm hc
    · rw [withReturns_cons hd] at h
      obtain ⟨rfl, rfl⟩ := List.cons.inj h
      exact ⟨text, rfl, rfl⟩

/-- No closer comes about, and what is behind one stays behind it. -/
theorem withReturns_eq_closer {text before after : List Char}
    (h : withReturns text = before ++ '*' :: '/' :: after) :
    ∃ before' after', text = before' ++ '*' :: '/' :: after' ∧ withReturns after' = after := by
  induction text generalizing before with
  | nil => exact absurd h.symm (List.append_ne_nil_of_right_ne_nil _ (List.cons_ne_nil _ _))
  | cons c text ih =>
    by_cases hc : c = '\n'
    · subst hc
      rw [withReturns_newline] at h
      -- Neither of the two new characters is a star.
      match before, h with
      | _ :: _ :: before, h =>
        obtain ⟨before', after', rfl, rest⟩ := ih (List.cons.inj (List.cons.inj h).2).2
        exact ⟨'\n' :: before', after', rfl, rest⟩
    · rw [withReturns_cons hc] at h
      match before, h with
      | [], h =>
        obtain ⟨rfl, more⟩ := List.cons.inj h
        obtain ⟨tail, rfl, rest⟩ := withReturns_eq_cons (by decide) more
        exact ⟨[], tail, rfl, rest⟩
      | _ :: before, h =>
        obtain ⟨before', after', rfl, rest⟩ := ih (List.cons.inj h).2
        exact ⟨c :: before', after', rfl, rest⟩

theorem EndsAtCloser.withReturns {text : List Char} (h : EndsAtCloser text) :
    EndsAtCloser (withReturns text) := by
  obtain ⟨⟨front, rfl⟩, first⟩ := h
  refine ⟨⟨MiniC.withReturns front, ?_⟩, fun before after he => ?_⟩
  · exact (withReturns_append front ['*', '/']).symm
  · obtain ⟨before', after', same, rest⟩ := withReturns_eq_closer he
    rw [← rest, first before' after' same, withReturns_nil]

/-! ## Pieces -/

/-- Only a blank, a block comment and an open comment can hold a newline. -/
theorem Piece.Munched.newline_cases {p : Piece} {rest : List Char} (h : p.Munched rest) :
    '\n' ∉ p.text ∨ p = .blank '\n' ∨ (∃ lexeme, p = .token .blockComment lexeme) ∨
      ∃ text, p = .openComment text := by
  have word {lexeme : List Char} : IsWord lexeme rest → '\n' ∉ lexeme := by
    rintro ⟨c, cs, rfl, starts, more, _⟩ hn
    have outside : continuesWord '\n' = false := (plain_of_isWhitespace rfl).2.2.2.2
    have inside : continuesWord '\n' = true := by
      rcases List.mem_cons.mp hn with rfl | hn
      · exact continuesWord_of_startsWord starts
      · exact more _ hn
    rw [outside] at inside
    cases inside
  cases p with
  | token kind lexeme =>
    cases kind with
    | sign s =>
      obtain ⟨rfl, _⟩ := h
      exact .inl (by cases s <;> decide)
    | number => exact .inl fun hn => by cases h.2.1 _ hn
    | identifier => exact .inl (word h.1)
    | keyword k => exact .inl (word h.1)
    | lineComment => exact .inl h.2.1
    | blockComment => exact .inr (.inr (.inl ⟨lexeme, rfl⟩))
    | endMarker => cases h
  | blank c =>
    by_cases hc : c = '\n'
    · exact .inr (.inl (congrArg _ hc))
    · exact .inl fun hn => hc (List.mem_singleton.mp hn).symm
  | stray c =>
    refine .inl fun hn => h ?_
    rw [← List.mem_singleton.mp hn]
    exact .inl rfl
  | openComment text => exact .inr (.inr (.inr ⟨text, rfl⟩))

/-- A piece that begins with a blank is a blank. -/
theorem Piece.Munched.eq_blank {p : Piece} {rest : List Char} (h : p.Munched rest) {c : Char}
    {cs : List Char} (ht : p.text = c :: cs) (hc : c.isWhitespace = true) : p = .blank c := by
  have first := cut_of_munched h ht
  rw [cut_of_isWhitespace hc] at first
  exact (Cut.mk.inj first).1.symm

/-- What is behind a line comment is a newline. -/
theorem Munches.behind_lineComment {lexeme : List Char} {q : Piece} {ps : List Piece}
    (h : Munches (.token .lineComment lexeme :: q :: ps) []) : q = .blank '\n' := by
  obtain ⟨⟨_, _, stop⟩, munched, _⟩ := h
  obtain ⟨c, cs, ht⟩ := List.exists_cons_of_ne_nil munched.text_ne_nil
  obtain rfl : c = '\n' := stop c (by rw [List.flatMap_cons, ht]; rfl)
  exact munched.eq_blank ht rfl

/-! ## Rows of pieces -/

/-- The row on the right is the one on the left with a carriage return before each newline. -/
inductive Returned : List Piece → List Piece → Prop where
  /-- There is nothing left. -/
  | nil : Returned [] []
  /-- A piece that holds no newline.  A line comment has to be the last one. -/
  | keep {p : Piece} {ps qs : List Piece} (hn : '\n' ∉ p.text)
    (hl : ∀ lexeme, p = .token .lineComment lexeme → ps = []) (h : Returned ps qs) :
    Returned (p :: ps) (p :: qs)
  /-- A newline between tokens, which gets another blank before it. -/
  | newline {ps qs : List Piece} (h : Returned ps qs) :
    Returned (.blank '\n' :: ps) (.blank '\r' :: .blank '\n' :: qs)
  /-- A line comment before a newline, which takes the carriage return. -/
  | lineComment {lexeme : List Char} {ps qs : List Piece} (hn : '\n' ∉ lexeme)
    (h : Returned ps qs) :
    Returned (.token .lineComment lexeme :: .blank '\n' :: ps)
      (.token .lineComment (lexeme ++ ['\r']) :: .blank '\n' :: qs)
  /-- A block comment. -/
  | blockComment (lexeme : List Char) {ps qs : List Piece} (h : Returned ps qs) :
    Returned (.token .blockComment lexeme :: ps)
      (.token .blockComment (withReturns lexeme) :: qs)
  /-- An open comment. -/
  | openComment (text : List Char) {ps qs : List Piece} (h : Returned ps qs) :
    Returned (.openComment text :: ps) (.openComment (withReturns text) :: qs)

/-- To every row of a source there is one with carriage returns. -/
theorem Munches.exists_returned {ps : List Piece} (row : Munches ps []) :
    ∃ qs, Returned ps qs := by
  induction ps with
  | nil => exact ⟨[], .nil⟩
  | cons p ps ih =>
    obtain ⟨qs, h⟩ := ih row.2
    rcases row.1.newline_cases with plain | rfl | ⟨lexeme, rfl⟩ | ⟨text, rfl⟩
    · by_cases line : ∀ lexeme, p = .token .lineComment lexeme → ps = []
      · exact ⟨p :: qs, .keep plain line h⟩
      · push Not at line
        obtain ⟨lexeme, rfl, more⟩ := line
        obtain ⟨q, ps, rfl⟩ := List.exists_cons_of_ne_nil more
        obtain rfl := row.behind_lineComment
        -- The newline got its carriage return, which the comment takes over.
        cases h with
        | keep hn _ _ => exact absurd (List.mem_singleton_self _) hn
        | newline h => exact ⟨_, .lineComment plain h⟩
    · exact ⟨_, .newline h⟩
    · exact ⟨_, .blockComment lexeme h⟩
    · exact ⟨_, .openComment text h⟩

namespace Returned

variable {ps qs : List Piece}

/-- The characters of the row on the right. -/
theorem text_eq (h : Returned ps qs) :
    qs.flatMap Piece.text = withReturns (ps.flatMap Piece.text) := by
  induction h with
  | nil => rfl
  | keep hn _ _ ih =>
    rw [List.flatMap_cons, List.flatMap_cons, withReturns_append, withReturns_eq_self hn, ih]
  | newline _ ih =>
    rw [List.flatMap_cons, List.flatMap_cons, List.flatMap_cons, withReturns_append, ih]
    rfl
  | lineComment hn _ ih =>
    simp only [List.flatMap_cons, Piece.text, withReturns_append, withReturns_eq_self hn, ih,
      List.append_assoc]
    rfl
  | blockComment _ _ ih =>
    rw [List.flatMap_cons, List.flatMap_cons, withReturns_append, ih]
    rfl
  | openComment _ _ ih =>
    rw [List.flatMap_cons, List.flatMap_cons, withReturns_append, ih]
    rfl

/-- The row on the right is as the lexical grammar has it, if the one on the left is. -/
theorem munches (h : Returned ps qs) (row : Munches ps []) : Munches qs [] := by
  induction h with
  | nil => trivial
  | @keep p ps qs _ hl h ih =>
    obtain ⟨munched, more⟩ := row
    refine ⟨?_, ih more⟩
    rw [List.append_nil] at munched ⊢
    have text := h.text_eq
    cases p with
    | token kind lexeme =>
      refine Munched.before munched fun d hd => ?_
      rw [text] at hd
      rcases head?_withReturns _ d hd with same | rfl
      · exact .inl same
      · refine .inr ⟨rfl, ?_⟩
        rintro rfl
        obtain rfl := hl lexeme rfl
        cases hd
    | blank => exact munched
    | stray => exact munched
    | openComment =>
      obtain ⟨nothing, munched⟩ := munched
      rw [nothing] at text
      exact ⟨text, munched⟩
  | newline _ ih => exact ⟨rfl, rfl, ih row.2⟩
  | lineComment hn _ ih =>
    obtain ⟨⟨opener, _, _⟩, _, more⟩ := row
    refine ⟨⟨opener.trans (List.prefix_append ..), by simpa using hn, ?_⟩, rfl, ih more⟩
    rintro d ⟨rfl⟩
    rfl
  | blockComment _ _ ih =>
    obtain ⟨⟨_, rfl, ends⟩, more⟩ := row
    exact ⟨⟨_, rfl, ends.withReturns⟩, ih more⟩
  | openComment _ h ih =>
    obtain ⟨⟨nothing, _, rfl, unclosed⟩, more⟩ := row
    rw [List.append_nil] at nothing
    refine ⟨⟨?_, _, rfl, fun before after he => ?_⟩, ih more⟩
    · rw [h.text_eq, nothing]
      rfl
    · obtain ⟨before', after', closed, _⟩ := withReturns_eq_closer he
      exact unclosed before' after' closed

end Returned

/-! ## Scans -/

/-- Two tokens of one kind on one line, with the same lexeme unless they are comments. -/
structure Token.SameButComment (t u : Token) : Prop where
  /-- The kinds are the same. -/
  kind_eq : t.kind = u.kind
  /-- The lines are the same. -/
  line_eq : t.line = u.line
  /-- The lexemes are the same, but for comments. -/
  lexeme_eq : t.kind.isComment = false → t.lexeme = u.lexeme

theorem Token.SameButComment.refl (t : Token) : t.SameButComment t := ⟨rfl, rfl, fun _ => rfl⟩

/-- Two comments may have different lexemes. -/
theorem Token.SameButComment.comments {t u : Token} (hk : t.kind = u.kind) (hl : t.line = u.line)
    (hc : t.kind.isComment = true) : t.SameButComment u :=
  ⟨hk, hl, fun no => absurd (no.symm.trans hc) Bool.false_ne_true⟩

theorem filter_eq_of_sameButComment {ts us : List Token}
    (h : List.Forall₂ Token.SameButComment ts us) :
    ts.filter (!·.kind.isComment) = us.filter (!·.kind.isComment) := by
  induction h with
  | nil => rfl
  | @cons t u ts us same _ ih =>
    have kind := same.kind_eq
    by_cases hc : t.kind.isComment = true
    · rw [List.filter_cons_of_neg (by simp [hc]), List.filter_cons_of_neg (by simp [← kind, hc]),
        ih]
    · rw [Bool.not_eq_true] at hc
      obtain rfl : t = u := by
        rcases t with ⟨_, _, _⟩
        obtain rfl := same.kind_eq
        obtain rfl := same.line_eq
        obtain rfl := same.lexeme_eq hc
        rfl
      rw [List.filter_cons_of_pos (by simp [hc]), List.filter_cons_of_pos (by simp [hc]), ih]

namespace Returned

variable {ps qs : List Piece}

theorem tokens (h : Returned ps qs) (line : Nat) :
    List.Forall₂ Token.SameButComment ((place line qs).filterMap Spot.token?)
      ((place line ps).filterMap Spot.token?) := by
  induction h generalizing line with
  | nil => exact .nil
  | @keep p ps qs _ _ _ ih =>
    cases p with
    | token kind lexeme => exact .cons (.refl _) (ih _)
    | blank => exact ih _
    | stray => exact ih _
    | openComment => exact ih _
  | newline _ ih => exact ih _
  | lineComment _ _ ih =>
    refine .cons (.comments rfl rfl rfl) ?_
    rw [Piece.text, newlines_append_return]
    exact ih _
  | blockComment _ _ ih =>
    refine .cons (.comments rfl rfl rfl) ?_
    rw [Piece.text, newlines_withReturns]
    exact ih _
  | openComment _ _ ih =>
    rw [place, Piece.text, newlines_withReturns]
    exact ih _

/-- The same is wrong with the two rows. -/
theorem diagnostics (h : Returned ps qs) (line : Nat) :
    (place line qs).filterMap Spot.diagnostic? = (place line ps).filterMap Spot.diagnostic? := by
  induction h generalizing line with
  | nil => rfl
  | keep _ _ _ ih => rw [place, place, List.filterMap_cons, List.filterMap_cons, ih]
  | newline _ ih => exact ih _
  | lineComment _ _ ih =>
    rw [place, Piece.text, newlines_append_return]
    exact ih _
  | blockComment _ _ ih =>
    rw [place, Piece.text, newlines_withReturns]
    exact ih _
  | openComment _ _ ih =>
    rw [place, Piece.text, newlines_withReturns]
    exact congrArg (List.cons _) (ih _)

end Returned

/-- The spots of a source, without carriage returns and with them, are two such rows. -/
theorem exists_returned_spots (text : List Char) : ∃ ps qs, Returned ps qs ∧
    (∀ line, spots line text = place line ps) ∧
      ∀ line, spots line (withReturns text) = place line qs := by
  obtain ⟨ps, row, rfl, hs⟩ := exists_row text
  obtain ⟨qs, h⟩ := row.exists_returned
  refine ⟨ps, qs, h, hs, fun line => ?_⟩
  have read := spots_of_munches (h.munches row) line
  rwa [h.text_eq, List.append_nil, spots_nil, List.append_nil] at read

/-- Carriage returns before the newlines change no token but in the lexeme of a comment, and
they leave what is wrong with the source as it is. -/
theorem analysis_returnLines (source : String) :
    List.Forall₂ Token.SameButComment (Scan.ofSource (returnLines source)).tokens
        (Scan.ofSource source).tokens ∧
      (Analysis.ofSource (returnLines source)).diagnostics =
        (Analysis.ofSource source).diagnostics ∧
      (Analysis.ofSource (returnLines source)).success = (Analysis.ofSource source).success := by
  obtain ⟨ps, qs, h, hs, hs'⟩ := exists_returned_spots source.toList
  have scan : Scan.ofSource source = ⟨place 1 ps, 1 + newlines source.toList⟩ := by
    rw [Scan.ofSource, Scan.ofChars, hs]
  have scan' : Scan.ofSource (returnLines source) = ⟨place 1 qs, 1 + newlines source.toList⟩ := by
    rw [Scan.ofSource, Scan.ofChars, returnLines, String.toList_ofList, hs', newlines_withReturns]
  have tokens : List.Forall₂ Token.SameButComment (Scan.ofSource (returnLines source)).tokens
      (Scan.ofSource source).tokens := by
    rw [scan, scan']
    exact List.rel_append (h.tokens 1) (.cons (.refl _) .nil)
  have lexical : (Scan.ofSource (returnLines source)).diagnostics =
      (Scan.ofSource source).diagnostics := by
    rw [scan, scan', Scan.diagnostics, h.diagnostics, Scan.diagnostics]
  have verdict := verdict_congr (filter_eq_of_sameButComment tokens)
  have diagnostics : (Analysis.ofSource (returnLines source)).diagnostics =
      (Analysis.ofSource source).diagnostics := by
    rw [Analysis.ofSource, Analysis.ofScan, lexical, verdict, Analysis.ofSource, Analysis.ofScan]
  refine ⟨tokens, diagnostics, ?_⟩
  rw [Analysis.success, diagnostics, Analysis.success]

/-- The comments take carriage returns in, and the words do not. -/
example : (Scan.ofSource (returnLines "x // y\n/*\n*/ z")).tokens.map Token.lexeme =
    ["x", "// y\r", "/*\r\n*/", "z", ""] := by decide +kernel

end MiniC
