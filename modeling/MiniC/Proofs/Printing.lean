import MiniC.Proofs.Blanking
import MiniC.Proofs.Lexical.Split

/-!
# Printing tokens and scanning them again

A `Layout` of a row of tokens says which blanks stand before the first token and behind
each of them.  Between two tokens there is a blank, and the blanks behind a line comment
begin with a newline, which ends it.  Otherwise a layout is free.  Its text is the tokens
and the blanks, one after another.

The tokens of a source can be laid out in any way, and the text is scanned to the same
kinds and lexemes.  That is `scan_layout`.  Tokens that touch each other in the source are
no exception, since the lexical grammar asks of what follows a token only that it does not
go on with it, and no blank does.
-/

namespace MiniC

/-- A token without its line. -/
def Token.content (t : Token) : Kind × String := (t.kind, t.lexeme)

/-! ## Layouts -/

/-- The blanks of a layout. -/
def IsGap (gap : String) : Prop := ∀ c ∈ gap.toList, c ∈ [' ', '\t', '\r', '\n']

/-- A way to write down a row of tokens. -/
structure Layout (tokens : List Token) where
  /-- The gap before the first token. -/
  lead : String
  /-- Each token with the gap behind it. -/
  row : List (Token × String)
  /-- The tokens are those of the row, in order. -/
  map_fst_row : row.map Prod.fst = tokens
  /-- The first gap holds blanks. -/
  isGap_lead : IsGap lead
  /-- The other gaps hold blanks. -/
  isGap_row : ∀ p ∈ row, IsGap p.2
  /-- Only behind the last token may there be no blank. -/
  apart : ∀ p ∈ row.dropLast, p.2 ≠ ""
  /-- A line comment is ended by a newline, or by the end of the text. -/
  ended : ∀ p ∈ row, p.1.kind = .lineComment → p.2 = "" ∨ p.2.toList.head? = some '\n'

namespace Layout

variable {tokens : List Token}

/-- The text of a layout. -/
def text (l : Layout tokens) : String :=
  l.lead ++ String.join (l.row.map fun p => p.1.lexeme ++ p.2)

/-- The layout with every token on a line of its own. -/
def lines (tokens : List Token) : Layout tokens where
  lead := ""
  row := tokens.map (·, "\n")
  map_fst_row := by simp [Function.comp_def]
  isGap_lead := by simp [IsGap]
  isGap_row := by simp [IsGap]
  apart := by simp [← List.map_dropLast]
  ended := by simp

instance : Inhabited (Layout tokens) := ⟨lines tokens⟩

end Layout

/-! ## The pieces of a layout -/

theorem isWhitespace_of_isGap {gap : String} (h : IsGap gap) :
    ∀ c ∈ gap.toList, c.isWhitespace = true := by
  intro c hc
  have blank := h c hc
  simp only [List.mem_cons, List.not_mem_nil, or_false] at blank
  rcases blank with rfl | rfl | rfl | rfl <;> decide

/-- A token and the blanks behind it. -/
def piecesOf (p : Token × String) : List Piece :=
  .token p.1.kind p.1.lexeme.toList :: blanks p.2.toList

@[simp] theorem text_piecesOf (p : Token × String) :
    (piecesOf p).flatMap Piece.text = p.1.lexeme.toList ++ p.2.toList := by
  simp [piecesOf, Piece.text]

/-- What is a token before some rest is one before a gap that may stand behind it. -/
theorem Munched.before_gap {kind : Kind} {lexeme rest rest' : List Char} {gap : String}
    (h : Munched kind lexeme rest) (blank : IsGap gap) (last : gap = "" → rest' = [])
    (ended : kind = .lineComment → gap = "" ∨ gap.toList.head? = some '\n') :
    Munched kind lexeme (gap.toList ++ rest') := by
  refine h.before fun d hd => .inr ?_
  cases hg : gap.toList with
  | nil =>
    rw [hg, last (String.toList_eq_nil_iff.mp hg)] at hd
    cases hd
  | cons c cs =>
    rw [hg] at hd
    obtain rfl := Option.some.inj hd
    refine ⟨isWhitespace_of_isGap blank c (by simp [hg]), fun hk => ?_⟩
    rcases ended hk with rfl | newline
    · simp at hg
    · rw [hg] at newline
      exact Option.some.inj newline

/-- The pieces of a layout are as the lexical grammar has them if its tokens are tokens
before some rest. -/
theorem munches_piecesOf {row : List (Token × String)}
    (written : ∀ p ∈ row, ∃ rest, Munched p.1.kind p.1.lexeme.toList rest)
    (blank : ∀ p ∈ row, IsGap p.2) (apart : ∀ p ∈ row.dropLast, p.2 ≠ "")
    (ended : ∀ p ∈ row, p.1.kind = .lineComment → p.2 = "" ∨ p.2.toList.head? = some '\n') :
    Munches (row.flatMap piecesOf) [] := by
  induction row with
  | nil => trivial
  | cons p row ih =>
    obtain ⟨⟨rest, munched⟩, writtenRow⟩ := List.forall_mem_cons.mp written
    obtain ⟨gap, blankRow⟩ := List.forall_mem_cons.mp blank
    obtain ⟨line, endedRow⟩ := List.forall_mem_cons.mp ended
    have apartRow : ∀ q ∈ row.dropLast, q.2 ≠ "" := by
      intro q hq
      cases row with
      | nil => cases hq
      | cons r row => exact apart q (List.mem_cons_of_mem p hq)
    have last : p.2 = "" → row = [] := by
      intro empty
      cases row with
      | nil => rfl
      | cons r row => exact absurd empty (apart p List.mem_cons_self)
    have first : Munched p.1.kind p.1.lexeme.toList
        (p.2.toList ++ (row.flatMap piecesOf).flatMap Piece.text) :=
      munched.before_gap gap (fun empty => by simp [last empty]) line
    rw [List.flatMap_cons, munches_append, List.append_nil]
    refine ⟨⟨?_, munches_blanks (isWhitespace_of_isGap gap) _⟩, ?_⟩
    · rwa [text_blanks]
    · exact ih writtenRow blankRow apartRow endedRow

/-! ## The scan of a layout -/

/-- Every token of a row of pieces is a token before what lies behind it. -/
theorem Munches.munched_of_mem {ps : List Piece} {rest : List Char} (h : Munches ps rest)
    {line : Nat} {t : Token} (ht : t ∈ (place line ps).filterMap Spot.token?) :
    ∃ rest, Munched t.kind t.lexeme.toList rest := by
  obtain ⟨s, hs, hst⟩ := List.mem_filterMap.mp ht
  have piece : s.piece ∈ ps := by
    rw [← map_piece_place line ps]
    exact List.mem_map_of_mem hs
  obtain ⟨before, after, rfl⟩ := List.append_of_mem piece
  have munched := (munches_append.mp h).2.1
  rw [Spot.piece_of_token? hst] at munched
  exact ⟨_, munched⟩

/-- The pieces of a layout give its tokens, whatever their lines, and no diagnostic. -/
theorem filterMap_place_piecesOf (row : List (Token × String)) (line : Nat) :
    ((place line (row.flatMap piecesOf)).filterMap Spot.token?).map Token.content =
        (row.map Prod.fst).map Token.content ∧
      (place line (row.flatMap piecesOf)).filterMap Spot.diagnostic? = [] := by
  induction row generalizing line with
  | nil => exact ⟨rfl, rfl⟩
  | cons p row ih =>
    obtain ⟨tokens, diagnostics⟩ := ih (line + newlines (p.1.lexeme.toList ++ p.2.toList))
    obtain ⟨noToken, noDiagnostic⟩ :=
      place_blanks_silent p.2.toList (line + newlines p.1.lexeme.toList)
    have first : place line (piecesOf p) = ⟨line, .token p.1.kind p.1.lexeme.toList⟩ ::
        place (line + newlines p.1.lexeme.toList) (blanks p.2.toList) := rfl
    rw [List.flatMap_cons, place_append, text_piecesOf, first]
    constructor
    · rw [List.filterMap_append, List.map_append, tokens]
      simp [Spot.token?, Token.content, noToken]
    · rw [List.filterMap_append, diagnostics, List.append_nil]
      exact noDiagnostic

/-- The text of a layout of tokens is scanned to these tokens, if each is a token before some
rest. -/
theorem Layout.scan_text {tokens : List Token} (l : Layout tokens)
    (written : ∀ t ∈ tokens, ∃ rest, Munched t.kind t.lexeme.toList rest) :
    ((spots 1 l.text.toList).filterMap Spot.token?).map Token.content =
        tokens.map Token.content ∧
      (spots 1 l.text.toList).filterMap Spot.diagnostic? = [] := by
  have text : l.text.toList =
      (blanks l.lead.toList ++ l.row.flatMap piecesOf).flatMap Piece.text := by
    simp [Layout.text, List.flatMap_map, List.flatMap_assoc]
  have munched : ∀ p ∈ l.row, ∃ rest, Munched p.1.kind p.1.lexeme.toList rest := by
    intro p hp
    refine written p.1 ?_
    rw [← l.map_fst_row]
    exact List.mem_map_of_mem hp
  have row : Munches (blanks l.lead.toList ++ l.row.flatMap piecesOf) [] :=
    munches_append.mpr ⟨munches_blanks (isWhitespace_of_isGap l.isGap_lead) _,
      munches_piecesOf munched l.isGap_row l.apart l.ended⟩
  have spots : spots 1 l.text.toList =
      place 1 (blanks l.lead.toList ++ l.row.flatMap piecesOf) := by
    have read := spots_of_munches row 1
    rwa [spots_nil, List.append_nil, List.append_nil, ← text] at read
  obtain ⟨noToken, noDiagnostic⟩ := place_blanks_silent l.lead.toList 1
  obtain ⟨same, clean⟩ := filterMap_place_piecesOf l.row (1 + newlines l.lead.toList)
  rw [spots, place_append, text_blanks, List.filterMap_append, List.filterMap_append, noToken,
    noDiagnostic, List.nil_append, List.nil_append, same, l.map_fst_row]
  exact ⟨rfl, clean⟩

/-- The tokens of a source, laid out in any way, are scanned again: nothing is wrong with the
text, and its tokens have the same kinds and lexemes in the same order, with an end marker
behind them. -/
theorem scan_layout (source : String) (l : Layout (Scan.ofSource source).tokens.dropLast) :
    (Scan.ofSource l.text).diagnostics.toList = [] ∧
      ∃ ts, (Scan.ofSource l.text).tokens = ts ++ [.endMarker (1 + newlines l.text.toList)] ∧
        ts.map Token.content = (Scan.ofSource source).tokens.dropLast.map Token.content := by
  obtain ⟨ps, munches, _, hs⟩ := exists_row source.toList
  have tokens : (Scan.ofSource source).tokens.dropLast = (place 1 ps).filterMap Spot.token? := by
    rw [← hs]
    exact List.dropLast_concat
  obtain ⟨same, clean⟩ := l.scan_text fun t ht => munches.munched_of_mem (tokens ▸ ht)
  refine ⟨?_, _, rfl, same⟩
  rw [Scan.diagnostics, Collector.toList_ofList]
  exact clean

/-- Tokens that touch each other and a comment between them come back from lines of their
own. -/
example : (Layout.lines (Scan.ofSource "x<=/**/==1// y").tokens.dropLast).text =
    "x\n<=\n/**/\n==\n1\n// y\n" := by decide +kernel

end MiniC
