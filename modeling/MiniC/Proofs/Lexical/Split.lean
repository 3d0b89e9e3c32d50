import MiniC.Proofs.Lexical.Reading

/-!
# Nothing of a source is lost

A source falls into its tokens, the blanks between them, the characters that are
reported as stray and perhaps a comment that is reported as open.  `Splits` describes
such a way to take a source apart, with what is found on the way: a token or a
diagnostic for every piece but the blanks.  Each of them is on the line that its piece
begins on: one more than there are newlines before.

The sorts of pieces are kept apart.  A token is as the lexical grammar has it, and it
does not begin with a blank.  No token, no comment and no blank begins with a stray
character, and there is no closer in an open comment.  So there is just one way to take
a source apart, by `splits_iff`.

`tokens_split` says that the tokens and the diagnostics of a scan are what is found in
this one way, and that only the end marker stands behind those tokens.
-/

namespace MiniC

/-- Behind the characters `read`, those ahead fall into pieces, in which this is found. -/
inductive Splits : (read ahead : List Char) → List (Token ⊕ Diagnostic) → Prop where
  /-- There is nothing ahead. -/
  | done (read : List Char) : Splits read [] []
  /-- The first piece is a token. -/
  | token {read ahead lexeme : List Char} {found : List (Token ⊕ Diagnostic)} {kind : Kind}
    (hk : kind ≠ .endMarker) (hn : lexeme ≠ [])
    (hb : ∀ c ∈ lexeme.head?, c ∉ [' ', '\t', '\r', '\n']) (hm : Munched kind lexeme ahead)
    (h : Splits (read ++ lexeme) ahead found) :
    Splits read (lexeme ++ ahead)
      (.inl ⟨kind, String.ofList lexeme, 1 + newlines read⟩ :: found)
  /-- The first piece is a blank. -/
  | blank {read ahead : List Char} {found : List (Token ⊕ Diagnostic)} {c : Char}
    (hc : c ∈ [' ', '\t', '\r', '\n']) (h : Splits (read ++ [c]) ahead found) :
    Splits read (c :: ahead) found
  /-- The first piece is a stray character. -/
  | stray {read ahead : List Char} {found : List (Token ⊕ Diagnostic)} {c : Char}
    (hb : c ∉ [' ', '\t', '\r', '\n']) (hc : ¬ Begins c)
    (h : Splits (read ++ [c]) ahead found) :
    Splits read (c :: ahead) (.inr ⟨1 + newlines read, .strayCharacter c⟩ :: found)
  /-- The only piece is an open comment. -/
  | openComment {tail : List Char} (read : List Char)
    (hc : ∀ before after, tail ≠ before ++ '*' :: '/' :: after) :
    Splits read ('/' :: '*' :: tail) [.inr ⟨1 + newlines read, .openComment⟩]

/-! ## The sorts of pieces -/

theorem isWhitespace_iff {c : Char} : c.isWhitespace = true ↔ c ∈ [' ', '\t', '\r', '\n'] := by
  simp [Char.isWhitespace, or_assoc]

/-- A token does not begin with a blank. -/
theorem Munched.head_notMem {kind : Kind} {lexeme rest : List Char} (h : Munched kind lexeme rest) :
    ∀ c ∈ lexeme.head?, c ∉ [' ', '\t', '\r', '\n'] := by
  intro c hc blank
  obtain ⟨cs, rfl⟩ := List.head?_eq_some_iff.mp hc
  have token := cut_of_munched (p := .token kind (c :: cs)) h rfl
  rw [cut_of_isWhitespace (isWhitespace_iff.mpr blank)] at token
  cases token

/-! ## The spots of a source -/

/-- What is found at a spot.  At a blank that is nothing. -/
def Spot.finding? (s : Spot) : Option (Token ⊕ Diagnostic) :=
  match s.token? with
  | some t => some (.inl t)
  | none => s.diagnostic?.map .inr

/-- The spots of a source are a way to take it apart. -/
theorem splits_spots : ∀ read ahead : List Char,
    Splits read ahead ((spots (1 + newlines read) ahead).filterMap Spot.finding?)
  | read, [] => by
    rw [spots_nil]
    exact .done read
  | read, c :: cs => by
    have shorter := rest_length_lt c cs
    have munched := cut_munched c cs
    have more := text_cut_ne_nil c cs
    have behind := splits_spots (read ++ (cut c cs).piece.text) (cut c cs).rest
    rw [newlines_append, ← Nat.add_assoc] at behind
    rw [spots_cons, ← text_cut c cs]
    generalize cut c cs = first at munched more behind ⊢
    rcases first with ⟨piece, rest⟩
    cases piece with
    | token kind lexeme =>
      refine .token ?_ more (Munched.head_notMem munched) munched behind
      rintro rfl
      exact munched
    | blank c => exact .blank (isWhitespace_iff.mp munched) behind
    | stray c =>
      exact .stray (fun blank => munched (.inl (isWhitespace_iff.mpr blank))) munched behind
    | openComment text =>
      obtain ⟨rfl, tail, rfl, unclosed⟩ := munched
      rw [spots_nil, List.append_nil]
      exact .openComment read unclosed
termination_by _ ahead => ahead.length
decreasing_by exact shorter

/-- In front of a rest, a piece is what is found there first. -/
theorem filterMap_finding?_spots {p : Piece} {rest : List Char} (h : p.Munched rest)
    (read : List Char) : (spots (1 + newlines read) (p.text ++ rest)).filterMap Spot.finding? =
      (Spot.finding? ⟨1 + newlines read, p⟩).toList ++
        (spots (1 + newlines (read ++ p.text)) rest).filterMap Spot.finding? := by
  rw [spots_of_munched h, newlines_append, ← Nat.add_assoc, List.filterMap_cons]
  cases Spot.finding? ⟨1 + newlines read, p⟩ <;> rfl

/-- There is no other way. -/
theorem splits_iff {read ahead : List Char} {found : List (Token ⊕ Diagnostic)} :
    Splits read ahead found ↔
      found = (spots (1 + newlines read) ahead).filterMap Spot.finding? := by
  constructor
  · intro h
    induction h with
    | done => rw [spots_nil, List.filterMap_nil]
    | @token read ahead lexeme _ kind _ _ _ hm _ ih =>
      rw [ih]
      exact (filterMap_finding?_spots (p := .token kind lexeme) hm read).symm
    | @blank read ahead _ c hc _ ih =>
      rw [ih]
      exact (filterMap_finding?_spots (p := .blank c) (isWhitespace_iff.mpr hc) read).symm
    | @stray read ahead _ c _ hc _ ih =>
      rw [ih]
      exact (filterMap_finding?_spots (p := .stray c) hc read).symm
    | @openComment tail read hc =>
      have last : (Piece.openComment ('/' :: '*' :: tail)).Munched [] := ⟨rfl, tail, rfl, hc⟩
      have only := filterMap_finding?_spots last read
      rw [spots_nil, List.append_nil] at only
      exact only.symm
  · rintro rfl
    exact splits_spots read ahead

/-! ## What is found -/

/-- The tokens that are found are those of the spots. -/
theorem filterMap_getLeft?_finding? (row : List Spot) :
    (row.filterMap Spot.finding?).filterMap Sum.getLeft? = row.filterMap Spot.token? := by
  rw [List.filterMap_filterMap]
  congr 1
  funext s
  rcases s with ⟨line, piece⟩
  cases piece <;> rfl

/-- The diagnostics that are found are those of the spots. -/
theorem filterMap_getRight?_finding? (row : List Spot) :
    (row.filterMap Spot.finding?).filterMap Sum.getRight? = row.filterMap Spot.diagnostic? := by
  rw [List.filterMap_filterMap]
  congr 1
  funext s
  rcases s with ⟨line, piece⟩
  cases piece <;> rfl

/-- Before the end marker, none of the tokens is one. -/
theorem Splits.kind_ne_endMarker {read ahead : List Char} {found : List (Token ⊕ Diagnostic)}
    (h : Splits read ahead found) : ∀ t ∈ found.filterMap Sum.getLeft?, t.kind ≠ .endMarker := by
  induction h with
  | done => nofun
  | token hk _ _ _ _ ih =>
    rintro t (_ | ⟨_, ht⟩)
    · exact hk
    · exact ih t ht
  | blank _ _ ih => exact ih
  | stray _ _ _ ih => exact ih
  | openComment => nofun

/-- Before the end marker, no token of a scan is one. -/
theorem kind_ne_endMarker_of_mem_spots (source : List Char) :
    ∀ t ∈ (spots 1 source).filterMap Spot.token?, t.kind ≠ .endMarker := by
  rw [← filterMap_getLeft?_finding?]
  exact (splits_spots [] source).kind_ne_endMarker

/-- The tokens and the diagnostics of a scan are what is found when the source is taken
apart, for which there is just one way.  Behind the tokens stands the only end marker, on
the last line of the source. -/
theorem tokens_split (source : String) :
    ∃ found, (∀ found', Splits [] source.toList found' ↔ found' = found) ∧
      (Scan.ofSource source).tokens =
        found.filterMap Sum.getLeft? ++ [⟨.endMarker, "", 1 + newlines source.toList⟩] ∧
      (∀ t ∈ found.filterMap Sum.getLeft?, t.kind ≠ .endMarker) ∧
      (Scan.ofSource source).diagnostics.toList = found.filterMap Sum.getRight? := by
  refine ⟨_, fun found' => splits_iff, ?_, (splits_spots [] source.toList).kind_ne_endMarker, ?_⟩
  · rw [filterMap_getLeft?_finding?]
    rfl
  · rw [filterMap_getRight?_finding?, Scan.diagnostics, Collector.toList_ofList]
    rfl

end MiniC
