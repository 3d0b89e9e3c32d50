import MiniC.Proofs.Lexical.Newline

/-!
# Appending to a source

Text behind a source can only change what touches the end of the source.  The lexical grammar
looks at one character behind a piece, so a piece that something follows stays as it is as
long as that begins alike.  That is `Munches.before_alike`.  Hence all spots of a source but
the last stay where they are, and so do their tokens and diagnostics.  `scan_append` counts
the characters up to the end of each token to say so.

Behind a newline nothing is changed at all, unless a comment is open there.  What comes behind
is then scanned as it would be by itself, which is `scan_append_newline`.
-/

namespace MiniC

/-! ## Behind a newline -/

/-- Behind a source that leaves no comment open and a newline, another source is scanned as it
would be by itself, further down. -/
theorem scan_append_newline {a : String} (b : String)
    (h : ∀ e ∈ (Scan.ofSource a).diagnostics.toList, e.problem ≠ .openComment) :
    (Scan.ofSource (a ++ "\n" ++ b)).tokens =
        (Scan.ofSource a).tokens.dropLast ++
          (Scan.ofSource b).tokens.map (Token.down (1 + newlines a.toList)) ∧
      (Scan.ofSource (a ++ "\n" ++ b)).diagnostics.toList =
        (Scan.ofSource a).diagnostics.toList ++
          (Scan.ofSource b).diagnostics.toList.map (Diagnostic.down (1 + newlines a.toList)) := by
  have closed : Closed (spots 1 a.toList) := closed_of_problems h
  have source : (a ++ "\n" ++ b).toList = a.toList ++ '\n' :: b.toList := by simp
  have before : (Scan.ofSource a).tokens.dropLast = (spots 1 a.toList).filterMap Spot.token? :=
    List.dropLast_concat
  constructor
  · rw [Scan.ofSource, source, tokens_newline closed, before]
    rfl
  · rw [Scan.ofSource, source, diagnostics_newline closed]
    rfl

/-- A stray character and a sign at the end of a line, and an open comment below. -/
theorem scan_less_newline_equal :
    (∀ e ∈ (Scan.ofSource "x@<").diagnostics.toList, e.problem ≠ .openComment) ∧
      (Scan.ofSource ("x@<" ++ "\n" ++ "=\n/*")).tokens =
        [⟨.identifier, "x", 1⟩, ⟨.sign .less, "<", 1⟩, ⟨.sign .assign, "=", 2⟩, .endMarker 3] ∧
      (Scan.ofSource ("x@<" ++ "\n" ++ "=\n/*")).diagnostics.toList =
        [⟨1, .strayCharacter '@'⟩, ⟨3, .openComment⟩] := by
  have closed : ∀ e ∈ (Scan.ofSource "x@<").diagnostics.toList, e.problem ≠ .openComment := by
    decide +kernel
  obtain ⟨tokens, diagnostics⟩ := scan_append_newline "=\n/*" closed
  refine ⟨closed, ?_, ?_⟩
  · rw [tokens]
    decide +kernel
  · rw [diagnostics]
    decide +kernel

/-! ## What something follows -/

/-- A piece that something follows stays as it is if what follows begins alike. -/
theorem Piece.Munched.before_alike {p : Piece} {rest rest' : List Char} (h : p.Munched rest)
    (hn : rest ≠ []) (hr : rest'.head? = rest.head?) : p.Munched rest' := by
  cases p with
  | token kind lexeme => exact MiniC.Munched.before h fun d hd => .inl (hr ▸ hd)
  | blank c => exact h
  | stray c => exact h
  | openComment text => exact absurd h.1 hn

/-- So does a row of pieces. -/
theorem Munches.before_alike {ps : List Piece} {rest rest' : List Char} (h : Munches ps rest)
    (hn : rest ≠ []) (hr : rest'.head? = rest.head?) : Munches ps rest' := by
  induction ps with
  | nil => trivial
  | cons p ps ih =>
    obtain ⟨munched, more⟩ := h
    refine ⟨munched.before_alike (List.append_ne_nil_of_right_ne_nil _ hn) ?_, ih more⟩
    rw [List.head?_append, List.head?_append, hr]

/-- Only the last piece may be an open comment. -/
theorem Munches.ne_openComment {ps : List Piece} {rest : List Char} (h : Munches ps rest)
    (hn : rest ≠ []) : ∀ p ∈ ps, ∀ text, p ≠ .openComment text := by
  induction ps with
  | nil => nofun
  | cons p ps ih =>
    obtain ⟨munched, more⟩ := h
    refine List.forall_mem_cons.mpr ⟨?_, ih more⟩
    rintro text rfl
    exact List.append_ne_nil_of_right_ne_nil _ hn munched.1

/-! ## The last piece -/

/-- A source that is not empty has a last piece, and those before it stay whatever is
appended. -/
theorem exists_last {a : List Char} (h : a ≠ []) : ∃ ps last,
    a = ps.flatMap Piece.text ++ last.text ∧ last.Munched [] ∧
      (∀ p ∈ ps, ∀ text, p ≠ .openComment text) ∧ (∀ b, Munches ps (last.text ++ b)) ∧
      ∀ line, spots line a = place line (ps ++ [last]) := by
  obtain ⟨row, munches, rfl, hs⟩ := exists_row a
  rcases List.eq_nil_or_concat row with rfl | ⟨ps, last, rfl⟩
  · exact absurd rfl h
  · rw [List.concat_eq_append] at munches hs ⊢
    obtain ⟨before, munched, _⟩ := munches_append.mp munches
    have more : last.text ≠ [] := munched.text_ne_nil
    rw [List.flatMap_singleton, List.append_nil] at before
    refine ⟨ps, last, by simp, munched, before.ne_openComment more, fun b => ?_, hs⟩
    refine before.before_alike more ?_
    rw [List.head?_append, Option.or_of_isSome (by simpa using more)]

/-! ## Where tokens end -/

/-- How many characters there are up to the end of each token of a row of spots, if `read` are
before the row. -/
def tokenEnds (read : Nat) : List Spot → List Nat
  | [] => []
  | s :: row =>
    match s.token? with
    | some _ => (read + s.piece.text.length) :: tokenEnds (read + s.piece.text.length) row
    | none => tokenEnds (read + s.piece.text.length) row

/-- How many characters there are up to the end of each token of a scan, in order.  The end
marker is not among them. -/
def Scan.ends (s : Scan) : List Nat := tokenEnds 0 s.spots

theorem tokenEnds_append (read : Nat) (a b : List Spot) :
    tokenEnds read (a ++ b) = tokenEnds read a ++ tokenEnds (read + (texts a).length) b := by
  induction a generalizing read with
  | nil => rfl
  | cons s a ih =>
    rw [List.cons_append, tokenEnds, tokenEnds, ih, texts_cons, List.length_append, Nat.add_assoc]
    cases s.token? with
    | none => rfl
    | some t => rfl

theorem length_tokenEnds (read : Nat) (row : List Spot) :
    (tokenEnds read row).length = (row.filterMap Spot.token?).length := by
  induction row generalizing read with
  | nil => rfl
  | cons s row ih =>
    rw [tokenEnds, List.filterMap_cons]
    cases s.token? with
    | none => exact ih _
    | some t => rw [List.length_cons, List.length_cons, ih]

/-- The lexeme of a token stands before the place where the token ends. -/
theorem lexeme_of_tokenEnds {i stop : Nat} {t : Token} : ∀ {read : Nat} {row : List Spot},
    (row.filterMap Spot.token?)[i]? = some t → (tokenEnds read row)[i]? = some stop →
      ∃ before after, texts row = before ++ t.lexeme.toList ++ after ∧
        stop = read + (before ++ t.lexeme.toList).length
  | read, [], ht, _ => by cases ht
  | read, s :: row, ht, he => by
    have behind : (∃ before after, texts row = before ++ t.lexeme.toList ++ after ∧
          stop = read + s.piece.text.length + (before ++ t.lexeme.toList).length) →
        ∃ before after, texts (s :: row) = before ++ t.lexeme.toList ++ after ∧
          stop = read + (before ++ t.lexeme.toList).length := by
      rintro ⟨before, after, text, place⟩
      refine ⟨s.piece.text ++ before, after, by simp [text], ?_⟩
      rw [place, Nat.add_assoc, ← List.length_append, List.append_assoc]
    rw [tokenEnds] at he
    rw [List.filterMap_cons] at ht
    cases hs : s.token? with
    | none =>
      rw [hs] at ht he
      exact behind (lexeme_of_tokenEnds ht he)
    | some u =>
      rw [hs] at ht he
      cases i with
      | zero =>
        obtain rfl := Option.some.inj ht
        obtain rfl := Option.some.inj he
        have lexeme : s.piece.text = u.lexeme.toList := by
          rw [Spot.piece_of_token? hs]
          rfl
        rw [texts_cons, lexeme]
        exact ⟨[], texts row, rfl, rfl⟩
      | succ i => exact behind (lexeme_of_tokenEnds (i := i) ht he)

theorem eq_of_mem_tokenEnds {read stop : Nat} {s : Spot} (h : stop ∈ tokenEnds read [s]) :
    stop = read + s.piece.text.length := by
  rw [tokenEnds] at h
  cases hs : s.token? with
  | none =>
    rw [hs] at h
    cases h
  | some t =>
    rw [hs] at h
    exact List.mem_singleton.mp h

/-! ## What stays -/

/-- Tells the diagnostics of stray characters. -/
def Diagnostic.isStray (d : Diagnostic) : Bool :=
  match d.problem with
  | .strayCharacter _ => true
  | _ => false

theorem texts_place (line : Nat) (ps : List Piece) :
    texts (place line ps) = ps.flatMap Piece.text := by
  have pieces : texts (place line ps) = ((place line ps).map Spot.piece).flatMap Piece.text :=
    (List.flatMap_map ..).symm
  rw [pieces, map_piece_place]

/-- Only stray characters are reported of a row without an open comment. -/
theorem isStray_of_place {ps : List Piece} (h : ∀ p ∈ ps, ∀ text, p ≠ .openComment text)
    (line : Nat) : ∀ d ∈ (place line ps).filterMap Spot.diagnostic?, d.isStray = true := by
  intro d hd
  obtain ⟨⟨l, p⟩, hs, hsd⟩ := List.mem_filterMap.mp hd
  have piece : p ∈ ps := by
    rw [← map_piece_place line ps]
    exact List.mem_map_of_mem hs
  cases p with
  | token kind lexeme => cases hsd
  | blank c => cases hsd
  | stray c =>
    obtain rfl := Option.some.inj hsd
    rfl
  | openComment text => exact absurd rfl (h _ piece text)

section

variable {a b : List Char} {ps : List Piece} {last : Piece}

/-- A token that ends before the last piece does stays at its index. -/
theorem token_stays (text : a = ps.flatMap Piece.text ++ last.text)
    (stays : Munches ps (last.text ++ b)) (hs : spots 1 a = place 1 (ps ++ [last]))
    {i stop : Nat} {t : Token} (ht : (Scan.ofChars a).tokens[i]? = some t)
    (he : (Scan.ofChars a).ends[i]? = some stop) (hstop : stop < a.length) :
    (Scan.ofChars (a ++ b)).tokens[i]? = some t ∧
      (Scan.ofChars (a ++ b)).ends[i]? = some stop := by
  have source : spots 1 (a ++ b) =
      place 1 ps ++ spots (1 + newlines (ps.flatMap Piece.text)) (last.text ++ b) := by
    rw [text, List.append_assoc, spots_of_munches stays]
  have ends : (Scan.ofChars a).ends = tokenEnds 0 (place 1 ps) ++
      tokenEnds (ps.flatMap Piece.text).length
        [⟨1 + newlines (ps.flatMap Piece.text), last⟩] := by
    rw [Scan.ends, Scan.ofChars, hs, place_append, tokenEnds_append, texts_place, Nat.zero_add]
    rfl
  have within : i < (tokenEnds 0 (place 1 ps)).length := by
    refine Nat.lt_of_not_le fun behind => ?_
    rw [ends, List.getElem?_append_right behind] at he
    have atEnd := eq_of_mem_tokenEnds (List.mem_of_getElem? he)
    rw [text, List.length_append] at hstop
    exact absurd hstop (atEnd ▸ Nat.lt_irrefl _)
  constructor
  · have first : i < ((place 1 ps).filterMap Spot.token?).length := by
      rwa [← length_tokenEnds 0]
    rw [Scan.tokens, Scan.ofChars, hs, place_append, List.filterMap_append, List.append_assoc,
      List.getElem?_append_left first] at ht
    rw [Scan.tokens, Scan.ofChars, source, List.filterMap_append, List.append_assoc,
      List.getElem?_append_left first, ht]
  · rw [ends, List.getElem?_append_left within] at he
    rw [Scan.ends, Scan.ofChars, source, tokenEnds_append, List.getElem?_append_left within, he]

/-- The stray characters of a source are reported first if anything is appended. -/
theorem strays_stay (text : a = ps.flatMap Piece.text ++ last.text) (munched : last.Munched [])
    (closed : ∀ p ∈ ps, ∀ text, p ≠ .openComment text) (stays : Munches ps (last.text ++ b))
    (hs : spots 1 a = place 1 (ps ++ [last])) :
    (Scan.ofChars a).diagnostics.toList.filter Diagnostic.isStray <+:
      (Scan.ofChars (a ++ b)).diagnostics.toList := by
  have before : ((place 1 ps).filterMap Spot.diagnostic?).filter Diagnostic.isStray =
      (place 1 ps).filterMap Spot.diagnostic? :=
    List.filter_eq_self.mpr (isStray_of_place closed 1)
  rw [Scan.diagnostics, Scan.diagnostics, Collector.toList_ofList, Collector.toList_ofList,
    Scan.ofChars, Scan.ofChars, hs, place_append, List.filterMap_append, List.filter_append, before,
    text, List.append_assoc, spots_of_munches stays, List.filterMap_append]
  refine (List.prefix_append_right_inj _).mpr ?_
  cases last with
  | token kind lexeme => exact List.nil_prefix
  | blank c => exact List.nil_prefix
  | stray c =>
    -- Nothing begins with a stray character, whatever comes behind it.
    have again : (Piece.stray c).Munched b := munched
    rw [spots_of_munched again]
    exact List.prefix_append [_] _
  | openComment text => exact List.nil_prefix

end

theorem Scan.length_tokens (s : Scan) : s.tokens.length = s.ends.length + 1 := by
  rw [ends, length_tokenEnds, tokens, List.length_append, List.length_singleton]

/-- The source of a scan up to the end of a token ends with its lexeme. -/
theorem lexeme_of_ends {a : List Char} {i stop : Nat} {t : Token}
    (ht : (Scan.ofChars a).tokens[i]? = some t) (he : (Scan.ofChars a).ends[i]? = some stop) :
    ∃ before after, a = before ++ t.lexeme.toList ++ after ∧
      stop = (before ++ t.lexeme.toList).length := by
  have within : i < ((spots 1 a).filterMap Spot.token?).length := by
    rw [← length_tokenEnds 0]
    exact (List.getElem?_eq_some_iff.mp he).1
  have token : ((spots 1 a).filterMap Spot.token?)[i]? = some t := by
    rwa [Scan.tokens, Scan.ofChars, List.getElem?_append_left within] at ht
  obtain ⟨before, after, text, place⟩ := lexeme_of_tokenEnds token he
  rw [texts_spots] at text
  exact ⟨before, after, text, place.trans (Nat.zero_add _)⟩

/-- Whatever is appended to a source, its tokens that end before its end keep their indices,
and what is reported of its stray characters comes first.  Every token but the end marker has
a place where it ends, and its lexeme stands before that place. -/
theorem scan_append (a b : String) :
    (Scan.ofSource a).tokens.length = (Scan.ofSource a).ends.length + 1 ∧
    (∀ (i stop : Nat) (t : Token), (Scan.ofSource a).tokens[i]? = some t →
      (Scan.ofSource a).ends[i]? = some stop →
        (∃ before after, a.toList = before ++ t.lexeme.toList ++ after ∧
          stop = (before ++ t.lexeme.toList).length) ∧
        (stop < a.length → (Scan.ofSource (a ++ b)).tokens[i]? = some t ∧
          (Scan.ofSource (a ++ b)).ends[i]? = some stop)) ∧
    (Scan.ofSource a).diagnostics.toList.filter Diagnostic.isStray <+:
      (Scan.ofSource (a ++ b)).diagnostics.toList := by
  refine ⟨Scan.length_tokens _, ?_⟩
  rw [Scan.ofSource, Scan.ofSource, String.toList_append, ← String.length_toList]
  by_cases empty : a.toList = []
  · rw [empty]
    have nothing : spots 1 [] = [] := spots_nil 1
    constructor
    · intro i stop t _ he
      rw [Scan.ends, Scan.ofChars, nothing] at he
      cases he
    · rw [Scan.diagnostics, Scan.ofChars, nothing]
      exact List.nil_prefix
  · obtain ⟨ps, last, text, munched, closed, stays, hs⟩ := exists_last empty
    constructor
    · intro i stop t ht he
      exact ⟨lexeme_of_ends ht he, token_stays text (stays _) (hs 1) ht he⟩
    · exact strays_stay text munched closed (stays _) (hs 1)

/-- Of a keyword, a stray character and a word at the end, the first two stay. -/
theorem scan_append_to_word :
    (Scan.ofSource "if @ in").tokens[0]? = some ⟨.keyword .kwIf, "if", 1⟩ ∧
      (Scan.ofSource "if @ in").ends[0]? = some 2 ∧ 2 < "if @ in".length ∧
      (Scan.ofSource ("if @ in" ++ "t /*")).tokens[0]? = some ⟨.keyword .kwIf, "if", 1⟩ ∧
      [⟨1, .strayCharacter '@'⟩] <+: (Scan.ofSource ("if @ in" ++ "t /*")).diagnostics.toList := by
  have token : (Scan.ofSource "if @ in").tokens[0]? = some ⟨.keyword .kwIf, "if", 1⟩ := by
    decide +kernel
  have stop : (Scan.ofSource "if @ in").ends[0]? = some 2 := by decide +kernel
  have within : 2 < "if @ in".length := by decide
  have stray : (Scan.ofSource "if @ in").diagnostics.toList.filter Diagnostic.isStray =
      [⟨1, .strayCharacter '@'⟩] := by decide +kernel
  obtain ⟨_, tokens, strays⟩ := scan_append "if @ in" "t /*"
  rw [stray] at strays
  exact ⟨token, stop, within, ((tokens 0 2 _ token stop).2 within).1, strays⟩

end MiniC
