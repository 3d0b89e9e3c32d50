import MiniC.Lexical.Scan

/-!
# Maximal munch

The lexical grammar says of each kind of token which characters it is made of and
which character cannot come behind it.  This is `Munched`.  It knows nothing of the
order in which the rules of a cut are tried, nor of how far they look.

`cut_munched` says that the first piece of a source is as the grammar has it, and
`spot_munched` says so of every piece of a scan.  A character is stray exactly if no
token, no comment and no blank begins with it.
-/

namespace MiniC

/-! ## The lexical grammar -/

/-- A comment is open behind its opener, and the text ends with the first closer in
it. -/
def EndsAtCloser (text : List Char) : Prop :=
  ['*', '/'] <:+ text ∧ ∀ before after, text = before ++ '*' :: '/' :: after → after = []

/-- A word, up to the first character that cannot be in it. -/
def IsWord (lexeme rest : List Char) : Prop :=
  ∃ c cs, lexeme = c :: cs ∧ startsWord c = true ∧ (∀ d ∈ cs, continuesWord d = true) ∧
    ∀ d ∈ rest.head?, continuesWord d = false

/-- The characters `lexeme` before `rest` are a token of this kind. -/
def Munched (kind : Kind) (lexeme rest : List Char) : Prop :=
  match kind with
  | .sign s =>
    lexeme = s.spelling ∧
      (s ∈ [.assign, .bang, .less, .greater] → rest.head? ≠ some '=') ∧
      (s = .divide → rest.head? ≠ some '/' ∧ rest.head? ≠ some '*')
  | .number =>
    lexeme ≠ [] ∧ (∀ d ∈ lexeme, d.isDigit = true) ∧ ∀ d ∈ rest.head?, d.isDigit = false
  | .identifier => IsWord lexeme rest ∧ ∀ k : Keyword, k.spelling.toList ≠ lexeme
  | .keyword k => IsWord lexeme rest ∧ k.spelling.toList = lexeme
  | .lineComment => ['/', '/'] <+: lexeme ∧ '\n' ∉ lexeme ∧ ∀ d ∈ rest.head?, d = '\n'
  | .blockComment => ∃ text, lexeme = '/' :: '*' :: text ∧ EndsAtCloser text
  -- The end marker has no text, and the scan puts it behind all others.
  | .endMarker => False

/-- A blank, a token or a comment begins with this character. -/
def Begins (c : Char) : Prop :=
  c.isWhitespace = true ∨ (∃ s : Sign, s.spelling.head? = some c) ∨ c.isDigit = true ∨
    startsWord c = true

/-- The piece before `rest` is as the lexical grammar has it. -/
def Piece.Munched : Piece → List Char → Prop
  | .token kind lexeme, rest => MiniC.Munched kind lexeme rest
  | .blank c, _ => c.isWhitespace = true
  | .stray c, _ => ¬ Begins c
  | .openComment text, rest =>
    rest = [] ∧ ∃ tail, text = '/' :: '*' :: tail ∧ ∀ before after,
      tail ≠ before ++ '*' :: '/' :: after

/-- A token begins with a character that is not stray. -/
theorem begins_of_munched {kind : Kind} {c : Char} {cs rest : List Char}
    (h : Munched kind (c :: cs) rest) : Begins c := by
  cases kind with
  | sign s => exact Or.inr (Or.inl ⟨s, by rw [← h.1]; rfl⟩)
  | number => exact Or.inr (Or.inr (Or.inl (h.2.1 c List.mem_cons_self)))
  | identifier =>
    obtain ⟨⟨d, ds, hd, starts, _⟩, _⟩ := h
    rw [(List.cons.inj hd).1]
    exact Or.inr (Or.inr (Or.inr starts))
  | keyword k =>
    obtain ⟨⟨d, ds, hd, starts, _⟩, _⟩ := h
    rw [(List.cons.inj hd).1]
    exact Or.inr (Or.inr (Or.inr starts))
  | lineComment =>
    obtain ⟨⟨tail, ht⟩, _⟩ := h
    rw [← (List.cons.inj ht).1]
    exact Or.inr (Or.inl ⟨.divide, rfl⟩)
  | blockComment =>
    obtain ⟨text, ht, _⟩ := h
    rw [(List.cons.inj ht).1]
    exact Or.inr (Or.inl ⟨.divide, rfl⟩)
  | endMarker => cases h

/-! ## Runs of characters -/

theorem takeWhile_all {p : Char → Bool} (cs : List Char) : ∀ d ∈ cs.takeWhile p, p d = true :=
  List.all_eq_true.mp List.all_takeWhile

/-- A run stops at a character that is not in it. -/
theorem dropWhile_head {p : Char → Bool} (cs : List Char) :
    ∀ d ∈ (cs.dropWhile p).head?, p d = false := by
  intro d hd
  have stop := List.head?_dropWhile_not p cs
  rw [hd] at stop
  simpa using stop

/-! ## Comments -/

/-- A character before a text does not make it end sooner, unless it makes a closer. -/
theorem EndsAtCloser.cons {c : Char} {text : List Char} (h : EndsAtCloser text)
    (hc : ∀ tail, c = '*' → text ≠ '/' :: tail) : EndsAtCloser (c :: text) := by
  refine ⟨h.1.trans (List.suffix_cons c text), ?_⟩
  intro before after he
  cases before with
  | nil => exact absurd (List.cons.inj he).2 (hc after (List.cons.inj he).1)
  | cons b before => exact h.2 before after (List.cons.inj he).2

namespace Cut

/-- Inside a block comment, what is read ends at the first closer, or there is none. -/
theorem insideComment_munched (read cs : List Char) :
    (∃ text rest, insideComment read cs = ⟨.token .blockComment (read.reverse ++ text), rest⟩ ∧
        cs = text ++ rest ∧ EndsAtCloser text) ∨
      (insideComment read cs = ⟨.openComment (read.reverse ++ cs), []⟩ ∧
        ∀ before after, cs ≠ before ++ '*' :: '/' :: after) := by
  fun_induction insideComment read cs with
  | case1 read => exact Or.inr ⟨by rw [List.append_nil], by simp⟩
  | case2 read cs =>
    refine Or.inl ⟨['*', '/'], cs, rfl, rfl, List.suffix_rfl, ?_⟩
    intro before after h
    have length := congrArg List.length h
    rw [List.length_append, List.length_cons, List.length_cons, List.length_cons, List.length_cons,
      List.length_nil] at length
    exact List.eq_nil_of_length_eq_zero (by omega)
  | case3 read c cs hc ih =>
    have behind : (c :: read).reverse ++ cs = read.reverse ++ c :: cs := by simp
    rcases ih with ⟨text, rest, he, hcs, hends⟩ | ⟨he, hnone⟩
    · refine Or.inl ⟨c :: text, rest, ?_, by rw [hcs]; rfl, hends.cons fun tail hstar ht => ?_⟩
      · rw [he]
        simp
      · exact hc (tail ++ rest) hstar (by rw [hcs, ht]; rfl)
    · refine Or.inr ⟨by rw [he, behind], ?_⟩
      intro before after h
      cases before with
      | nil =>
        obtain ⟨rfl, ht⟩ := List.cons.inj h
        exact hc after rfl ht
      | cons b before => exact hnone before after (List.cons.inj h).2

theorem comment?_munched {cs : List Char} {k : Cut} (h : comment? cs = some k) :
    k.piece.Munched k.rest := by
  unfold comment? at h
  split at h
  · next cs =>
    obtain rfl := Option.some.inj h
    refine ⟨List.prefix_append ['/', '/'] _, ?_, ?_⟩
    · intro hn
      have run : ∀ d ∈ cs.takeWhile (· != '\n'), (d != '\n') = true := takeWhile_all cs
      simp only [List.mem_cons] at hn
      rcases hn with hn | hn | hn
      · cases hn
      · cases hn
      · have := run _ hn
        cases this
    · intro d hd
      simpa using dropWhile_head cs d hd
  · next cs =>
    obtain rfl := Option.some.inj h
    rcases insideComment_munched ['*', '/'] cs with ⟨text, rest, he, _, hends⟩ | ⟨he, hnone⟩
    · rw [he]
      exact ⟨text, rfl, hends⟩
    · rw [he]
      exact ⟨rfl, cs, rfl, hnone⟩
  · cases h

/-! ## Signs -/

/-- Before `=` the four signs that can be continued are. -/
theorem sign?_double {s : Sign} (hs : s ∈ [.assign, .bang, .less, .greater]) (cs : List Char) :
    ∃ k, sign? (s.spelling ++ '=' :: cs) = some k ∧ k.piece.text = s.spelling ++ ['='] := by
  simp only [List.mem_cons, List.not_mem_nil, or_false] at hs
  rcases hs with rfl | rfl | rfl | rfl
  · exact ⟨_, rfl, rfl⟩
  · exact ⟨_, rfl, rfl⟩
  · exact ⟨_, rfl, rfl⟩
  · exact ⟨_, rfl, rfl⟩

theorem sign?_munched {cs : List Char} {k : Cut} (hc : comment? cs = none) (h : sign? cs = some k) :
    k.piece.Munched k.rest := by
  have whole := text_sign? h
  obtain ⟨s, _, rfl⟩ := Option.map_eq_some_iff.mp h
  refine ⟨rfl, ?_, ?_⟩
  · intro hs hn
    obtain ⟨tail, ht⟩ := List.head?_eq_some_iff.mp hn
    obtain ⟨k, hk, text⟩ := sign?_double hs tail
    rw [← ht, show s.spelling ++ cs.drop s.spelling.length = cs from whole, h] at hk
    obtain rfl := Option.some.inj hk
    have := congrArg List.length text
    simp [Piece.text] at this
  · rintro rfl
    have slash : '/' :: cs.drop 1 = cs := whole
    constructor
    · intro hn
      obtain ⟨tail, ht⟩ := List.head?_eq_some_iff.mp hn
      rw [← slash, show cs.drop 1 = '/' :: tail from ht] at hc
      cases hc
    · intro hn
      obtain ⟨tail, ht⟩ := List.head?_eq_some_iff.mp hn
      rw [← slash, show cs.drop 1 = '*' :: tail from ht] at hc
      cases hc

/-- A character with which a sign begins is a sign by itself. -/
theorem exists_spelling_singleton {s : Sign} {c : Char} (h : s.spelling.head? = some c) :
    ∃ s' : Sign, s'.spelling = [c] := by
  obtain ⟨tail, ht⟩ := List.head?_eq_some_iff.mp h
  cases tail with
  | nil => exact ⟨s, ht⟩
  | cons d tail =>
    have double : s ∈ [.equal, .notEqual, .lessEqual, .greaterEqual] := by
      cases s <;> first | decide | cases ht
    simp only [List.mem_cons, List.not_mem_nil, or_false] at double
    rcases double with rfl | rfl | rfl | rfl
    · cases h
      exact ⟨.assign, rfl⟩
    · cases h
      exact ⟨.bang, rfl⟩
    · cases h
      exact ⟨.less, rfl⟩
    · cases h
      exact ⟨.greater, rfl⟩

/-- Where no sign is found, none begins. -/
theorem no_sign {c : Char} {cs : List Char} (h : sign? (c :: cs) = none) (s : Sign) :
    s.spelling.head? ≠ some c := by
  intro hs
  obtain ⟨s', hs'⟩ := exists_spelling_singleton hs
  have missed := List.find?_eq_none.mp (Option.map_eq_none_iff.mp h) s' s'.mem_all
  rw [hs'] at missed
  simp [List.isPrefixOf] at missed

/-! ## Blanks, numbers, words and the rest -/

theorem word_munched {c : Char} (hc : startsWord c = true) (cs : List Char) :
    (word c cs).piece.Munched (word c cs).rest := by
  have whole : IsWord (c :: cs.takeWhile continuesWord) (cs.dropWhile continuesWord) :=
    ⟨c, _, rfl, hc, takeWhile_all cs, dropWhile_head cs⟩
  rw [word, Kind.ofWord]
  cases hk : Keyword.ofSpelling? (String.ofList (c :: cs.takeWhile continuesWord)) with
  | some k =>
    refine ⟨whole, ?_⟩
    rw [Keyword.spelling_of_ofSpelling? hk, String.toList_ofList]
  | none =>
    refine ⟨whole, fun k hw => ?_⟩
    rw [← hw, String.ofList_toList, Keyword.ofSpelling?_spelling] at hk
    cases hk

theorem plain_munched {c : Char} (hs : ∀ s : Sign, s.spelling.head? ≠ some c) (cs : List Char) :
    (plain c cs).piece.Munched (plain c cs).rest := by
  rw [plain]
  by_cases blank : c.isWhitespace = true
  · rw [if_pos blank]
    exact blank
  rw [if_neg blank]
  by_cases digit : c.isDigit = true
  · rw [if_pos digit]
    refine ⟨List.cons_ne_nil c _, ?_, dropWhile_head cs⟩
    rintro d (_ | ⟨_, hd⟩)
    · exact digit
    · exact takeWhile_all cs d hd
  rw [if_neg digit]
  by_cases starts : startsWord c = true
  · rw [if_pos starts]
    exact word_munched starts cs
  rw [if_neg starts]
  rintro (h | ⟨s, h⟩ | h | h)
  · exact blank h
  · exact hs s h
  · exact digit h
  · exact starts h

end Cut

/-! ## Pieces -/

/-- The first piece of a source is as the lexical grammar has it. -/
theorem cut_munched (c : Char) (cs : List Char) : (cut c cs).piece.Munched (cut c cs).rest := by
  rw [cut]
  cases hc : Cut.comment? (c :: cs) with
  | some k => exact Cut.comment?_munched hc
  | none =>
    dsimp only
    cases hs : Cut.sign? (c :: cs) with
    | some k => exact Cut.sign?_munched hc hs
    | none => exact Cut.plain_munched (Cut.no_sign hs) cs

/-- A piece is stray exactly if nothing begins with its first character. -/
theorem Piece.Munched.stray_iff {p : Piece} {rest : List Char} (h : p.Munched rest) {c : Char}
    {cs : List Char} (ht : p.text = c :: cs) : p = .stray c ↔ ¬ Begins c := by
  constructor
  · rintro rfl
    exact h
  · intro hn
    cases p with
    | token kind lexeme =>
      obtain rfl : lexeme = c :: cs := ht
      exact absurd (begins_of_munched h) hn
    | blank d =>
      obtain ⟨rfl, _⟩ := List.cons.inj ht
      exact absurd (Or.inl h) hn
    | stray d => rw [(List.cons.inj ht).1]
    | openComment text =>
      obtain ⟨_, tail, rfl, _⟩ := h
      rw [← (List.cons.inj ht).1] at hn
      exact absurd (Or.inr (Or.inl ⟨.divide, rfl⟩)) hn

/-! ## Scans -/

/-- The characters of a row of spots. -/
def texts (row : List Spot) : List Char := row.flatMap fun s => s.piece.text

@[simp] theorem texts_nil : texts [] = [] := rfl

@[simp] theorem texts_cons (s : Spot) (row : List Spot) :
    texts (s :: row) = s.piece.text ++ texts row := rfl

@[simp] theorem texts_append (a b : List Spot) : texts (a ++ b) = texts a ++ texts b :=
  List.flatMap_append

/-- The spots of a source are the source. -/
theorem texts_spots (line : Nat) : ∀ source, texts (spots line source) = source
  | [] => by rw [spots_nil, texts_nil]
  | c :: cs => by
    have shorter := rest_length_lt c cs
    rw [spots_cons, texts_cons, texts_spots, text_cut]
termination_by source => source.length
decreasing_by exact shorter

/-- Every spot of a source is a cut of what lies ahead of it. -/
theorem exists_cut_of_spots {after : List Spot} {spot : Spot} : ∀ {before : List Spot} {line : Nat}
    {source : List Char}, spots line source = before ++ spot :: after →
      ∃ c cs, cut c cs = ⟨spot.piece, texts after⟩
  | before, line, [], h => by
    rw [spots_nil] at h
    exact absurd h.symm (List.append_ne_nil_of_right_ne_nil _ (List.cons_ne_nil _ _))
  | [], line, c :: cs, h => by
    rw [spots_cons] at h
    obtain ⟨rfl, rfl⟩ := List.cons.inj h
    refine ⟨c, cs, ?_⟩
    rw [texts_spots]
  | b :: before, line, c :: cs, h => by
    rw [spots_cons] at h
    exact exists_cut_of_spots (List.cons.inj h).2

/-- The token at a spot has the characters of the piece. -/
theorem Spot.piece_of_token? {s : Spot} {t : Token} (h : s.token? = some t) :
    s.piece = .token t.kind t.lexeme.toList := by
  rcases s with ⟨line, piece⟩
  cases piece with
  | token kind lexeme =>
    obtain rfl := Option.some.inj h
    rw [String.toList_ofList]
  | blank => cases h
  | stray => cases h
  | openComment => cases h

theorem Spot.diagnostic?_eq_stray {s : Spot} {c : Char} :
    s.diagnostic? = some ⟨s.line, .strayCharacter c⟩ ↔ s.piece = .stray c := by
  rcases s with ⟨line, piece⟩
  cases piece <;> simp [diagnostic?]

/-- Every token of a scan is as the lexical grammar has it before what lies behind it.
A stray character is reported at a spot exactly if nothing begins with the character
there. -/
theorem spot_munched (source : String) {before after : List Spot} {spot : Spot}
    (h : (Scan.ofSource source).spots = before ++ spot :: after) :
    source.toList = texts before ++ (spot.piece.text ++ texts after) ∧
      (∀ t, spot.token? = some t →
        spot.piece.text = t.lexeme.toList ∧ Munched t.kind t.lexeme.toList (texts after)) ∧
      ∀ c cs, spot.piece.text ++ texts after = c :: cs →
        (spot.diagnostic? = some ⟨spot.line, .strayCharacter c⟩ ↔ ¬ Begins c) := by
  obtain ⟨c, cs, hc⟩ := exists_cut_of_spots h
  have munched : spot.piece.Munched (texts after) := by
    have first := cut_munched c cs
    rwa [hc] at first
  refine ⟨?_, ?_, ?_⟩
  · have whole : texts (Scan.ofSource source).spots = source.toList := texts_spots 1 _
    rw [← whole, h, texts_append, texts_cons]
  · intro t ht
    rw [Spot.piece_of_token? ht] at munched ⊢
    exact ⟨rfl, munched⟩
  · intro d ds hd
    have more : spot.piece.text ≠ [] := by
      have first := text_cut_ne_nil c cs
      rwa [hc] at first
    obtain ⟨e, es, he⟩ := List.exists_cons_of_ne_nil more
    rw [he, List.cons_append] at hd
    obtain ⟨rfl, _⟩ := List.cons.inj hd
    exact Spot.diagnostic?_eq_stray.trans (munched.stray_iff he)

/-- Of `a<=#` the last two spots are the sign `<=`, which is the longest, and a stray
character. -/
theorem munched_less_equal :
    Munched (.sign .lessEqual) ['<', '='] ['#'] ∧ ¬ Begins '#' := by
  have source : (Scan.ofSource "a<=#").spots =
      [⟨1, .token .identifier ['a']⟩] ++ ⟨1, .token (.sign .lessEqual) ['<', '=']⟩ ::
        [⟨1, .stray '#'⟩] := by decide +kernel
  have last : (Scan.ofSource "a<=#").spots =
      [⟨1, .token .identifier ['a']⟩, ⟨1, .token (.sign .lessEqual) ['<', '=']⟩] ++
        ⟨1, .stray '#'⟩ :: [] := source
  exact ⟨((spot_munched _ source).2.1 _ rfl).2, ((spot_munched _ last).2.2 _ _ rfl).mp rfl⟩

end MiniC
