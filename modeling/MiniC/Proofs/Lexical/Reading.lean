import MiniC.Proofs.Lexical.Munch

/-!
# The lexical grammar has one reading

`cut_munched` says that a cut is as the lexical grammar has it.  Here is the converse:
a piece that is as the grammar has it before some rest is what is cut off there, which
is `cut_of_munched`.  A source can therefore be rewritten piece by piece, and its scan
is known as soon as every piece is as the grammar has it before what then follows.

Such a row of pieces is `Munches`.  `spots_of_munches` reads it back, and `exists_row`
says that every source is one.  The lines play no part in this.  `place` gives each
piece of a row its line.

The grammar looks at one character behind a piece, and only to find the piece going on
there.  No piece goes on with a blank but a comment.  So a token may be put before a blank,
which is `Munched.before`.
-/

namespace MiniC

/-! ## Classes of characters -/

/-- Below the capital letters there is no letter. -/
theorem isAlphabetic_of_lt {c : Char} (h : c.toNat < 0x41) : Unicode.isAlphabetic c = false := by
  show (if 0x5A < c.toNat then _ else decide (0x41 ≤ c.toNat)) = false
  rw [if_neg (by omega), decide_eq_false (by omega)]

/-- No word begins with a digit. -/
theorem startsWord_of_isDigit {c : Char} (h : c.isDigit = true) : startsWord c = false := by
  have underscore : c ≠ '_' := by
    rintro rfl
    cases h
  have low : c.toNat < 0x41 :=
    Nat.lt_of_le_of_lt (Char.isDigit_iff_toNat.mp h).2 (by decide)
  rw [startsWord, isAlphabetic_of_lt low, Bool.or_false]
  simpa using underscore

/-- A blank is in no word and is no digit. -/
theorem plain_of_isWhitespace {c : Char} (h : c.isWhitespace = true) :
    c ≠ '=' ∧ c ≠ '/' ∧ c ≠ '*' ∧ c.isDigit = false ∧ continuesWord c = false := by
  have blanks : c = ' ' ∨ c = '\t' ∨ c = '\r' ∨ c = '\n' := by
    simpa [Char.isWhitespace, or_assoc] using h
  rcases blanks with rfl | rfl | rfl | rfl
  · decide
  · decide
  · decide
  · decide

/-- The character with which a sign begins is no blank, no digit and in no word. -/
theorem Sign.head?_spelling {s : Sign} {c : Char} (h : s.spelling.head? = some c) :
    c.isWhitespace = false ∧ c.isDigit = false ∧ startsWord c = false := by
  cases s <;> (cases h; decide)

/-! ## Cutting what is as the grammar has it -/

section Runs

variable {p : Char → Bool} {run rest : List Char}

/-- A run stops before a character that is not in it. -/
theorem takeWhile_run (hr : ∀ d ∈ run, p d = true) (hs : ∀ d ∈ rest.head?, p d = false) :
    (run ++ rest).takeWhile p = run := by
  rw [List.takeWhile_append_of_pos hr]
  cases rest with
  | nil => simp
  | cons d rest => simp [hs d rfl]

theorem dropWhile_run (hr : ∀ d ∈ run, p d = true) (hs : ∀ d ∈ rest.head?, p d = false) :
    (run ++ rest).dropWhile p = rest := by
  rw [List.dropWhile_append_of_pos hr]
  cases rest with
  | nil => simp
  | cons d rest => simp [hs d rfl]

end Runs

/-! ### Comments -/

/-- A text that ends at its first closer is found again before any rest. -/
theorem EndsAtCloser.unique {a b rest rest' : List Char} (ha : EndsAtCloser a)
    (hb : EndsAtCloser b) (h : a ++ rest = b ++ rest') : a = b := by
  obtain ⟨⟨beforeA, hA⟩, endA⟩ := ha
  obtain ⟨⟨beforeB, hB⟩, endB⟩ := hb
  rcases List.append_eq_append_iff.mp h with ⟨more, hm, _⟩ | ⟨more, hm, _⟩
  · have nothing := endB beforeA more (by simp [hm, ← hA])
    rw [hm, nothing, List.append_nil]
  · have nothing := endA beforeB more (by simp [hm, ← hB])
    rw [hm, nothing, List.append_nil]

namespace Cut

theorem insideComment_of_endsAtCloser {text : List Char} (h : EndsAtCloser text)
    (read rest : List Char) :
    insideComment read (text ++ rest) = ⟨.token .blockComment (read.reverse ++ text), rest⟩ := by
  rcases insideComment_munched read (text ++ rest) with
    ⟨text', rest', he, hcs, hends⟩ | ⟨_, hnone⟩
  · obtain rfl := h.unique hends hcs
    rw [he, List.append_cancel_left hcs]
  · obtain ⟨before, hb⟩ := h.1
    exact absurd (by simp [← hb]) (hnone before rest)

theorem insideComment_of_open {text : List Char}
    (h : ∀ before after, text ≠ before ++ '*' :: '/' :: after) (read : List Char) :
    insideComment read text = ⟨.openComment (read.reverse ++ text), []⟩ := by
  rcases insideComment_munched read text with ⟨text', rest', _, hcs, hends⟩ | ⟨he, _⟩
  · obtain ⟨before, hb⟩ := hends.1
    exact absurd (by simp [hcs, ← hb]) (h before rest')
  · exact he

/-- A comment begins with a slash and then another one or a star. -/
theorem comment?_eq_none {c : Char} {cs : List Char}
    (h : c = '/' → cs.head? ≠ some '/' ∧ cs.head? ≠ some '*') : comment? (c :: cs) = none := by
  unfold comment?
  split
  · next he =>
    obtain ⟨rfl, rfl⟩ := List.cons.inj he
    exact absurd rfl (h rfl).1
  · next he =>
    obtain ⟨rfl, rfl⟩ := List.cons.inj he
    exact absurd rfl (h rfl).2
  · rfl

/-! ### Signs -/

/-- Before anything that does not continue it, a sign is the longest one. -/
theorem sign?_spelling {s : Sign} {rest : List Char}
    (h : s ∈ [.assign, .bang, .less, .greater] → rest.head? ≠ some '=') :
    sign? (s.spelling ++ rest) = some ⟨.token (.sign s) s.spelling, rest⟩ := by
  by_cases hs : s ∈ [.assign, .bang, .less, .greater]
  · cases rest with
    | nil =>
      revert s
      decide
    | cons d rest =>
      have hd : ('=' == d) = false := beq_eq_false_iff_ne.mpr fun he => h hs (by rw [he]; rfl)
      simp only [List.mem_cons, List.not_mem_nil, or_false] at hs
      rcases hs with rfl | rfl | rfl | rfl
      · simp [sign?, Sign.all, Sign.spelling, List.isPrefixOf, hd]
      · simp [sign?, Sign.all, Sign.spelling, List.isPrefixOf, hd]
      · simp [sign?, Sign.all, Sign.spelling, List.isPrefixOf, hd]
      · simp [sign?, Sign.all, Sign.spelling, List.isPrefixOf, hd]
  · cases s <;> first | rfl | exact absurd (by decide) hs

/-- Where no sign begins, none is found. -/
theorem sign?_eq_none {c : Char} (h : ∀ s : Sign, s.spelling.head? ≠ some c) (cs : List Char) :
    sign? (c :: cs) = none := by
  rw [sign?, Option.map_eq_none_iff, List.find?_eq_none]
  intro s _ begins
  obtain ⟨tail, ht⟩ := List.isPrefixOf_iff_prefix.mp begins
  obtain ⟨d, ds, hd⟩ := List.exists_cons_of_ne_nil s.spelling_ne_nil
  rw [hd, List.cons_append] at ht
  exact h s (by rw [hd, (List.cons.inj ht).1]; rfl)

end Cut

/-- At a character with which no sign begins, the piece is a plain one. -/
theorem cut_eq_plain {c : Char} (h : ∀ s : Sign, s.spelling.head? ≠ some c) (cs : List Char) :
    cut c cs = Cut.plain c cs := by
  have slash : c ≠ '/' := by
    rintro rfl
    exact h .divide rfl
  rw [cut, Cut.comment?_eq_none fun he => absurd he slash, Cut.sign?_eq_none h]

/-! ### Pieces -/

theorem cut_of_sign {s : Sign} {rest : List Char} (h : Munched (.sign s) s.spelling rest)
    {c : Char} {cs : List Char} (ht : s.spelling = c :: cs) :
    cut c (cs ++ rest) = ⟨.token (.sign s) s.spelling, rest⟩ := by
  obtain ⟨_, longest, divide⟩ := h
  have noComment : Cut.comment? (c :: (cs ++ rest)) = none := by
    refine Cut.comment?_eq_none ?_
    rintro rfl
    obtain rfl : s = .divide := by cases s <;> first | rfl | cases ht
    obtain ⟨_, rfl⟩ := List.cons.inj ht
    exact divide rfl
  rw [cut, noComment, ← List.cons_append, ← ht, Cut.sign?_spelling longest]

theorem cut_of_word {kind : Kind} {c : Char} {cs rest : List Char} (h : IsWord (c :: cs) rest)
    (hk : Kind.ofWord (String.ofList (c :: cs)) = kind) :
    cut c (cs ++ rest) = ⟨.token kind (c :: cs), rest⟩ := by
  obtain ⟨_, _, he, starts, more, stop⟩ := h
  obtain ⟨rfl, rfl⟩ := List.cons.inj he
  have noSign : ∀ s : Sign, s.spelling.head? ≠ some c := by
    intro s hs
    rw [(Sign.head?_spelling hs).2.2] at starts
    cases starts
  have noBlank : ¬ c.isWhitespace = true := by
    intro hb
    have := (plain_of_isWhitespace hb).2.2.2.2
    rw [continuesWord_of_startsWord starts] at this
    cases this
  have noDigit : ¬ c.isDigit = true := by
    intro hd
    rw [startsWord_of_isDigit hd] at starts
    cases starts
  rw [cut_eq_plain noSign, Cut.plain, if_neg noBlank, if_neg noDigit, if_pos starts, Cut.word,
    takeWhile_run more stop, dropWhile_run more stop, hk]

theorem cut_of_number {c : Char} {cs rest : List Char} (h : Munched .number (c :: cs) rest) :
    cut c (cs ++ rest) = ⟨.token .number (c :: cs), rest⟩ := by
  obtain ⟨_, digits, stop⟩ := h
  have digit : c.isDigit = true := digits c List.mem_cons_self
  have more : ∀ d ∈ cs, d.isDigit = true := fun d hd => digits d (List.mem_cons_of_mem c hd)
  have noSign : ∀ s : Sign, s.spelling.head? ≠ some c := by
    intro s hs
    rw [(Sign.head?_spelling hs).2.1] at digit
    cases digit
  have noBlank : ¬ c.isWhitespace = true := by
    intro hb
    rw [(plain_of_isWhitespace hb).2.2.2.1] at digit
    cases digit
  rw [cut_eq_plain noSign, Cut.plain, if_neg noBlank, if_pos digit, Cut.number,
    takeWhile_run more stop, dropWhile_run more stop]

theorem cut_of_lineComment {c : Char} {cs rest : List Char}
    (h : Munched .lineComment (c :: cs) rest) :
    cut c (cs ++ rest) = ⟨.token .lineComment (c :: cs), rest⟩ := by
  obtain ⟨⟨tail, ht⟩, hn, stop⟩ := h
  obtain ⟨rfl, rfl⟩ := List.cons.inj ht
  have line : ∀ d ∈ tail, (d != '\n') = true := by
    intro d hd
    have : d ≠ '\n' := by
      rintro rfl
      exact hn (by simp [hd])
    simpa using this
  have newline : ∀ d ∈ rest.head?, (d != '\n') = false := by
    intro d hd
    simp [stop d hd]
  show (⟨.token .lineComment ('/' :: '/' :: (tail ++ rest).takeWhile (· != '\n')),
    (tail ++ rest).dropWhile (· != '\n')⟩ : Cut) = _
  rw [takeWhile_run line newline, dropWhile_run line newline]
  rfl

theorem cut_of_isWhitespace {c : Char} (h : c.isWhitespace = true) (cs : List Char) :
    cut c cs = ⟨.blank c, cs⟩ := by
  have noSign : ∀ s : Sign, s.spelling.head? ≠ some c := by
    intro s hs
    rw [(Sign.head?_spelling hs).1] at h
    cases h
  rw [cut_eq_plain noSign, Cut.plain, if_pos h]

theorem cut_of_stray {c : Char} (h : ¬ Begins c) (cs : List Char) : cut c cs = ⟨.stray c, cs⟩ := by
  have noSign : ∀ s : Sign, s.spelling.head? ≠ some c := fun s hs => h (.inr (.inl ⟨s, hs⟩))
  rw [cut_eq_plain noSign, Cut.plain, if_neg fun hb => h (.inl hb),
    if_neg fun hd => h (.inr (.inr (.inl hd))), if_neg fun hw => h (.inr (.inr (.inr hw)))]

/-- What is as the lexical grammar has it before some rest is the first piece there. -/
theorem cut_of_munched {p : Piece} {rest : List Char} (h : p.Munched rest) {c : Char}
    {cs : List Char} (ht : p.text = c :: cs) : cut c (cs ++ rest) = ⟨p, rest⟩ := by
  cases p with
  | token kind lexeme =>
    obtain rfl : lexeme = c :: cs := ht
    cases kind with
    | sign s =>
      have hs : s.spelling = c :: cs := h.1.symm
      rw [← hs]
      exact cut_of_sign (hs ▸ h) hs
    | number => exact cut_of_number h
    | identifier =>
      refine cut_of_word h.1 ?_
      rw [Kind.ofWord]
      cases hk : Keyword.ofSpelling? (String.ofList (c :: cs)) with
      | none => rfl
      | some k =>
        refine absurd ?_ (h.2 k)
        rw [Keyword.spelling_of_ofSpelling? hk, String.toList_ofList]
    | keyword k =>
      refine cut_of_word h.1 ?_
      rw [← h.2, String.ofList_toList, Kind.ofWord, Keyword.ofSpelling?_spelling]
    | lineComment => exact cut_of_lineComment h
    | blockComment =>
      obtain ⟨text, he, ends⟩ := h
      obtain ⟨rfl, rfl⟩ := List.cons.inj he
      exact Cut.insideComment_of_endsAtCloser ends ['*', '/'] rest
    | endMarker => cases h
  | blank d =>
    obtain ⟨rfl, rfl⟩ := List.cons.inj ht
    exact cut_of_isWhitespace h rest
  | stray d =>
    obtain ⟨rfl, rfl⟩ := List.cons.inj ht
    exact cut_of_stray h rest
  | openComment text =>
    obtain ⟨rfl, tail, rfl, hopen⟩ := h
    obtain ⟨rfl, rfl⟩ := List.cons.inj ht
    rw [List.append_nil]
    exact Cut.insideComment_of_open hopen ['*', '/']

/-- A piece that is as the grammar has it is not empty. -/
theorem Piece.Munched.text_ne_nil {p : Piece} {rest : List Char} (h : p.Munched rest) :
    p.text ≠ [] := by
  cases p with
  | token kind lexeme =>
    cases kind with
    | sign s => exact h.1 ▸ s.spelling_ne_nil
    | number => exact h.1
    | identifier =>
      obtain ⟨⟨c, cs, he, _⟩, _⟩ := h
      exact he ▸ List.cons_ne_nil c cs
    | keyword k =>
      obtain ⟨⟨c, cs, he, _⟩, _⟩ := h
      exact he ▸ List.cons_ne_nil c cs
    | lineComment =>
      obtain ⟨⟨tail, rfl⟩, _⟩ := h
      exact List.cons_ne_nil _ _
    | blockComment =>
      obtain ⟨text, rfl, _⟩ := h
      exact List.cons_ne_nil _ _
    | endMarker => cases h
  | blank => exact List.cons_ne_nil _ _
  | stray => exact List.cons_ne_nil _ _
  | openComment text =>
    obtain ⟨_, tail, rfl, _⟩ := h
    exact List.cons_ne_nil _ _

/-! ### What may follow a piece -/

/-- What is a token before some rest is one before any other rest that begins alike or
with a blank.  Behind a line comment the blank has to be a newline. -/
theorem Munched.before {kind : Kind} {lexeme rest rest' : List Char}
    (h : Munched kind lexeme rest) (hr : ∀ d ∈ rest'.head?, d ∈ rest.head? ∨
      (d.isWhitespace = true ∧ (kind = .lineComment → d = '\n'))) : Munched kind lexeme rest' := by
  have class_false {p : Char → Bool} (hp : ∀ d : Char, d.isWhitespace = true → p d = false)
      (hs : ∀ d ∈ rest.head?, p d = false) : ∀ d ∈ rest'.head?, p d = false := by
    intro d hd
    rcases hr d hd with same | ⟨blank, _⟩
    · exact hs d same
    · exact hp d blank
  have head_ne {c : Char} (hc : ¬ c.isWhitespace = true) (hs : rest.head? ≠ some c) :
      rest'.head? ≠ some c := by
    intro he
    rcases hr c he with same | ⟨blank, _⟩
    · exact hs same
    · exact hc blank
  have word : IsWord lexeme rest → IsWord lexeme rest' := by
    rintro ⟨c, cs, he, starts, more, stop⟩
    refine ⟨c, cs, he, starts, more, class_false (fun d hd => ?_) stop⟩
    exact (plain_of_isWhitespace hd).2.2.2.2
  cases kind with
  | sign s =>
    obtain ⟨he, longest, divide⟩ := h
    refine ⟨he, fun hs => head_ne (by decide) (longest hs), fun hs => ?_⟩
    exact ⟨head_ne (by decide) (divide hs).1, head_ne (by decide) (divide hs).2⟩
  | number =>
    exact ⟨h.1, h.2.1, class_false (fun d hd => (plain_of_isWhitespace hd).2.2.2.1) h.2.2⟩
  | identifier => exact ⟨word h.1, h.2⟩
  | keyword k => exact ⟨word h.1, h.2⟩
  | lineComment =>
    refine ⟨h.1, h.2.1, fun d hd => ?_⟩
    rcases hr d hd with same | ⟨_, newline⟩
    · exact h.2.2 d same
    · exact newline rfl
  | blockComment => exact h
  | endMarker => exact h

/-! ## Rows of pieces -/

/-- Each piece of a row is as the lexical grammar has it before those behind it and the
rest. -/
def Munches : List Piece → List Char → Prop
  | [], _ => True
  | p :: ps, rest => p.Munched (ps.flatMap Piece.text ++ rest) ∧ Munches ps rest

/-- The pieces of a row with their lines, if the row begins on the line `line`. -/
def place (line : Nat) : List Piece → List Spot
  | [] => []
  | p :: ps => ⟨line, p⟩ :: place (line + newlines p.text) ps

theorem munches_append {ps qs : List Piece} {rest : List Char} :
    Munches (ps ++ qs) rest ↔ Munches ps (qs.flatMap Piece.text ++ rest) ∧ Munches qs rest := by
  induction ps with
  | nil => simp [Munches]
  | cons p ps ih => simp [Munches, ih, and_assoc]

@[simp] theorem place_append (line : Nat) (ps qs : List Piece) :
    place line (ps ++ qs) =
      place line ps ++ place (line + newlines (ps.flatMap Piece.text)) qs := by
  induction ps generalizing line with
  | nil => simp [place]
  | cons p ps ih => simp [place, ih, Nat.add_assoc]

/-- The lines aside, the spots are the row. -/
@[simp] theorem map_piece_place (line : Nat) (ps : List Piece) :
    (place line ps).map Spot.piece = ps := by
  induction ps generalizing line with
  | nil => rfl
  | cons p ps ih => simp [place, ih]

theorem spots_of_munched {p : Piece} {rest : List Char} (h : p.Munched rest) (line : Nat) :
    spots line (p.text ++ rest) = ⟨line, p⟩ :: spots (line + newlines p.text) rest := by
  obtain ⟨c, cs, ht⟩ := List.exists_cons_of_ne_nil h.text_ne_nil
  rw [ht, List.cons_append, spots_cons, cut_of_munched h ht, ht]

/-- A row of pieces that are as the lexical grammar has them is read back from its
characters. -/
theorem spots_of_munches {ps : List Piece} {rest : List Char} (h : Munches ps rest) (line : Nat) :
    spots line (ps.flatMap Piece.text ++ rest) =
      place line ps ++ spots (line + newlines (ps.flatMap Piece.text)) rest := by
  induction ps generalizing line with
  | nil => simp [place]
  | cons p ps ih =>
    obtain ⟨munched, more⟩ := h
    rw [List.flatMap_cons, List.append_assoc, spots_of_munched munched, ih more]
    simp [place, Nat.add_assoc]

/-- Every source is such a row, whatever line it begins on. -/
theorem exists_row : ∀ source : List Char, ∃ ps, Munches ps [] ∧
    ps.flatMap Piece.text = source ∧ ∀ line, spots line source = place line ps
  | [] => ⟨[], trivial, rfl, fun line => spots_nil line⟩
  | c :: cs => by
    have shorter := rest_length_lt c cs
    obtain ⟨ps, more, ht, hs⟩ := exists_row (cut c cs).rest
    refine ⟨(cut c cs).piece :: ps, ⟨?_, more⟩, ?_, fun line => ?_⟩
    · rw [List.append_nil, ht]
      exact cut_munched c cs
    · rw [List.flatMap_cons, ht, text_cut]
    · rw [spots_cons, hs, place]
termination_by source => source.length
decreasing_by exact shorter

end MiniC
