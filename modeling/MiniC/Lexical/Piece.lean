import MiniC.Kind
import MiniC.Lexical.Chars

/-!
# Cutting one piece off a source

A source is a row of *pieces*: tokens, blanks, characters that belong to no
token, and at the very end perhaps a comment that nobody closes.  `cut` takes
the first piece off a source that is not empty.

The rules are tried in a fixed order.  A comment opener wins over the sign `/`,
of the signs the longest wins, and digits and words run as far as they can.
Nothing is looked at behind the piece but the one character that ends it.

`text_cut` says that the piece and the rest together are the source, and
`rest_length_lt` that the rest is shorter.
-/

namespace MiniC

/-- A part of a source that is read as one. -/
inductive Piece where
  /-- A token of some kind. -/
  | token (kind : Kind) (lexeme : List Char)
  /-- A space, a tab, a carriage return or a newline between tokens. -/
  | blank (c : Char)
  /-- A character with which no token begins. -/
  | stray (c : Char)
  /-- A comment that is not closed, up to the end of the source. -/
  | openComment (text : List Char)
deriving DecidableEq, Repr

/-- The characters of a piece. -/
def Piece.text : Piece → List Char
  | token _ lexeme => lexeme
  | blank c => [c]
  | stray c => [c]
  | openComment text => text

/-- A source after its first piece is cut off. -/
structure Cut where
  /-- The first piece. -/
  piece : Piece
  /-- The source behind it. -/
  rest : List Char
deriving DecidableEq, Repr

namespace Cut

/-! ## The rules -/

/-- Read on inside a block comment.  `read` is what has been read of it, the last
character first. -/
def insideComment (read : List Char) : List Char → Cut
  | [] => ⟨.openComment read.reverse, []⟩
  | '*' :: '/' :: cs => ⟨.token .blockComment (read.reverse ++ ['*', '/']), cs⟩
  | c :: cs => insideComment (c :: read) cs

/-- The comment with which a source begins, if it begins with one.  A line comment
stops before its newline.  The opener of a block comment is read whole before the
closer is looked for. -/
def comment? : List Char → Option Cut
  | '/' :: '/' :: cs =>
    some ⟨.token .lineComment ('/' :: '/' :: cs.takeWhile (· != '\n')), cs.dropWhile (· != '\n')⟩
  | '/' :: '*' :: cs => some (insideComment ['*', '/'] cs)
  | _ => none

/-- The longest sign with which a source begins, if it begins with one. -/
def sign? (cs : List Char) : Option Cut :=
  (Sign.all.find? (·.spelling.isPrefixOf cs)).map fun s =>
    ⟨.token (.sign s) s.spelling, cs.drop s.spelling.length⟩

/-- The number that begins with the digit `c`. -/
def number (c : Char) (cs : List Char) : Cut :=
  ⟨.token .number (c :: cs.takeWhile Char.isDigit), cs.dropWhile Char.isDigit⟩

/-- The word that begins with `c`. -/
def word (c : Char) (cs : List Char) : Cut :=
  let w := c :: cs.takeWhile continuesWord
  ⟨.token (.ofWord (String.ofList w)) w, cs.dropWhile continuesWord⟩

/-- The piece at `c` when neither a comment nor a sign begins there. -/
def plain (c : Char) (cs : List Char) : Cut :=
  if c.isWhitespace then ⟨.blank c, cs⟩
  else if c.isDigit then number c cs
  else if startsWord c then word c cs
  else ⟨.stray c, cs⟩

end Cut

/-- Cut the first piece off the source `c :: cs`. -/
def cut (c : Char) (cs : List Char) : Cut :=
  match Cut.comment? (c :: cs) with
  | some k => k
  | none =>
    match Cut.sign? (c :: cs) with
    | some k => k
    | none => Cut.plain c cs

/-! ## Nothing is lost -/

theorem Cut.text_insideComment (read cs : List Char) :
    (insideComment read cs).piece.text ++ (insideComment read cs).rest = read.reverse ++ cs := by
  fun_induction insideComment read cs with
  | case1 => simp [Piece.text]
  | case2 read cs => simp [Piece.text]
  | case3 read c cs _ ih => simpa using ih

theorem Cut.text_comment? {cs : List Char} {k : Cut} (h : comment? cs = some k) :
    k.piece.text ++ k.rest = cs := by
  unfold comment? at h
  split at h
  · obtain rfl := Option.some.inj h
    simp [Piece.text, List.takeWhile_append_dropWhile]
  · obtain rfl := Option.some.inj h
    simpa using text_insideComment ['*', '/'] _
  · cases h

theorem Cut.text_sign? {cs : List Char} {k : Cut} (h : sign? cs = some k) :
    k.piece.text ++ k.rest = cs := by
  obtain ⟨s, hs, rfl⟩ := Option.map_eq_some_iff.mp h
  have begins : s.spelling.isPrefixOf cs = true :=
    List.find?_some (p := fun s : Sign => s.spelling.isPrefixOf cs) hs
  obtain ⟨tail, rfl⟩ := List.isPrefixOf_iff_prefix.mp begins
  simp [Piece.text]

theorem Cut.text_plain (c : Char) (cs : List Char) :
    (plain c cs).piece.text ++ (plain c cs).rest = c :: cs := by
  unfold plain
  split
  · rfl
  · split
    · simp [number, Piece.text, List.takeWhile_append_dropWhile]
    · split
      · simp [word, Piece.text, List.takeWhile_append_dropWhile]
      · rfl

/-- The first piece and the rest are the source. -/
theorem text_cut (c : Char) (cs : List Char) :
    (cut c cs).piece.text ++ (cut c cs).rest = c :: cs := by
  unfold cut
  split
  · next h => exact Cut.text_comment? h
  · split
    · next h => exact Cut.text_sign? h
    · exact Cut.text_plain c cs

/-! ## A piece is not empty -/

theorem Cut.text_insideComment_ne_nil {read : List Char} (h : read ≠ []) (cs : List Char) :
    (insideComment read cs).piece.text ≠ [] := by
  fun_induction insideComment read cs with
  | case1 => simpa [Piece.text] using h
  | case2 read cs => simp [Piece.text]
  | case3 read c cs _ ih => exact ih (by simp)

/-- The first piece is not empty. -/
theorem text_cut_ne_nil (c : Char) (cs : List Char) : (cut c cs).piece.text ≠ [] := by
  unfold cut
  split
  · next k h =>
    unfold Cut.comment? at h
    split at h
    · obtain rfl := Option.some.inj h
      simp [Piece.text]
    · obtain rfl := Option.some.inj h
      exact Cut.text_insideComment_ne_nil (by simp) _
    · cases h
  · split
    · next k h =>
      obtain ⟨s, _, rfl⟩ := Option.map_eq_some_iff.mp h
      exact s.spelling_ne_nil
    · unfold Cut.plain
      split
      · simp [Piece.text]
      · split
        · simp [Cut.number, Piece.text]
        · split
          · simp [Cut.word, Piece.text]
          · simp [Piece.text]

/-- The rest is shorter than the source. -/
theorem rest_length_lt (c : Char) (cs : List Char) :
    (cut c cs).rest.length < (c :: cs).length := by
  have whole := congrArg List.length (text_cut c cs)
  have more := List.length_pos_iff.mpr (text_cut_ne_nil c cs)
  rw [List.length_append] at whole
  omega

/-! ## Tests -/

example : cut '=' ['=', '='] = ⟨.token (.sign .equal) ['=', '='], ['=']⟩ := by decide
example : cut '/' ['*', '/', '*'] = ⟨.openComment ['/', '*', '/', '*'], []⟩ := by decide
example : cut '/' ['*', '*', '/'] = ⟨.token .blockComment ['/', '*', '*', '/'], []⟩ := by decide
example : cut '/' ['/', 'a', '\n'] = ⟨.token .lineComment ['/', '/', 'a'], ['\n']⟩ := by decide
example : cut '4' ['2', 'x'] = ⟨.token .number ['4', '2'], ['x']⟩ := by decide
example : cut 'd' ['o', '9', '.'] = ⟨.token .identifier ['d', 'o', '9'], ['.']⟩ := by decide
example : cut '#' ['i', 'f'] = ⟨.stray '#', ['i', 'f']⟩ := by decide

end MiniC
