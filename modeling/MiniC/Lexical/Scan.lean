import MiniC.Collector
import MiniC.Lexical.Piece
import MiniC.Token

/-!
# Scanning a source

A *scan* is a source cut into pieces, each with the line on which it begins.  The
tokens and the lexical diagnostics are both read off the pieces: a blank gives
neither, a stray character and an open comment give a diagnostic, and all else
gives a token.  After the last token stands one end marker, on the last line of
the source.

`spots` cuts piece after piece and carries the line along.  It keeps the spots it
has found in reverse, and `spots_cons` is the equation by which it is meant.
-/

namespace MiniC

/-- A piece and the line on which it begins. -/
structure Spot where
  /-- The line, counted from one. -/
  line : Nat
  /-- The piece. -/
  piece : Piece
deriving DecidableEq, Repr

namespace Spot

/-- The token at a spot, if there is one. -/
def token? (s : Spot) : Option Token :=
  match s.piece with
  | .token kind lexeme => some ⟨kind, String.ofList lexeme, s.line⟩
  | _ => none

/-- The diagnostic for a spot, if there is something wrong with it. -/
def diagnostic? (s : Spot) : Option Diagnostic :=
  match s.piece with
  | .stray c => some ⟨s.line, .strayCharacter c⟩
  | .openComment _ => some ⟨s.line, .openComment⟩
  | _ => none

end Spot

/-! ## The spots of a source -/

/-- The spots of a source that begins on the line `line`, behind those already
`found`, which are kept in reverse. -/
def spotsAfter (found : List Spot) (line : Nat) : List Char → List Spot
  | [] => found.reverse
  | c :: cs =>
    spotsAfter (⟨line, (cut c cs).piece⟩ :: found) (line + newlines (cut c cs).piece.text)
      (cut c cs).rest
termination_by source => source.length
decreasing_by exact rest_length_lt c cs

/-- The spots of a source that begins on the line `line`. -/
def spots (line : Nat) (source : List Char) : List Spot := spotsAfter [] line source

theorem spotsAfter_eq (found : List Spot) (line : Nat) (source : List Char) :
    spotsAfter found line source = found.reverse ++ spots line source := by
  suffices h : ∀ n, ∀ source : List Char, source.length ≤ n → ∀ found line,
      spotsAfter found line source = found.reverse ++ spotsAfter [] line source from
    h source.length source (Nat.le_refl _) found line
  intro n
  induction n with
  | zero =>
    intro source hn found line
    obtain rfl := List.eq_nil_of_length_eq_zero (Nat.le_zero.mp hn)
    simp [spotsAfter]
  | succ n ih =>
    intro source hn found line
    cases source with
    | nil => simp [spotsAfter]
    | cons c cs =>
      have shorter : (cut c cs).rest.length ≤ n := by
        have := rest_length_lt c cs
        omega
      rw [spotsAfter, spotsAfter, ih _ shorter, ih _ shorter [_]]
      simp

@[simp] theorem spots_nil (line : Nat) : spots line [] = [] := by simp [spots, spotsAfter]

/-- The spots of a source are its first piece and the spots of the rest. -/
theorem spots_cons (line : Nat) (c : Char) (cs : List Char) :
    spots line (c :: cs) =
      ⟨line, (cut c cs).piece⟩ ::
        spots (line + newlines (cut c cs).piece.text) (cut c cs).rest := by
  rw [spots, spotsAfter, spotsAfter_eq]
  simp

/-! ## Scans -/

/-- A source cut into pieces. -/
structure Scan where
  /-- The pieces with their lines, in the order of the source. -/
  spots : List Spot
  /-- The line on which the source ends. -/
  endLine : Nat
deriving DecidableEq, Repr

namespace Scan

/-- The scan of a text. -/
def ofChars (source : List Char) : Scan := ⟨MiniC.spots 1 source, 1 + newlines source⟩

/-- The scan of a source. -/
def ofSource (source : String) : Scan := ofChars source.toList

/-- The tokens of a scan, comments among them, and the end marker behind them. -/
def tokens (s : Scan) : List Token := s.spots.filterMap Spot.token? ++ [.endMarker s.endLine]

theorem endMarker_mem_tokens (s : Scan) : ∃ t ∈ s.tokens, t.kind = .endMarker :=
  ⟨.endMarker s.endLine, by simp [tokens], rfl⟩

/-- What is wrong with the source of a scan, in the order of the source. -/
def diagnostics (s : Scan) : Collector := .ofList (s.spots.filterMap Spot.diagnostic?)

/-! ## Tests -/

example : (ofSource "").tokens = [.endMarker 1] := by decide +kernel
example : ((ofSource "a<=b\n// c").tokens.map fun t => (t.kind.name, t.line)) =
    [("IDENTIFIER", 1), ("LESS_EQUAL", 1), ("IDENTIFIER", 1), ("SINGLE_LINE_COMMENT", 2),
      ("EOF_TOKEN", 2)] := by decide +kernel
example : (ofSource "a @\n/* b\n").diagnostics.toList =
    [⟨1, .strayCharacter '@'⟩, ⟨2, .openComment⟩] := by decide +kernel

end Scan

end MiniC
