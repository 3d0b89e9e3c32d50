import MiniC.Proofs.Lexical.Reading

/-!
# Scanning on behind a newline

A newline between tokens is a place to begin scanning anew.  No piece that ends before
the end of a source goes on with a newline, so only a comment that is open there reaches
behind it.  If none is, the spots of the source stay as they are, whatever comes behind
the newline, and what comes there is scanned as it would be by itself, only further
down.  `spots_newline` says this of spots, `tokens_newline` and `diagnostics_newline`
of what they come to.
-/

namespace MiniC

/-! ## Further down -/

/-- A spot `d` lines further down. -/
def Spot.down (d : Nat) (s : Spot) : Spot := { s with line := s.line + d }

/-- A token `d` lines further down. -/
def Token.down (d : Nat) (t : Token) : Token := { t with line := t.line + d }

/-- A diagnostic `d` lines further down. -/
def Diagnostic.down (d : Nat) (e : Diagnostic) : Diagnostic := { e with line := e.line + d }

@[simp] theorem Token.kind_down (d : Nat) (t : Token) : (t.down d).kind = t.kind := rfl

theorem Spot.token?_down (d : Nat) (s : Spot) : (s.down d).token? = s.token?.map (Token.down d) := by
  rcases s with ⟨line, piece⟩
  cases piece <;> rfl

theorem Spot.diagnostic?_down (d : Nat) (s : Spot) :
    (s.down d).diagnostic? = s.diagnostic?.map (Diagnostic.down d) := by
  rcases s with ⟨line, piece⟩
  cases piece <;> rfl

theorem filterMap_token?_down (d : Nat) (row : List Spot) :
    (row.map (Spot.down d)).filterMap Spot.token? =
      (row.filterMap Spot.token?).map (Token.down d) := by
  rw [List.filterMap_map, List.map_filterMap]
  exact congrArg (List.filterMap · row) (funext (Spot.token?_down d))

theorem filterMap_diagnostic?_down (d : Nat) (row : List Spot) :
    (row.map (Spot.down d)).filterMap Spot.diagnostic? =
      (row.filterMap Spot.diagnostic?).map (Diagnostic.down d) := by
  rw [List.filterMap_map, List.map_filterMap]
  exact congrArg (List.filterMap · row) (funext (Spot.diagnostic?_down d))

theorem place_add (line d : Nat) (ps : List Piece) :
    place (line + d) ps = (place line ps).map (Spot.down d) := by
  induction ps generalizing line with
  | nil => rfl
  | cons p ps ih => simp [place, Spot.down, Nat.add_right_comm line d, ih]

/-- A scan that begins further down finds the same further down. -/
theorem spots_add (line d : Nat) (source : List Char) :
    spots (line + d) source = (spots line source).map (Spot.down d) := by
  obtain ⟨ps, _, _, hs⟩ := exists_row source
  rw [hs, hs, place_add]

/-! ## Behind a newline -/

/-- A row without an open comment may be put before a newline. -/
theorem Munches.before_newline {ps : List Piece} (h : Munches ps [])
    (hc : ∀ p ∈ ps, ∀ text, p ≠ .openComment text) (rest : List Char) :
    Munches ps ('\n' :: rest) := by
  induction ps with
  | nil => trivial
  | cons p ps ih =>
    obtain ⟨munched, more⟩ := h
    refine ⟨?_, ih more fun q hq => hc q (List.mem_cons_of_mem p hq)⟩
    rw [List.append_nil] at munched
    cases p with
    | token kind lexeme =>
      refine Munched.before munched fun d hd => ?_
      rw [List.head?_append] at hd
      cases hh : (ps.flatMap Piece.text).head? with
      | some e =>
        rw [hh] at hd
        exact .inl hd
      | none =>
        rw [hh] at hd
        obtain rfl := Option.some.inj hd
        exact .inr ⟨rfl, fun _ => rfl⟩
    | blank c => exact munched
    | stray c => exact munched
    | openComment text => exact absurd rfl (hc _ List.mem_cons_self text)

/-- No comment is open at the end of a row of spots. -/
def Closed (row : List Spot) : Prop := ∀ s ∈ row, ∀ text, s.piece ≠ .openComment text

/-- A scan that does not report an open comment has none. -/
theorem closed_of_problems {source : List Char}
    (h : ∀ e ∈ (Scan.ofChars source).diagnostics.toList, e.problem ≠ .openComment) :
    Closed (spots 1 source) := by
  rw [Scan.diagnostics, Collector.toList_ofList] at h
  intro s hs text he
  have found : s.diagnostic? = some ⟨s.line, .openComment⟩ := by rw [Spot.diagnostic?, he]
  exact h _ (List.mem_filterMap.mpr ⟨s, hs, found⟩) rfl

theorem spots_newline {line : Nat} {a : List Char} (h : Closed (spots line a)) (b : List Char) :
    spots line (a ++ '\n' :: b) = spots line a ++ ⟨line + newlines a, .blank '\n'⟩ ::
      spots (line + newlines a + 1) b := by
  obtain ⟨ps, row, rfl, hs⟩ := exists_row a
  rw [hs] at h ⊢
  have closed : ∀ p ∈ ps, ∀ text, p ≠ .openComment text := by
    intro p hp
    rw [← map_piece_place line ps] at hp
    obtain ⟨s, hs, rfl⟩ := List.mem_map.mp hp
    exact h s hs
  have newline : (Piece.blank '\n').Munched b := rfl
  rw [spots_of_munches (row.before_newline closed b)]
  exact congrArg _ (spots_of_munched newline _)

/-! ## Scans -/

variable {a : List Char}

/-- The scan behind a newline is the scan of what stands there, further down. -/
theorem scan_newline (h : Closed (spots 1 a)) (b : List Char) :
    Scan.ofChars (a ++ '\n' :: b) =
      ⟨spots 1 a ++ ⟨1 + newlines a, .blank '\n'⟩ ::
          (spots 1 b).map (Spot.down (1 + newlines a)),
        (Scan.ofChars b).endLine + (1 + newlines a)⟩ := by
  have lines : 1 + newlines (a ++ '\n' :: b) = 1 + newlines b + (1 + newlines a) := by
    have : newlines ('\n' :: b) = newlines b + 1 := List.count_cons_self
    rw [newlines_append]
    omega
  have behind : spots (1 + newlines a + 1) b = (spots 1 b).map (Spot.down (1 + newlines a)) := by
    rw [Nat.add_comm _ 1, spots_add]
  rw [Scan.ofChars, spots_newline h, behind, lines]
  rfl

theorem tokens_newline (h : Closed (spots 1 a)) (b : List Char) :
    (Scan.ofChars (a ++ '\n' :: b)).tokens =
      (spots 1 a).filterMap Spot.token? ++
        (Scan.ofChars b).tokens.map (Token.down (1 + newlines a)) := by
  have behind := filterMap_token?_down (1 + newlines a) (spots 1 b)
  rw [scan_newline h, Scan.tokens, Scan.tokens, List.filterMap_append, List.map_append,
    List.append_assoc]
  exact congrArg (fun row => _ ++ (row ++ _)) behind

theorem diagnostics_newline (h : Closed (spots 1 a)) (b : List Char) :
    (Scan.ofChars (a ++ '\n' :: b)).diagnostics.toList =
      (Scan.ofChars a).diagnostics.toList ++
        (Scan.ofChars b).diagnostics.toList.map (Diagnostic.down (1 + newlines a)) := by
  have behind := filterMap_diagnostic?_down (1 + newlines a) (spots 1 b)
  rw [scan_newline h, Scan.diagnostics, Scan.diagnostics, Scan.diagnostics, Collector.toList_ofList,
    Collector.toList_ofList, Collector.toList_ofList, List.filterMap_append]
  exact congrArg (_ ++ ·) behind

end MiniC
