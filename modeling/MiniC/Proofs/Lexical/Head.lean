import Mathlib.Data.List.Forall2
import MiniC.Log
import MiniC.Proofs.Lexical.Reading

/-!
# Scanning by index

A scan cuts pieces off a source.  Here a reading *head* goes over the same source by index: it
looks at one character, goes on to the next, and when a token is complete it takes the text
from where the token began up to where the head is.  Each range whose text is taken is kept, and
so is what is logged: a token when it is emitted, a diagnostic when it is recorded, and behind
the last piece how many there are of each.

`Head.step_eq` says that reading one token, or whatever stands in its place, is cutting off one
piece.  So the head finds the tokens and the diagnostics of the scan and logs what the scan logs,
which is `Head.scan_eq`, and every range that it takes lies in the source, which is
`Head.InRange.run`.
-/

namespace MiniC

/-! ## Heads -/

/-- A head over a source. -/
structure Head where
  /-- The index at which the piece begins that is being read. -/
  start : Nat
  /-- The index of the character that comes next. -/
  place : Nat
  /-- The line, counted from one. -/
  line : Nat
  /-- The tokens found, in order. -/
  tokens : List Token
  /-- What was found to be wrong, in order. -/
  diagnostics : List Diagnostic
  /-- The ranges whose text was taken, in order. -/
  taken : List (Nat × Nat)
  /-- What was logged, in order. -/
  logged : List Event
deriving DecidableEq, Repr

namespace Head

/-- The sign of one character that is no part of a longer one. -/
def single? : Char → Option Sign
  | '(' => some .leftParen
  | ')' => some .rightParen
  | '\x7b' => some .leftBrace
  | '\x7d' => some .rightBrace
  | ',' => some .comma
  | '.' => some .dot
  | ':' => some .colon
  | ';' => some .semicolon
  | '+' => some .plus
  | '-' => some .minus
  | '*' => some .times
  | _ => none

/-- The signs that begin with this character, by itself and before `=`. -/
def oneOrTwo? : Char → Option (Sign × Sign)
  | '=' => some (.assign, .equal)
  | '!' => some (.bang, .notEqual)
  | '<' => some (.less, .lessEqual)
  | '>' => some (.greater, .greaterEqual)
  | _ => none

section

variable (source : List Char)

/-- One index further on. -/
def onward (h : Head) : Head := { h with place := h.place + 1 }

/-- Count a line if this is a newline. -/
def count (c : Char) (h : Head) : Head := if c = '\n' then { h with line := h.line + 1 } else h

/-- The text from the start up to the head. -/
def text (h : Head) : List Char := (source.drop h.start).take (h.place - h.start)

/-- The token whose text that is, if it began on this line. -/
def token (kind : List Char → Kind) (line : Nat) (h : Head) : Token :=
  ⟨kind (h.text source), String.ofList (h.text source), line⟩

/-- Take the text for a token that began on this line, and log the token. -/
def emit (kind : List Char → Kind) (line : Nat) (h : Head) : Head :=
  { h with
    tokens := h.tokens ++ [h.token source kind line]
    taken := h.taken ++ [(h.start, h.place)]
    logged := h.logged ++ [.found (h.token source kind line)] }

/-- Record what is wrong, and log it. -/
def complain (line : Nat) (p : Problem) (h : Head) : Head :=
  { h with
    diagnostics := h.diagnostics ++ [⟨line, p⟩]
    logged := h.logged ++ [.recorded ⟨line, p⟩] }

theorem count_eq (c : Char) (h : Head) : h.count c = { h with line := h.line + newlines [c] } := by
  rw [count, newlines, List.count_singleton]
  simp only [beq_iff_eq]
  split <;> rfl

theorem lt_of_next {c : Char} {i : Nat} (h : source[i]? = some c) : i < source.length :=
  (List.getElem?_eq_some_iff.mp h).1

/-- Go on as long as the characters have this property. -/
def runOn (p : Char → Bool) (h : Head) : Head :=
  match _next : source[h.place]? with
  | none => h
  | some c => if p c then runOn p h.onward else h
termination_by source.length - h.place
decreasing_by exact Nat.sub_succ_lt_self _ _ (lt_of_next source _next)

/-- Read on inside a block comment that began on this line. -/
def insideComment (line : Nat) (h : Head) : Head :=
  match _next : source[h.place]? with
  | none => h.complain line .openComment
  | some c =>
    if c = '*' ∧ source[h.place + 1]? = some '/' then
      h.onward.onward.emit source (fun _ => .blockComment) line
    else insideComment line (h.onward.count c)
termination_by source.length - h.place
decreasing_by
  rw [count_eq]
  exact Nat.sub_succ_lt_self _ _ (lt_of_next source _next)

/-- Behind a slash, read a comment or the sign. -/
def slash (h : Head) : Head :=
  if source[h.place]? = some '/' then
    (h.runOn source (· != '\n')).emit source (fun _ => .lineComment) h.line
  else if source[h.place]? = some '*' then h.onward.insideComment source h.line
  else h.emit source (fun _ => .sign .divide) h.line

/-- Behind the character of a sign, read the longer one if `=` comes next. -/
def oneOrTwo (one two : Sign) (h : Head) : Head :=
  if source[h.place]? = some '=' then h.onward.emit source (fun _ => .sign two) h.line
  else h.emit source (fun _ => .sign one) h.line

/-- Behind the first character of a piece that is no comment and no sign, read the rest of it. -/
def plain (c : Char) (h : Head) : Head :=
  if c = ' ' ∨ c = '\t' ∨ c = '\r' ∨ c = '\n' then h.count c
  else if c.isDigit then (h.runOn source Char.isDigit).emit source (fun _ => .number) h.line
  else if startsWord c then
    (h.runOn source continuesWord).emit source (fun text => .ofWord (String.ofList text)) h.line
  else h.complain h.line (.strayCharacter c)

/-- Behind the first character of a piece, read the rest of it. -/
def behind (c : Char) (h : Head) : Head :=
  if c = '/' then h.slash source
  else
    match single? c, oneOrTwo? c with
    | some s, _ => h.emit source (fun _ => .sign s) h.line
    | none, some (one, two) => h.oneOrTwo source one two
    | none, none => h.plain source c

/-- Read one piece. -/
def step (h : Head) : Head :=
  match source[h.place]? with
  | none => { h with start := h.place }
  | some c => behind source c { h with start := h.place, place := h.place + 1 }

end

/-! ## What a head has read -/

variable {source read rest lexeme : List Char} {h : Head} {c : Char} {line : Nat}

/-- From its start the head has read these characters, and those lie ahead. -/
structure Has (source : List Char) (h : Head) (read rest : List Char) : Prop where
  /-- They make up the source from there on. -/
  drop : source.drop h.start = read ++ rest
  /-- The head is between the two. -/
  place : h.place = h.start + read.length

namespace Has

theorem next (hr : Has source h read rest) : source[h.place]? = rest.head? := by
  rw [hr.place, ← List.getElem?_drop, hr.drop, List.getElem?_append_right (Nat.le_refl _),
    Nat.sub_self, List.head?_eq_getElem?]

theorem onward (hr : Has source h read (c :: rest)) :
    Has source h.onward (read ++ [c]) rest where
  drop := by
    rw [List.append_assoc]
    exact hr.drop
  place := by
    rw [List.length_append, ← Nat.add_assoc]
    exact congrArg (· + 1) hr.place

theorem count (hr : Has source h read rest) : Has source (h.count c) read rest := by
  rw [count_eq]
  exact ⟨hr.drop, hr.place⟩

/-- The text that is taken is the one that was read. -/
theorem text (hr : Has source h read rest) : h.text source = read := by
  rw [Head.text, hr.drop, hr.place, Nat.add_sub_cancel_left, List.take_left]

end Has

/-- The head behind a piece that begins where this one started, on this line. -/
def after (h : Head) (line : Nat) (p : Piece) : Head where
  start := h.start
  place := h.start + p.text.length
  line := line + newlines p.text
  tokens := h.tokens ++ (Spot.token? ⟨line, p⟩).toList
  diagnostics := h.diagnostics ++ (Spot.diagnostic? ⟨line, p⟩).toList
  taken := h.taken ++
    (Spot.token? ⟨line, p⟩).toList.map fun _ => (h.start, h.start + p.text.length)
  logged := h.logged ++ (Spot.event? ⟨line, p⟩).toList

/-- A token is emitted behind its text. -/
theorem emit_eq (hr : Has source h read rest) (hl : h.line = line + newlines read)
    {kind : List Char → Kind} :
    h.emit source kind line = h.after line (.token (kind read) read) := by
  simp [emit, token, after, hr.text, hr.place, hl, Piece.text, Spot.token?, Spot.diagnostic?,
    Spot.event?]

/-- A text without a newline stays on its line. -/
theorem newlines_eq_zero {p : Char → Bool} (hp : p '\n' = false) (hr : ∀ d ∈ read, p d = true) :
    newlines read = 0 := by
  refine List.count_eq_zero.mpr fun hm => ?_
  rw [hr _ hm] at hp
  cases hp

/-! ## What a head does is cutting -/

/-- A head runs on to where the characters stop having the property. -/
theorem runOn_eq {p : Char → Bool} (hr : Has source h read rest) :
    h.runOn source p = { h with place := h.place + (rest.takeWhile p).length } := by
  induction rest generalizing h read with
  | nil =>
    unfold runOn
    split
    · rfl
    · next next => cases hr.next.symm.trans next
  | cons c rest ih =>
    unfold runOn
    split
    · next next => cases hr.next.symm.trans next
    · next d next =>
      obtain rfl : c = d := Option.some.inj (hr.next.symm.trans next)
      rw [List.takeWhile_cons]
      split
      · rw [ih hr.onward, List.length_cons, Nat.add_comm _ 1, ← Nat.add_assoc]
        rfl
      · rfl

theorem Has.runOn (hr : Has source h read rest) (p : Char → Bool) :
    Has source (h.runOn source p) (read ++ rest.takeWhile p) (rest.dropWhile p) := by
  rw [runOn_eq hr]
  constructor
  · rw [List.append_assoc, List.takeWhile_append_dropWhile]
    exact hr.drop
  · rw [List.length_append, ← Nat.add_assoc, ← hr.place]

/-- Behind a run without a newline, the text of the run is taken. -/
theorem emit_runOn {p : Char → Bool} (hr : Has source h [c] rest) (hp : p '\n' = false)
    (hc : p c = true) {kind : List Char → Kind} :
    (h.runOn source p).emit source kind h.line =
      h.after h.line (.token (kind (c :: rest.takeWhile p)) (c :: rest.takeWhile p)) := by
  have run : ∀ d ∈ c :: rest.takeWhile p, p d = true :=
    List.forall_mem_cons.mpr ⟨hc, takeWhile_all rest⟩
  have line : (h.runOn source p).line = h.line + newlines ([c] ++ rest.takeWhile p) := by
    rw [runOn_eq hr, List.singleton_append, newlines_eq_zero hp run, Nat.add_zero]
  rw [emit_eq (hr.runOn p) line, runOn_eq hr]
  rfl

/-- Inside a block comment, a head reads on to the first closer or to the end. -/
theorem insideComment_eq {r : List Char} (hr : Has source h r.reverse rest)
    (hl : h.line = line + newlines r.reverse) :
    h.insideComment source line = h.after line (Cut.insideComment r rest).piece := by
  fun_induction Cut.insideComment r rest generalizing h with
  | case1 r =>
    unfold insideComment
    split
    · simp [complain, after, hl, hr.place, Piece.text, Spot.token?, Spot.diagnostic?, Spot.event?]
    · next next => cases hr.next.symm.trans next
  | case2 r cs =>
    have behindStar := hr.onward
    have closed := behindStar.onward
    unfold insideComment
    split
    · next next => cases hr.next.symm.trans next
    · next d next =>
      obtain rfl : '*' = d := Option.some.inj (hr.next.symm.trans next)
      rw [if_pos ⟨rfl, behindStar.next⟩, emit_eq closed]
      · rw [List.append_assoc]
        rfl
      · rw [newlines_append, newlines_append, ← Nat.add_assoc, ← Nat.add_assoc, ← hl]
        rfl
  | case3 r c cs no ih =>
    unfold insideComment
    split
    · next next => cases hr.next.symm.trans next
    · next d next =>
      obtain rfl : c = d := Option.some.inj (hr.next.symm.trans next)
      have goesOn : ¬ (c = '*' ∧ source[h.place + 1]? = some '/') := by
        rintro ⟨rfl, closes⟩
        obtain ⟨cs, rfl⟩ := List.head?_eq_some_iff.mp (hr.onward.next.symm.trans closes)
        exact no cs rfl rfl
      have read : Has source (h.onward.count c) (c :: r).reverse cs := by
        rw [List.reverse_cons]
        exact hr.onward.count
      rw [if_neg goesOn, ih read]
      · rw [count_eq]
        rfl
      · rw [count_eq, List.reverse_cons, newlines_append, ← Nat.add_assoc, ← hl]
        rfl

/-! ### By the first character -/

/-- A sign is taken for a token where it is the longest one. -/
theorem emit_sign {s : Sign} {cs : List Char} (hr : Has source h (c :: cs) rest)
    (hm : Munched (.sign s) (c :: cs) rest) :
    h.emit source (fun _ => .sign s) h.line = h.after h.line (cut c (cs ++ rest)).piece := by
  have sameLine : newlines (c :: cs) = 0 := by
    rw [hm.1]
    cases s <;> rfl
  rw [cut_of_munched (p := .token (.sign s) (c :: cs)) hm rfl]
  exact emit_eq hr (by rw [sameLine, Nat.add_zero])

theorem slash_eq (hr : Has source h ['/'] rest) :
    h.slash source = h.after h.line (cut '/' rest).piece := by
  unfold slash
  rw [hr.next]
  split
  · next again =>
    obtain ⟨rest, rfl⟩ := List.head?_eq_some_iff.mp again
    exact emit_runOn (p := (· != '\n')) hr rfl rfl
  · next noLine =>
    split
    · next star =>
      obtain ⟨rest, rfl⟩ := List.head?_eq_some_iff.mp star
      exact insideComment_eq hr.onward rfl
    · next noBlock =>
      exact emit_sign hr ⟨rfl, fun h => absurd h (by decide), fun _ => ⟨noLine, noBlock⟩⟩

theorem single_eq {s : Sign} (hs : single? c = some s) (hr : Has source h [c] rest) :
    h.emit source (fun _ => .sign s) h.line = h.after h.line (cut c rest).piece := by
  have alone : s.spelling = [c] ∧ s ∉ [.assign, .bang, .less, .greater] ∧ s ≠ .divide := by
    unfold single? at hs
    split at hs
    all_goals cases hs
    all_goals decide
  exact emit_sign hr ⟨alone.1.symm, fun h => absurd h alone.2.1, fun h => absurd h alone.2.2⟩

theorem oneOrTwo_eq {one two : Sign} (hs : oneOrTwo? c = some (one, two))
    (hr : Has source h [c] rest) :
    h.oneOrTwo source one two = h.after h.line (cut c rest).piece := by
  have spelled : one.spelling = [c] ∧ one ≠ .divide ∧ two.spelling = [c, '='] ∧
      two ∉ [.assign, .bang, .less, .greater] ∧ two ≠ .divide := by
    unfold oneOrTwo? at hs
    split at hs
    all_goals cases hs
    all_goals decide
  obtain ⟨one_eq, one_ne, two_eq, two_notMem, two_ne⟩ := spelled
  unfold oneOrTwo
  rw [hr.next]
  split
  · next equals =>
    obtain ⟨rest, rfl⟩ := List.head?_eq_some_iff.mp equals
    exact emit_sign hr.onward
      ⟨two_eq.symm, fun h => absurd h two_notMem, fun h => absurd h two_ne⟩
  · next noEquals =>
    exact emit_sign hr ⟨one_eq.symm, fun _ => noEquals, fun h => absurd h one_ne⟩

theorem plain_eq (hr : Has source h [c] rest) :
    h.plain source c = h.after h.line (Cut.plain c rest).piece := by
  have blank : (c = ' ' ∨ c = '\t' ∨ c = '\r' ∨ c = '\n') ↔ c.isWhitespace = true := by
    simp [Char.isWhitespace, or_assoc]
  unfold plain Cut.plain
  simp only [blank]
  split
  · rw [count_eq]
    simp [after, hr.place, Piece.text, Spot.token?, Spot.diagnostic?, Spot.event?]
  · next noBlank =>
    split
    · next digit => exact emit_runOn hr rfl digit
    · split
      · next word => exact emit_runOn hr (by decide) (continuesWord_of_startsWord word)
      · have sameLine : newlines [c] = 0 :=
          newlines_eq_zero (p := (!·.isWhitespace)) rfl (by simpa using noBlank)
        simp [complain, after, hr.place, sameLine, Piece.text, Spot.token?, Spot.diagnostic?,
          Spot.event?]

/-- The character with which a sign begins is told apart. -/
theorem of_spelling {s : Sign} (hs : s.spelling.head? = some c) :
    c = '/' ∨ (single? c).isSome = true ∨ (oneOrTwo? c).isSome = true := by
  cases s <;> (cases hs; decide)

/-- Behind its first character, a head reads the piece that is cut off there. -/
theorem behind_eq (hr : Has source h [c] rest) :
    h.behind source c = h.after h.line (cut c rest).piece := by
  unfold behind
  split
  · next slash =>
    subst slash
    exact slash_eq hr
  · next noSlash =>
    split
    · next s _ single => exact single_eq single hr
    · next one two _ more => exact oneOrTwo_eq more hr
    · next none none' =>
      have noSign : ∀ s : Sign, s.spelling.head? ≠ some c := by
        intro s hs
        have sign := of_spelling hs
        rw [none, none'] at sign
        simp [noSlash] at sign
      rw [cut_eq_plain noSign]
      exact plain_eq hr

/-- Reading on from where it is, a head reads the piece that is cut off there. -/
theorem step_eq (h : Head) (ahead : source.drop h.place = c :: rest) :
    h.step source = { h with start := h.place }.after h.line (cut c rest).piece := by
  have next : source[h.place]? = some c := by
    rw [← List.head?_drop, ahead, List.head?_cons]
  have read : Has source { h with start := h.place, place := h.place + 1 } [c] rest := ⟨ahead, rfl⟩
  unfold step
  rw [next]
  exact behind_eq read

/-! ## What a head takes -/

/-- The ranges that were taken lie in the source, and the tokens have their texts. -/
def InRange (source : List Char) (h : Head) : Prop :=
  List.Forall₂ (fun t (range : Nat × Nat) => range.1 ≤ range.2 ∧ range.2 ≤ source.length ∧
    t.lexeme = String.ofList ((source.take range.2).drop range.1)) h.tokens h.taken

/-- Reading a piece takes a range of the source, if it takes one. -/
theorem InRange.after {p : Piece} (hr : InRange source h) (within : h.start ≤ source.length)
    (ahead : source.drop h.start = p.text ++ rest) : InRange source (h.after line p) := by
  refine List.rel_append hr ?_
  cases p with
  | token kind lexeme =>
    have length := congrArg List.length ahead
    rw [List.length_drop, List.length_append] at length
    have fits : h.start + (Piece.token kind lexeme).text.length ≤ source.length := by omega
    refine .cons ⟨Nat.le_add_right _ _, fits, ?_⟩ .nil
    rw [List.drop_take, Nat.add_sub_cancel_left, ahead, List.take_left]
    rfl
  | blank => exact .nil
  | stray => exact .nil
  | openComment => exact .nil

/-! ## Over the whole source -/

/-- A piece has one character at least. -/
theorem place_lt_step (hp : h.place < source.length) : h.place < (h.step source).place := by
  rw [step_eq h (List.drop_eq_getElem_cons hp)]
  exact Nat.lt_add_of_pos_right (List.length_pos_iff.mpr (text_cut_ne_nil _ _))

/-- Read on to the end of the source. -/
def run (source : List Char) (h : Head) : Head :=
  if _inside : h.place < source.length then run source (h.step source) else h
termination_by source.length - h.place
decreasing_by
  have onward := place_lt_step _inside
  omega

/-- From where it is, a head finds and logs what the scan of the rest does. -/
theorem run_eq (source : List Char) : ∀ (rest : List Char) (h : Head),
    source.drop h.place = rest →
    (h.run source).tokens = h.tokens ++ (spots h.line rest).filterMap Spot.token? ∧
      (h.run source).diagnostics = h.diagnostics ++ (spots h.line rest).filterMap Spot.diagnostic? ∧
      (h.run source).line = h.line + newlines rest ∧
      (h.run source).logged = h.logged ++ (spots h.line rest).filterMap Spot.event?
  | [], h, ahead => by
    have atEnd : ¬ h.place < source.length := Nat.not_lt_of_le (List.drop_eq_nil_iff.mp ahead)
    rw [run, dif_neg atEnd]
    simp
  | c :: rest, h, ahead => by
    have inside : h.place < source.length := by
      refine Nat.lt_of_not_le fun atEnd => ?_
      rw [List.drop_eq_nil_of_le atEnd] at ahead
      cases ahead
    have shorter := rest_length_lt c rest
    have behind : source.drop (h.step source).place = (cut c rest).rest := by
      rw [step_eq h ahead, after, ← List.drop_drop, ahead, ← text_cut, List.drop_left]
    obtain ⟨tokens, diagnostics, line, logged⟩ := run_eq source _ (h.step source) behind
    have first {β : Type} (f : Spot → Option β) (x : Spot) (row : List Spot) :
        (f x).toList ++ row.filterMap f = (x :: row).filterMap f := by
      rw [List.filterMap_cons]
      cases f x <;> rfl
    have lines : newlines (c :: rest) =
        newlines (cut c rest).piece.text + newlines (cut c rest).rest := by
      rw [← newlines_append, text_cut]
    rw [run, dif_pos inside, tokens, diagnostics, line, logged, step_eq h ahead, spots_cons, lines]
    refine ⟨?_, ?_, Nat.add_assoc _ _ _, ?_⟩
    · rw [← first, ← List.append_assoc]
      rfl
    · rw [← first, ← List.append_assoc]
      rfl
    · rw [← first, ← List.append_assoc]
      rfl
termination_by rest => rest.length
decreasing_by exact shorter

/-- A head at the front of a source. -/
def front : Head := ⟨0, 0, 1, [], [], [], []⟩

/-- Behind the last piece the end marker is added, which is not logged, and what was found is
counted. -/
def finish (h : Head) : Head :=
  { h with
    tokens := h.tokens ++ [Token.endMarker h.line]
    logged := h.logged ++
      [.scanned (h.tokens ++ [Token.endMarker h.line]).length h.diagnostics.length] }

/-- Scan a source from its front. -/
def scan (source : List Char) : Head := (front.run source).finish

/-- A head finds what the scan of the source finds, and logs what that logs. -/
theorem scan_eq (source : String) :
    (scan source.toList).tokens = (Scan.ofSource source).tokens ∧
      (scan source.toList).diagnostics = (Scan.ofSource source).diagnostics.toList ∧
      (scan source.toList).logged = (Scan.ofSource source).events := by
  obtain ⟨tokens, diagnostics, line, logged⟩ := run_eq source.toList _ front rfl
  have found : (scan source.toList).tokens = (Scan.ofSource source).tokens := by
    rw [scan, finish, tokens, line]
    rfl
  have wrong : (front.run source.toList).diagnostics =
      (Scan.ofSource source).diagnostics.toList := by
    rw [diagnostics]
    exact (Collector.toList_ofList _).symm
  refine ⟨found, wrong, ?_⟩
  have counted : (front.run source.toList).diagnostics.length =
      (Scan.ofSource source).diagnostics.size := by
    rw [wrong, Collector.size_eq_length]
  show (front.run source.toList).logged ++ [.scanned (scan source.toList).tokens.length
    (front.run source.toList).diagnostics.length] = _
  rw [logged, found, counted]
  rfl

/-- What a head takes for one piece lies in the source. -/
theorem InRange.step (hr : InRange source h) (hp : h.place ≤ source.length) :
    InRange source (h.step source) := by
  cases ahead : source.drop h.place with
  | nil =>
    have next : source[h.place]? = none :=
      List.getElem?_eq_none_iff.mpr (List.drop_eq_nil_iff.mp ahead)
    rw [Head.step, next]
    exact hr
  | cons c rest =>
    rw [step_eq h ahead]
    exact InRange.after hr hp (by rw [text_cut]; exact ahead)

/-- All that a head takes lies in the source. -/
theorem InRange.run (hr : InRange source h) : InRange source (h.run source) := by
  fun_induction Head.run source h with
  | case1 h inside ih => exact ih (hr.step (Nat.le_of_lt inside))
  | case2 h atEnd => exact hr

end Head

end MiniC
