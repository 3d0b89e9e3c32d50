import MiniC.Keyword
import MiniC.Sign

/-!
# Kinds of tokens

A token is a sign, a number, an identifier, a keyword, one of the two sorts of
comment, or the marker that ends every scan.  Each kind has a name, and
`ofName?_name` says that the names tell the kinds apart.
-/

namespace MiniC

/-- What sort of token a token is. -/
inductive Kind where
  /-- An operator or a delimiter. -/
  | sign (s : Sign)
  /-- A run of decimal digits. -/
  | number
  /-- A word that is not reserved. -/
  | identifier
  /-- A reserved word. -/
  | keyword (k : Keyword)
  /-- A comment that runs to the end of its line. -/
  | lineComment
  /-- A comment between an opener and a closer. -/
  | blockComment
  /-- The marker after the last token of a scan. -/
  | endMarker
deriving DecidableEq, Repr

namespace Kind

/-- Every kind, the signs first and the end marker last. -/
def all : List Kind :=
  Sign.all.map sign ++ [number, identifier] ++ Keyword.all.map keyword ++
    [lineComment, blockComment, endMarker]

/-- The name of a kind in messages and listings. -/
def name : Kind → String
  | sign s => s.name
  | number => "NUMBER"
  | identifier => "IDENTIFIER"
  | keyword k => k.name
  | lineComment => "SINGLE_LINE_COMMENT"
  | blockComment => "MULTI_LINE_COMMENT"
  | endMarker => "EOF_TOKEN"

/-- The kind with a given name, if there is one. -/
def ofName? (text : String) : Option Kind := all.find? (·.name == text)

/-- The name of a kind is read back as that kind. -/
theorem ofName?_name (k : Kind) : ofName? k.name = some k := by
  cases k with
  | sign s => cases s <;> decide
  | keyword k => cases k <;> decide
  | _ => decide

/-- The kind of a scanned word: a keyword if it is reserved, else an identifier. -/
def ofWord (word : String) : Kind :=
  match Keyword.ofSpelling? word with
  | some k => keyword k
  | none => identifier

/-- Tells the keywords. -/
def isKeyword : Kind → Bool
  | keyword _ => true
  | _ => false

/-- Tells the two sorts of comment. -/
def isComment : Kind → Bool
  | lineComment | blockComment => true
  | _ => false

/-- Tells the keywords that name a type of the subset.  A declaration begins
with one of them.  The other types of C are reserved words and no more. -/
def isType : Kind → Bool
  | keyword .kwInt | keyword .kwFloat | keyword .kwChar => true
  | _ => false

/-! ## Tests -/

example : ofName? "_BOOL" = some (keyword .kwBool) := by decide
example : ofName? "lineComment" = none := by decide
example : isType (keyword .kwDouble) = false := by decide

end Kind

end MiniC
