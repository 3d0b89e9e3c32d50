/-!
# Keywords

The reserved words of C99, in the order in which the standard lists them.  All
of them are reserved, though the grammar of the subset gives a meaning to few.
A word is looked up by its exact spelling, so `While` is no keyword.
-/

namespace MiniC

/-- A reserved word. -/
inductive Keyword where
  | kwAuto | kwBreak | kwCase | kwChar | kwConst | kwContinue | kwDefault | kwDo
  | kwDouble | kwElse | kwEnum | kwExtern | kwFloat | kwFor | kwGoto | kwIf | kwInline
  | kwInt | kwLong | kwRegister | kwRestrict | kwReturn | kwShort | kwSigned | kwSizeof
  | kwStatic | kwStruct | kwSwitch | kwTypedef | kwUnion | kwUnsigned | kwVoid
  | kwVolatile | kwWhile | kwBool | kwComplex | kwImaginary
deriving DecidableEq, Repr

namespace Keyword

/-- Every keyword, in the order of the standard. -/
def all : List Keyword :=
  [kwAuto, kwBreak, kwCase, kwChar, kwConst, kwContinue, kwDefault, kwDo, kwDouble, kwElse,
    kwEnum, kwExtern, kwFloat, kwFor, kwGoto, kwIf, kwInline, kwInt, kwLong, kwRegister,
    kwRestrict, kwReturn, kwShort, kwSigned, kwSizeof, kwStatic, kwStruct, kwSwitch, kwTypedef,
    kwUnion, kwUnsigned, kwVoid, kwVolatile, kwWhile, kwBool, kwComplex, kwImaginary]

theorem mem_all (k : Keyword) : k ∈ all := by cases k <;> decide

/-- How a keyword is written. -/
def spelling : Keyword → String
  | kwAuto => "auto"
  | kwBreak => "break"
  | kwCase => "case"
  | kwChar => "char"
  | kwConst => "const"
  | kwContinue => "continue"
  | kwDefault => "default"
  | kwDo => "do"
  | kwDouble => "double"
  | kwElse => "else"
  | kwEnum => "enum"
  | kwExtern => "extern"
  | kwFloat => "float"
  | kwFor => "for"
  | kwGoto => "goto"
  | kwIf => "if"
  | kwInline => "inline"
  | kwInt => "int"
  | kwLong => "long"
  | kwRegister => "register"
  | kwRestrict => "restrict"
  | kwReturn => "return"
  | kwShort => "short"
  | kwSigned => "signed"
  | kwSizeof => "sizeof"
  | kwStatic => "static"
  | kwStruct => "struct"
  | kwSwitch => "switch"
  | kwTypedef => "typedef"
  | kwUnion => "union"
  | kwUnsigned => "unsigned"
  | kwVoid => "void"
  | kwVolatile => "volatile"
  | kwWhile => "while"
  | kwBool => "_Bool"
  | kwComplex => "_Complex"
  | kwImaginary => "_Imaginary"

/-- The name of a keyword in messages and listings: its spelling in capitals. -/
def name (k : Keyword) : String := String.ofList (k.spelling.toList.map Char.toUpper)

/-- The keyword with a given spelling, if there is one. -/
def ofSpelling? (word : String) : Option Keyword := all.find? (·.spelling == word)

/-- Looking up the spelling of a keyword gives that keyword, so no two keywords
are spelt alike. -/
theorem ofSpelling?_spelling (k : Keyword) : ofSpelling? k.spelling = some k := by
  cases k <;> decide

/-- A word that the look-up finds is the spelling of what it finds. -/
theorem spelling_of_ofSpelling? {word : String} {k : Keyword} (h : ofSpelling? word = some k) :
    k.spelling = word := by
  simpa using List.find?_some h

/-! ## Tests -/

example : kwImaginary.name = "_IMAGINARY" := by decide
example : ofSpelling? "while" = some kwWhile := by decide
example : ofSpelling? "While" = none := by decide
example : ofSpelling? "" = none := by decide

end Keyword

end MiniC
