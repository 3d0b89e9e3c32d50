/-!
# Signs

The *signs* of the language are its operators and delimiters, each with one
spelling of one or two characters.  `Sign.all` lists them with the spellings of
two characters first, so that the first sign of the list whose spelling begins
a text is the longest one that does.
-/

namespace MiniC

/-- An operator or a delimiter. -/
inductive Sign where
  /-- `==` -/
  | equal
  /-- `!=` -/
  | notEqual
  /-- `<=` -/
  | lessEqual
  /-- `>=` -/
  | greaterEqual
  /-- `=` -/
  | assign
  /-- `!` -/
  | bang
  /-- `<` -/
  | less
  /-- `>` -/
  | greater
  /-- `+` -/
  | plus
  /-- `-` -/
  | minus
  /-- `*` -/
  | times
  /-- `/` -/
  | divide
  /-- `(` -/
  | leftParen
  /-- `)` -/
  | rightParen
  /-- `{` -/
  | leftBrace
  /-- `}` -/
  | rightBrace
  /-- `;` -/
  | semicolon
  /-- `,` -/
  | comma
  /-- `.` -/
  | dot
  /-- `:` -/
  | colon
deriving DecidableEq, Repr

namespace Sign

/-- Every sign, those of two characters first. -/
def all : List Sign :=
  [equal, notEqual, lessEqual, greaterEqual, assign, bang, less, greater, plus, minus, times,
    divide, leftParen, rightParen, leftBrace, rightBrace, semicolon, comma, dot, colon]

theorem mem_all (s : Sign) : s ∈ all := by cases s <;> decide

/-- The characters a sign is written with. -/
def spelling : Sign → List Char
  | equal => ['=', '=']
  | notEqual => ['!', '=']
  | lessEqual => ['<', '=']
  | greaterEqual => ['>', '=']
  | assign => ['=']
  | bang => ['!']
  | less => ['<']
  | greater => ['>']
  | plus => ['+']
  | minus => ['-']
  | times => ['*']
  | divide => ['/']
  | leftParen => ['(']
  | rightParen => [')']
  | leftBrace => ['{']
  | rightBrace => ['}']
  | semicolon => [';']
  | comma => [',']
  | dot => ['.']
  | colon => [':']

theorem spelling_ne_nil (s : Sign) : s.spelling ≠ [] := by cases s <;> decide

/-- The name of a sign in messages and listings. -/
def name : Sign → String
  | equal => "EQUAL"
  | notEqual => "NOT_EQUAL"
  | lessEqual => "LESS_EQUAL"
  | greaterEqual => "GREATER_EQUAL"
  | assign => "ASSIGNMENT"
  | bang => "BANG"
  | less => "LESS"
  | greater => "GREATER"
  | plus => "PLUS"
  | minus => "MINUS"
  | times => "MULTIPLY"
  | divide => "DIVIDE"
  | leftParen => "LEFT_PAREN"
  | rightParen => "RIGHT_PAREN"
  | leftBrace => "LEFT_BRACE"
  | rightBrace => "RIGHT_BRACE"
  | semicolon => "SEMICOLON"
  | comma => "COMMA"
  | dot => "DOT"
  | colon => "COLON"

end Sign

end MiniC
