/-!
# Complaints

A complaint is one way in which a row of tokens fails to be a program.  It fixes
its wording and the token it blames, which is the token where the reader stands
or, for what should have stood behind a token, the token before.

Three complaints only follow another one: a rule that was tried inside a right-hand
side, an initializer or a function body has failed and has said why.
-/

namespace MiniC.Grammar

/-- What is wrong with a row of tokens. -/
inductive Complaint where
  /-- No operand begins here. -/
  | operandExpected
  /-- A parenthesis opened in an expression is not closed. -/
  | unclosedParenthesis
  /-- The right-hand side of an assignment failed. -/
  | badRightHandSide
  /-- An expression opens more levels than there are. -/
  | expressionTooDeep
  /-- A block is not closed. -/
  | unclosedBlock
  /-- The parenthesis before a condition is missing. -/
  | conditionNotOpened
  /-- The parenthesis behind a condition is missing. -/
  | conditionNotClosed
  /-- The semicolon behind a returned value is missing. -/
  | returnNotEnded
  /-- The semicolon behind an expression is missing. -/
  | expressionNotEnded
  /-- A statement opens more levels than there are. -/
  | statementTooDeep
  /-- A type is not followed by the name it declares. -/
  | nameExpected
  /-- A function has parameters. -/
  | parametersUnsupported
  /-- The body of a function failed. -/
  | badFunctionBody
  /-- The initializer of a variable failed. -/
  | badInitializer
  /-- The semicolon behind a variable declaration is missing. -/
  | variableNotEnded
deriving DecidableEq, Repr

namespace Complaint

/-- The wording. -/
def message : Complaint → String
  | operandExpected => "Expected number, identifier, or parenthesized expression"
  | unclosedParenthesis => "Missing ')' after expression"
  | badRightHandSide => "Invalid right-hand side of assignment"
  | expressionTooDeep => "Expression nested too deeply"
  | unclosedBlock => "Missing '\x7d' after block"
  | conditionNotOpened => "Expected '(' after 'if'"
  | conditionNotClosed => "Expected ')' after if condition"
  | returnNotEnded => "Missing ';' after return value"
  | expressionNotEnded => "Missing ';' after expression"
  | statementTooDeep => "Statement nested too deeply"
  | nameExpected => "Expected identifier in variable or function declaration"
  | parametersUnsupported => "Function parameter lists are not supported"
  | badFunctionBody => "Invalid function body"
  | badInitializer => "Invalid initializer expression"
  | variableNotEnded => "Missing ';' after variable declaration"

/-- Tells the complaints that blame the token before the one where the reader
stands: something should have followed that token and does not. -/
def blamesPrevious : Complaint → Bool
  | returnNotEnded | expressionNotEnded | nameExpected | variableNotEnded => true
  | _ => false

/-- Tells the complaints that no level is left. -/
def isTooDeep : Complaint → Bool
  | expressionTooDeep | statementTooDeep => true
  | _ => false

end Complaint

end MiniC.Grammar
