import MiniC.Grammar.Program
import MiniC.Proofs.Grammar.Parts

/-!
# Routines and their moves

A rule of the grammar is given the kinds that lie ahead and the number of levels that are left.
The same rules are *routines* of somebody who goes over a sentence token by token and counts
the constructs that are open.  The routines are written down as *moves*, a small language of
sequences, tests, loops and calls.

A move may go wrong where a rule cannot: nothing in this language keeps anybody from stepping
back where no token has been taken, or from opening a construct where none begins.
-/

namespace MiniC.Grammar

/-! ## Constructs -/

/-- What takes a level. -/
inductive Construct where
  /-- An expression in parentheses. -/
  | parenthesis
  /-- The right-hand side of an assignment. -/
  | rightHandSide
  /-- A block. -/
  | block
  /-- A conditional. -/
  | conditional
deriving DecidableEq, Repr

/-- The rules of the grammar, by name. -/
inductive Routine where
  /-- The rule for a rank of an expression. -/
  | rank (r : Rank)
  /-- The rule for an expression in parentheses. -/
  | parenthesized
  /-- The rule for a declaration. -/
  | declaration
  /-- The rule for what stands behind the name of a function. -/
  | functionDeclaration
  /-- The rule for what stands behind the name of a variable. -/
  | variableDeclaration
  /-- The rule for a statement. -/
  | statement
  /-- The rule for a block. -/
  | block
  /-- The rule for a conditional. -/
  | conditional
  /-- The rule for what stands behind `return`. -/
  | returned
  /-- The rule for an expression that is a statement. -/
  | simple
deriving DecidableEq, Repr

namespace Construct

/-- The kinds with which a construct begins. -/
def opener : Construct → List Kind
  | parenthesis => [.sign .leftParen]
  | rightHandSide => [.identifier, .sign .assign]
  | block => [.sign .leftBrace]
  | conditional => [.keyword .kwIf]

/-- Those of them that still lie ahead when it is opened.  A right-hand side is opened behind
its `=`. -/
def held : Construct → List Kind
  | rightHandSide => []
  | k => k.opener

/-- The complaint when it is refused. -/
def refusal : Construct → Complaint
  | parenthesis | rightHandSide => .expressionTooDeep
  | block | conditional => .statementTooDeep

/-- The routine that reads it. -/
def body : Construct → Routine
  | parenthesis => .parenthesized
  | rightHandSide => .rank .expression
  | block => .block
  | conditional => .conditional

end Construct

/-! ## Moves -/

/-- What somebody may be told to do. -/
inductive Move where
  /-- Nothing. -/
  | pass
  /-- Go on to the next index, unless the sentence has ended. -/
  | advance
  /-- Go back to the index before. -/
  | stepBack
  /-- Record a complaint and fail. -/
  | fail (c : Complaint)
  /-- Do one or the other, by whether the next token is of one of these kinds. -/
  | ifNext (ks : List Kind) (yes no : Move)
  /-- If the next token is of one of these kinds, take it and do the one, and else the other. -/
  | ifTake (ks : List Kind) (yes no : Move)
  /-- As long as the next token is of one of these kinds, take it and do this. -/
  | whileTake (ks : List Kind) (a : Move)
  /-- As long as there is a next token and it is not of this kind, do this. -/
  | upTo (k : Kind) (a : Move)
  /-- Do one and then the other, unless the first one fails. -/
  | seq (a b : Move)
  /-- Do it, and complain once more if it fails. -/
  | echo (a : Move) (c : Complaint)
  /-- Do what a routine does. -/
  | call (q : Routine)
  /-- Do what the routine of a construct does with one construct more open, or complain if none
  may be. -/
  | nested (k : Construct)
deriving DecidableEq, Repr

/-- Take a token of this kind, or else complain. -/
def Move.expect (k : Kind) (c : Complaint) : Move := .ifTake [k] .pass (.fail c)

open Move in
/-- The moves of a routine.  Whoever calls the routine of a parenthesis, a block or a conditional
has seen the token with which it begins, and the routine takes it.  An identifier is taken on
trial, and handed back if no `=` comes behind it. -/
def Routine.moves : Routine → Move
  | rank .expression =>
    .ifTake [.identifier]
      (.ifTake [.sign .assign] (.echo (.nested .rightHandSide) .badRightHandSide)
        (.seq .stepBack (.call (rank (.level .equality)))))
      (.call (rank (.level .equality)))
  | rank (.level l) =>
    .seq (.call (rank l.inner)) (.whileTake (l.signs.map .sign) (.call (rank l.inner)))
  | rank .unary =>
    .seq (.whileTake (leadingSigns.map .sign) .pass) (.call (rank .operand))
  | rank .operand =>
    .ifTake [.number, .identifier] .pass
      (.ifNext [.sign .leftParen] (.nested .parenthesis) (.fail .operandExpected))
  | parenthesized =>
    .seq .advance
      (.seq (.call (rank .expression)) (expect (.sign .rightParen) .unclosedParenthesis))
  | declaration =>
    .ifTake (typeNames.map .keyword)
      (.seq (expect .identifier .nameExpected)
        (.ifTake [.sign .leftParen] (.call functionDeclaration) (.call variableDeclaration)))
      (.call statement)
  | functionDeclaration =>
    .seq (expect (.sign .rightParen) .parametersUnsupported)
      (.echo (.call statement) .badFunctionBody)
  | variableDeclaration =>
    .seq (.ifTake [.sign .assign] (.echo (.call (rank .expression)) .badInitializer) .pass)
      (expect (.sign .semicolon) .variableNotEnded)
  | statement =>
    .ifNext [.sign .leftBrace] (.nested .block)
      (.ifNext [.keyword .kwIf] (.nested .conditional)
        (.ifTake [.keyword .kwReturn] (.call returned) (.call simple)))
  | block =>
    .seq .advance
      (.seq (.upTo (.sign .rightBrace) (.call declaration))
        (expect (.sign .rightBrace) .unclosedBlock))
  | conditional =>
    .seq .advance
      (.seq
        (.seq (expect (.sign .leftParen) .conditionNotOpened)
          (.seq (.call (rank .expression)) (expect (.sign .rightParen) .conditionNotClosed)))
        (.seq (.call statement) (.ifTake [.keyword .kwElse] (.call statement) .pass)))
  | returned =>
    .seq (.ifNext [.sign .semicolon] .pass (.call (rank .expression)))
      (expect (.sign .semicolon) .returnNotEnded)
  | simple =>
    .seq (.call (rank .expression)) (expect (.sign .semicolon) .expressionNotEnded)

end MiniC.Grammar
