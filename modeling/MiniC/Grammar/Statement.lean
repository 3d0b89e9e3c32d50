import MiniC.Grammar.Expression

/-!
# Statements and declarations

```text
statement   ::= block | conditional | return | simple
block       ::= "{" declaration* "}"
conditional ::= "if" "(" expression ")" statement ["else" statement]
return      ::= "return" [expression] ";"
simple      ::= expression ";"
declaration ::= type IDENTIFIER "(" ")" statement
              | type IDENTIFIER ["=" expression] ";"
              | statement
type        ::= "int" | "float" | "char"
```

A block and a conditional take a level each, from the same supply as the
parentheses and right-hand sides inside of them.  The condition and both branches
of a conditional lie inside of it.  A function body takes no level of its own, but
it is a statement, so a type keyword cannot begin it.

An `else` belongs to the nearest conditional that can take it, because every
conditional takes an `else` that comes next.
-/

namespace MiniC.Grammar

/-! ## The rules, given those for their parts -/

/-- The semicolon that ends a construct, or else the complaint `c`. -/
def ended (c : Complaint) : Rule := .exactly (.sign .semicolon) c

/-- What stands behind the name of a variable. -/
def variableTail (expression : Rule) : Rule :=
  .ifNext (· == .sign .assign)
    ((expression.echo .badInitializer).seq (ended .variableNotEnded))
    (ended .variableNotEnded)

/-- What stands behind the name of a function and an opening parenthesis. -/
def functionTail (statement : Rule) : Rule :=
  (Rule.exactly (.sign .rightParen) .parametersUnsupported).seq
    (statement.echo .badFunctionBody)

/-- What stands behind a type. -/
def typeTail (expression statement : Rule) : Rule :=
  (Rule.exactly .identifier .nameExpected).seq
    (.ifNext (· == .sign .leftParen) (functionTail statement) (variableTail expression))

/-- A declaration of a variable or a function, or a statement. -/
def declarationOf (expression statement : Rule) : Rule :=
  .ifNext Kind.isType (typeTail expression statement) statement

/-- What stands behind the opening brace of a block. -/
def blockTail (declaration : Rule) : Rule :=
  .items (· == .sign .rightBrace) .unclosedBlock declaration

/-- What stands behind `if`. -/
def conditionalTail (expression statement : Rule) : Rule :=
  ((Rule.exactly (.sign .leftParen) .conditionNotOpened).seq
    (expression.seq (.exactly (.sign .rightParen) .conditionNotClosed))).seq
    (statement.andIfNext (· == .keyword .kwElse) statement)

/-- What stands behind `return`. -/
def returnTail (expression : Rule) : Rule :=
  .ifAhead (· == .sign .semicolon) (ended .returnNotEnded)
    (expression.seq (ended .returnNotEnded))

/-- An expression that is a statement. -/
def simple (expression : Rule) : Rule := expression.seq (ended .expressionNotEnded)

/-- A statement, from the rule for its expressions and the rules that follow an
opening brace and an `if`, which are `none` when no level is left. -/
def statementOf (expression : Rule) (inBlock inConditional : Option Rule) : Rule :=
  .opening (.sign .leftBrace) .statementTooDeep inBlock <|
    .opening (.keyword .kwIf) .statementTooDeep inConditional <|
      .ifNext (· == .keyword .kwReturn) (returnTail expression) (simple expression)

/-! ## The rules with their levels -/

/-- A statement that opens at most `room` levels. -/
def statement : Nat → Rule
  | 0 => statementOf (expression 0) none none
  | room + 1 =>
    statementOf (expression (room + 1))
      (some (blockTail (declarationOf (expression room) (statement room))))
      (some (conditionalTail (expression room) (statement room)))

/-- A declaration that opens at most `room` levels. -/
def declaration (room : Nat) : Rule := declarationOf (expression room) (statement room)

theorem statement_zero : statement 0 = statementOf (expression 0) none none := rfl

theorem statement_succ (room : Nat) :
    statement (room + 1) =
      statementOf (expression (room + 1)) (some (blockTail (declaration room)))
        (some (conditionalTail (expression room) (statement room))) := rfl

end MiniC.Grammar
