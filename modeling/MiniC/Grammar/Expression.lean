import MiniC.Grammar.Rule

/-!
# Expressions

```text
expression ::= IDENTIFIER "=" expression | equality
equality   ::= comparison (("==" | "!=") comparison)*
comparison ::= term (("<" | "<=" | ">" | ">=") term)*
term       ::= factor (("+" | "-") factor)*
factor     ::= unary (("*" | "/") unary)*
unary      ::= ("!" | "-")* operand
operand    ::= NUMBER | IDENTIFIER | "(" expression ")"
```

Two places of this grammar hold an expression inside an expression: between
parentheses and behind `=`.  Each of them takes one *level*, and levels are
limited.  The rules below are given the rule `inner` for the expression one level
down, or `none` when no level is left.  `expression room` is the rule with `room`
levels left, by recursion on their number.
-/

namespace MiniC.Grammar

/-! ## Operators -/

/-- The operators between comparisons. -/
def joinsComparisons : Kind → Bool
  | .sign .equal | .sign .notEqual => true
  | _ => false

/-- The operators between terms. -/
def joinsTerms : Kind → Bool
  | .sign .less | .sign .lessEqual | .sign .greater | .sign .greaterEqual => true
  | _ => false

/-- The operators between factors. -/
def joinsFactors : Kind → Bool
  | .sign .plus | .sign .minus => true
  | _ => false

/-- The operators between operands with their signs. -/
def joinsUnaries : Kind → Bool
  | .sign .times | .sign .divide => true
  | _ => false

/-- The operators before an operand. -/
def leadsUnary : Kind → Bool
  | .sign .bang | .sign .minus => true
  | _ => false

/-- The operands of one token. -/
def isOperand : Kind → Bool
  | .number | .identifier => true
  | _ => false

/-! ## Levels -/

/-- The rule one level down, or the complaint `c` when no level is left. -/
def Rule.nested (c : Complaint) : Option Rule → Rule
  | some inner => inner
  | none => .refuse c

/-- A construct that begins with the kind `k` and takes a level: behind `k` the rule
one level down, or at `k` the complaint `c` when no level is left.  If another kind
comes next, the rule `other`. -/
def Rule.opening (k : Kind) (c : Complaint) (inner : Option Rule) (other : Rule) : Rule :=
  match inner with
  | some inner => .ifNext (· == k) inner other
  | none => .ifAhead (· == k) (.refuse c) other

/-! ## The rules -/

/-- What stands behind an opening parenthesis. -/
def parenthesisTail (inner : Rule) : Rule :=
  inner.seq (.exactly (.sign .rightParen) .unclosedParenthesis)

/-- A number, an identifier or an expression in parentheses. -/
def operand (inner : Option Rule) : Rule :=
  .opening (.sign .leftParen) .expressionTooDeep (inner.map parenthesisTail)
    (.one isOperand .operandExpected)

/-- An operand behind any number of signs. -/
def unary (inner : Option Rule) : Rule := .skipping leadsUnary (operand inner)

/-- A product of signed operands. -/
def factor (inner : Option Rule) : Rule := .chain joinsUnaries (unary inner)

/-- A sum of products. -/
def term (inner : Option Rule) : Rule := .chain joinsFactors (factor inner)

/-- A comparison by size. -/
def comparison (inner : Option Rule) : Rule := .chain joinsTerms (term inner)

/-- A comparison for equality. -/
def equality (inner : Option Rule) : Rule := .chain joinsComparisons (comparison inner)

/-- What stands behind an identifier and `=`. -/
def rightHandSide (inner : Option Rule) : Rule :=
  (Rule.nested .expressionTooDeep inner).echo .badRightHandSide

/-- An assignment, or else an expression without one at its front. -/
def assignment (inner : Option Rule) : Rule :=
  .ifNextTwo .identifier (.sign .assign) (rightHandSide inner) (equality inner)

/-- An expression that opens at most `room` levels. -/
def expression : Nat → Rule
  | 0 => assignment none
  | room + 1 => assignment (some (expression room))

end MiniC.Grammar
