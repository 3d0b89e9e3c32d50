import MiniC.Kind

/-!
# Derivation trees

The grammar of the subset, as the trees of its derivations.  A tree has one
constructor for each alternative of a production, and `yield` reads off the kinds
that it derives.  The trees know nothing of the rules that read a program: neither
how far a rule looks ahead nor how many levels it may open.

```text
declarations ::= declaration*
declaration  ::= type IDENTIFIER "(" ")" statement
               | type IDENTIFIER ["=" expression] ";"
               | statement
statement    ::= "{" declarations "}"
               | "if" "(" expression ")" statement ["else" statement]
               | "return" [expression] ";"
               | expression ";"
expression   ::= IDENTIFIER "=" expression | equality
equality     ::= comparison (("==" | "!=") comparison)*
comparison   ::= term (("<" | "<=" | ">" | ">=") term)*
term         ::= factor (("+" | "-") factor)*
factor       ::= unary (("*" | "/") unary)*
unary        ::= ("!" | "-") unary | operand
operand      ::= NUMBER | IDENTIFIER | "(" expression ")"
```

The repetitions of the four operator levels lean to the left, that of declarations
to the right.

The grammar is ambiguous, and it derives programs that are nested too deeply.  Two
properties of a tree single out those that count:

* `depth` is the largest number of constructs that are open at once along a path.
* `NearestElse` says that every `else` belongs to the nearest conditional that is
  open.  A conditional without an `else` must then not be followed by one.
-/

namespace MiniC.Grammar

/-! ## The parts of an expression -/

/-- The four levels of operators between operands, the loosest first. -/
inductive Level where
  /-- Comparisons for equality. -/
  | equality
  /-- Comparisons by size. -/
  | comparison
  /-- Sums. -/
  | term
  /-- Products. -/
  | factor
deriving DecidableEq, Repr

/-- What a tree of an expression may stand for. -/
inductive Rank where
  /-- An expression. -/
  | expression
  /-- An expression of one of the operator levels. -/
  | level (l : Level)
  /-- An operand with its signs. -/
  | unary
  /-- An operand. -/
  | operand
deriving DecidableEq, Repr

namespace Level

/-- The operators of a level. -/
def signs : Level → List Sign
  | equality => [.equal, .notEqual]
  | comparison => [.less, .lessEqual, .greater, .greaterEqual]
  | term => [.plus, .minus]
  | factor => [.times, .divide]

/-- What stands between the operators of a level. -/
def inner : Level → Rank
  | equality => .level comparison
  | comparison => .level term
  | term => .level factor
  | factor => .unary

end Level

/-- The operators before an operand. -/
def leadingSigns : List Sign := [.bang, .minus]

/-- The keywords that name a type. -/
def typeNames : List Keyword := [.kwInt, .kwFloat, .kwChar]

/-! ## The trees -/

/-- The trees of expressions. -/
inductive ExpressionTree : Rank → Type where
  /-- An identifier, `=` and the right-hand side. -/
  | assigned (right : ExpressionTree .expression) : ExpressionTree .expression
  /-- An expression that is no assignment. -/
  | plain (t : ExpressionTree (.level .equality)) : ExpressionTree .expression
  /-- A level at which there is no operator. -/
  | single {l : Level} (t : ExpressionTree l.inner) : ExpressionTree (.level l)
  /-- An operator of a level, with what stands on both sides of it. -/
  | joined {l : Level} (left : ExpressionTree (.level l)) (s : Sign) (hs : s ∈ l.signs)
      (right : ExpressionTree l.inner) : ExpressionTree (.level l)
  /-- A sign before an operand. -/
  | signed (s : Sign) (hs : s ∈ leadingSigns) (t : ExpressionTree .unary) : ExpressionTree .unary
  /-- An operand without a sign. -/
  | unsigned (t : ExpressionTree .operand) : ExpressionTree .unary
  /-- A number. -/
  | number : ExpressionTree .operand
  /-- An identifier. -/
  | identifier : ExpressionTree .operand
  /-- An expression in parentheses. -/
  | parenthesized (t : ExpressionTree .expression) : ExpressionTree .operand

/-- A number as an expression. -/
def plainNumber : ExpressionTree .expression :=
  .plain (.single (.single (.single (.single (.unsigned .number)))))

/-- What a tree of a statement may stand for. -/
inductive Form where
  /-- A row of declarations. -/
  | declarations
  /-- A declaration. -/
  | declaration
  /-- A statement. -/
  | statement
deriving DecidableEq, Repr

/-- The trees of statements and declarations. -/
inductive StatementTree : Form → Type where
  /-- No declaration. -/
  | nil : StatementTree .declarations
  /-- A declaration and those behind it. -/
  | cons (d : StatementTree .declaration) (ds : StatementTree .declarations) :
      StatementTree .declarations
  /-- A function without parameters. -/
  | function (k : Keyword) (hk : k ∈ typeNames) (body : StatementTree .statement) :
      StatementTree .declaration
  /-- A variable without an initializer. -/
  | uninitialized (k : Keyword) (hk : k ∈ typeNames) : StatementTree .declaration
  /-- A variable with its initializer. -/
  | initialized (k : Keyword) (hk : k ∈ typeNames) (value : ExpressionTree .expression) :
      StatementTree .declaration
  /-- A statement as a declaration. -/
  | stated (s : StatementTree .statement) : StatementTree .declaration
  /-- A block. -/
  | block (ds : StatementTree .declarations) : StatementTree .statement
  /-- A conditional without an `else`. -/
  | ifOnly (condition : ExpressionTree .expression) (yes : StatementTree .statement) :
      StatementTree .statement
  /-- A conditional with an `else`. -/
  | ifElse (condition : ExpressionTree .expression) (yes no : StatementTree .statement) :
      StatementTree .statement
  /-- A `return` of nothing. -/
  | returnNothing : StatementTree .statement
  /-- A `return` of a value. -/
  | returnValue (value : ExpressionTree .expression) : StatementTree .statement
  /-- An expression as a statement. -/
  | simple (t : ExpressionTree .expression) : StatementTree .statement

/-! ## What a tree derives -/

/-- The kinds that an expression derives. -/
def ExpressionTree.yield : {r : Rank} → ExpressionTree r → List Kind
  | _, assigned right => .identifier :: .sign .assign :: right.yield
  | _, plain t => t.yield
  | _, single t => t.yield
  | _, joined left s _ right => left.yield ++ .sign s :: right.yield
  | _, signed s _ t => .sign s :: t.yield
  | _, unsigned t => t.yield
  | _, number => [.number]
  | _, identifier => [.identifier]
  | _, parenthesized t => .sign .leftParen :: (t.yield ++ [.sign .rightParen])

/-- The kinds from `if` to the parenthesis behind the condition. -/
def conditionYield (condition : ExpressionTree .expression) : List Kind :=
  .keyword .kwIf :: .sign .leftParen :: (condition.yield ++ [.sign .rightParen])

/-- The kinds that a statement or a declaration derives. -/
def StatementTree.yield : {f : Form} → StatementTree f → List Kind
  | _, nil => []
  | _, cons d ds => d.yield ++ ds.yield
  | _, function k _ body =>
    .keyword k :: .identifier :: .sign .leftParen :: .sign .rightParen :: body.yield
  | _, uninitialized k _ => [.keyword k, .identifier, .sign .semicolon]
  | _, initialized k _ value =>
    .keyword k :: .identifier :: .sign .assign :: (value.yield ++ [.sign .semicolon])
  | _, stated s => s.yield
  | _, block ds => .sign .leftBrace :: (ds.yield ++ [.sign .rightBrace])
  | _, ifOnly condition yes => conditionYield condition ++ yes.yield
  | _, ifElse condition yes no =>
    conditionYield condition ++ (yes.yield ++ .keyword .kwElse :: no.yield)
  | _, returnNothing => [.keyword .kwReturn, .sign .semicolon]
  | _, returnValue value => .keyword .kwReturn :: (value.yield ++ [.sign .semicolon])
  | _, simple t => t.yield ++ [.sign .semicolon]

/-! ## How deep a tree is -/

/-- How many parentheses and right-hand sides are open at once in an expression. -/
def ExpressionTree.depth : {r : Rank} → ExpressionTree r → Nat
  | _, assigned right => right.depth + 1
  | _, plain t => t.depth
  | _, single t => t.depth
  | _, joined left _ _ right => max left.depth right.depth
  | _, signed _ _ t => t.depth
  | _, unsigned t => t.depth
  | _, number => 0
  | _, identifier => 0
  | _, parenthesized t => t.depth + 1

/-- How many parentheses, right-hand sides, blocks and conditionals are open at
once.  The condition and the branches of a conditional lie inside of it, and the
body of a function opens nothing by itself. -/
def StatementTree.depth : {f : Form} → StatementTree f → Nat
  | _, nil => 0
  | _, cons d ds => max d.depth ds.depth
  | _, function _ _ body => body.depth
  | _, uninitialized _ _ => 0
  | _, initialized _ _ value => value.depth
  | _, stated s => s.depth
  | _, block ds => ds.depth + 1
  | _, ifOnly condition yes => max condition.depth yes.depth + 1
  | _, ifElse condition yes no => max condition.depth (max yes.depth no.depth) + 1
  | _, returnNothing => 0
  | _, returnValue value => value.depth
  | _, simple t => t.depth

/-! ## Where an `else` belongs -/

/-- No conditional without an `else` is followed by one, if the tree is followed by
the kinds `after`. -/
def StatementTree.NearestElse : {f : Form} → StatementTree f → List Kind → Prop
  | _, nil, _ => True
  | _, cons d ds, after => d.NearestElse (ds.yield ++ after) ∧ ds.NearestElse after
  | _, function _ _ body, after => body.NearestElse after
  | _, uninitialized _ _, _ => True
  | _, initialized _ _ _, _ => True
  | _, stated s, after => s.NearestElse after
  | _, block ds, after => ds.NearestElse (.sign .rightBrace :: after)
  | _, ifOnly _ yes, after => yes.NearestElse after ∧ after.head? ≠ some (.keyword .kwElse)
  | _, ifElse _ yes no, after =>
    yes.NearestElse (.keyword .kwElse :: (no.yield ++ after)) ∧ no.NearestElse after
  | _, returnNothing, _ => True
  | _, returnValue _, _ => True
  | _, simple _, _ => True

/-- Whether every `else` belongs to the nearest conditional can be told from the tree. -/
instance StatementTree.decidableNearestElse : {f : Form} → (t : StatementTree f) →
    (after : List Kind) → Decidable (t.NearestElse after)
  | _, nil, _ => .isTrue trivial
  | _, cons d ds, after =>
    @instDecidableAnd _ _ (d.decidableNearestElse (ds.yield ++ after))
      (ds.decidableNearestElse after)
  | _, function _ _ body, after => body.decidableNearestElse after
  | _, uninitialized _ _, _ => .isTrue trivial
  | _, initialized _ _ _, _ => .isTrue trivial
  | _, stated s, after => s.decidableNearestElse after
  | _, block ds, after => ds.decidableNearestElse (.sign .rightBrace :: after)
  | _, ifOnly _ yes, after =>
    @instDecidableAnd _ _ (yes.decidableNearestElse after)
      (inferInstanceAs (Decidable (after.head? ≠ some (.keyword .kwElse))))
  | _, ifElse _ yes no, after =>
    @instDecidableAnd _ _ (yes.decidableNearestElse (.keyword .kwElse :: (no.yield ++ after)))
      (no.decidableNearestElse after)
  | _, returnNothing, _ => .isTrue trivial
  | _, returnValue _, _ => .isTrue trivial
  | _, simple _, _ => .isTrue trivial

section Tests

/-- `if (1) if (1) 1; else 1;` with the `else` at the second conditional. -/
def elseInside : StatementTree .statement :=
  .ifOnly plainNumber (.ifElse plainNumber (.simple plainNumber) (.simple plainNumber))

/-- The same kinds with the `else` at the first conditional. -/
def elseOutside : StatementTree .statement :=
  .ifElse plainNumber (.ifOnly plainNumber (.simple plainNumber)) (.simple plainNumber)

example : elseInside.yield = elseOutside.yield := rfl
example : elseInside.NearestElse [] ∧ ¬ elseOutside.NearestElse [] := by decide
example : elseInside.depth = 2 := rfl

end Tests

/-! ## What can be derived

The kinds that a tree within `room` levels derives before `rest` are *whole*.  Those
with which the yield of some tree begins are *begun*, however deep that tree is and
wherever its `else` belong. -/

/-- An expression of this rank derives the kinds `read` and opens at most `room`
levels.  What comes behind does not matter. -/
def Rank.Whole (r : Rank) (room : Nat) (read _rest : List Kind) : Prop :=
  ∃ t : ExpressionTree r, t.yield = read ∧ t.depth ≤ room

/-- Some expression of this rank begins with the kinds `read`. -/
def Rank.Begun (r : Rank) (read : List Kind) : Prop := ∃ t : ExpressionTree r, read <+: t.yield

/-- A tree of this form derives the kinds `read`, opens at most `room` levels and
leaves no `else` of `rest` behind a conditional that could take it. -/
def Form.Whole (f : Form) (room : Nat) (read rest : List Kind) : Prop :=
  ∃ t : StatementTree f, t.yield = read ∧ t.depth ≤ room ∧ t.NearestElse rest

/-- Some tree of this form begins with the kinds `read`. -/
def Form.Begun (f : Form) (read : List Kind) : Prop := ∃ t : StatementTree f, read <+: t.yield

end MiniC.Grammar
