import Switchboard.Source.Parse

/-! The rules of the source grammar that call one another, and what each tells its caller. A rule is
written over all others, so that each part of the grammar is a module of its own. -/

namespace Switchboard.Source

/-- What a type looks like from outside. -/
inductive TypeForm
  /-- A single name, perhaps with arguments in angle brackets. -/
  | name
  /-- Any other path that is not qualified by a type. -/
  | path
  /-- One bound in place of a type. -/
  | bound
  /-- A type in parentheses. -/
  | paren
  | other
deriving DecidableEq, Repr

/-- What an expression looks like from outside. -/
inductive ExprKind
  | range
  | comparison
  /-- An expression that is a statement without a semicolon. -/
  | block
  | call (d : Delimiter)
  | other
deriving DecidableEq, Repr

/-- An expression from outside: its kind and whether its last token is a brace that it owns. -/
structure ExprForm where
  kind : ExprKind
  endsInBrace : Bool
deriving DecidableEq, Repr

/-- How tightly an operator binds, the loosest first. -/
inductive Level
  | jump | assign | range | disjunction | conjunction | binding | compare | bitOr | bitXor | bitAnd
  | shift | sum | product | cast
deriving DecidableEq, Repr

def Level.rank : Level → Nat
  | .jump => 0 | .assign => 1 | .range => 2 | .disjunction => 3 | .conjunction => 4 | .binding => 5
  | .compare => 6 | .bitOr => 7 | .bitXor => 8 | .bitAnd => 9 | .shift => 10 | .sum => 11
  | .product => 12 | .cast => 13

/-- What a definition introduces, as far as its constructor goes. -/
inductive Definition
  | named (fields : List Word)
  /-- A struct with this many unnamed fields. -/
  | tuple (arity : Nat)
  | unit
  | genericStruct
  | enumeration
  | union
deriving DecidableEq, Repr

/-- An item of a source file: a definition, a module with its items, or anything else. -/
inductive Item
  | defines (name : Word) (d : Definition)
  | module (name : Word) (items : List Item)
  | other
deriving Repr, BEq

/-- The rules that call one another. -/
inductive Rule
  /-- A type, or bounds joined by `+` in place of one. -/
  | type (plus : Bool)
  /-- A bound of a type. Captures and constant bounds are read only where they are allowed. -/
  | bound (capture constant : Bool)
  /-- An expression. Braces after a path belong to it only where struct literals are allowed. -/
  | expr (structs : Bool)
  /-- An expression that begins a statement or is the body of an arm: a block ends it. -/
  | leadingExpr
  | operand (structs : Bool)
  /-- The operators after an operand that bind at least as tightly as a level. -/
  | operators (lhs : ExprForm) (structs : Bool) (base : Level)
  /-- A pattern without alternatives: whether it is a range without one of its ends. -/
  | pattern
  | statements
  | importTree (root : Bool)
  | fields
  | item

/-- What a rule tells its caller. -/
def Rule.Form : Rule → Type
  | .type _ => TypeForm
  | .bound .. | .pattern => Bool
  | .expr _ | .leadingExpr | .operand _ | .operators .. => ExprForm
  | .statements | .importTree _ => Unit
  | .fields => List Word
  | .item => Item

/-- A way to read by every rule. -/
abbrev Grammar := (r : Rule) → Parse r.Form

namespace Grammar

variable (g : Grammar)

def type : Parse TypeForm := g (.type true)

/-- A type where `+` does not go on with it. -/
def typeNoPlus : Parse TypeForm := g (.type false)

def bound (capture constant : Bool) : Parse Bool := g (.bound capture constant)

def expr : Parse ExprForm := g (.expr true)

/-- An expression before a block, which struct literals would swallow. -/
def exprBeforeBlock : Parse ExprForm := g (.expr false)

def exprWith (structs : Bool) : Parse ExprForm := g (.expr structs)

def leadingExpr : Parse ExprForm := g .leadingExpr

def operand (structs : Bool) : Parse ExprForm := g (.operand structs)

def operators (lhs : ExprForm) (structs : Bool) (base : Level) : Parse ExprForm :=
  g (.operators lhs structs base)

/-- A pattern without alternatives: whether it is a range without one of its ends. -/
def pattern : Parse Bool := g .pattern

def statements : Parse Unit := g .statements

def importTree (root : Bool) : Parse Unit := g (.importTree root)

def fields : Parse (List Word) := g .fields

def item : Parse Item := g .item

end Grammar

end Switchboard.Source
