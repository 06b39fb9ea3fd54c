import Switchboard.Text.Quoted

/-! Token trees of source text and their printed form: one space between two tokens, except after a
mark that is joint to the next one. -/

namespace Switchboard.Source

/-- Whether a mark is written against the one after it. -/
inductive Spacing
  | alone | joint
deriving DecidableEq, Repr, Inhabited

inductive Delimiter
  | paren | bracket | brace
deriving DecidableEq, Repr, Inhabited

/-- A name. A raw one is written with `r#` in front, which keeps it from being a keyword. -/
structure Word where
  raw : Bool
  text : String
deriving DecidableEq, Repr, Inhabited

/-- A token tree. A literal keeps the text that it was written with. -/
inductive Token
  | word (w : Word)
  | mark (c : Char) (s : Spacing)
  | literal (text : String)
  | group (d : Delimiter) (body : List Token)
deriving Repr, Inhabited

namespace Word

/-- A name that is not raw. -/
def plain (text : String) : Word := ⟨false, text⟩

/-- The name as it is written. -/
def written (w : Word) : String :=
  if w.raw then "r#" ++ w.text else w.text

/-- Words that stand for themselves only, the reserved ones included. -/
def keywords : List String :=
  ["_", "abstract", "as", "async", "await", "become", "box", "break", "const", "continue", "crate",
   "do", "dyn", "else", "enum", "extern", "false", "final", "fn", "for", "if", "impl", "in", "let",
   "loop", "macro", "match", "mod", "move", "mut", "override", "priv", "pub", "ref", "return",
   "Self", "self", "static", "struct", "super", "trait", "true", "try", "type", "typeof", "unsafe",
   "unsized", "use", "virtual", "where", "while", "yield"]

def isKeyword (w : Word) : Bool :=
  !w.raw && keywords.contains w.text

/-- Words that cannot be made raw. -/
def neverRaw : List String := ["_", "super", "self", "Self", "crate"]

/-- Whether the name is this keyword. -/
def is (w : Word) (text : String) : Bool :=
  !w.raw && w.text == text

end Word

namespace Token

mutual
/-- Whether two token trees are the same. -/
def same : Token → Token → Bool
  | .word v, .word w => v == w
  | .mark c s, .mark d r => c == d && s == r
  | .literal a, .literal b => a == b
  | .group d s, .group e t => d == e && sameAll s t
  | _, _ => false

/-- Whether two sequences of token trees are the same. -/
def sameAll : List Token → List Token → Bool
  | [], [] => true
  | t :: s, u :: r => same t u && sameAll s r
  | _, _ => false
end

mutual
theorem same_iff : (t u : Token) → same t u = true ↔ t = u
  | .word _, u => by cases u <;> simp [same]
  | .mark _ _, u => by cases u <;> simp [same]
  | .literal _, u => by cases u <;> simp [same]
  | .group _ s, u => by cases u <;> simp [same, sameAll_iff s]

theorem sameAll_iff : (s t : List Token) → sameAll s t = true ↔ s = t
  | [], t => by cases t <;> simp [sameAll]
  | u :: s, t => by cases t <;> simp [sameAll, same_iff u, sameAll_iff s]
end

instance : DecidableEq Token := fun t u => decidable_of_iff _ (same_iff t u)

/-- The opening of a group as it is printed. -/
def opening : Delimiter → String
  | .paren => "("
  | .bracket => "["
  | .brace => "\x7b "

/-- The closing of a group as it is printed. A space stands before the brace that closes a body. -/
def closing : Delimiter → Bool → String
  | .paren, _ => ")"
  | .bracket, _ => "]"
  | .brace, true => "\x7d"
  | .brace, false => " \x7d"

/-- Whether the next token is written against this one. -/
def isJoint : Token → Bool
  | .mark _ .joint => true
  | _ => false

mutual
/-- The printed form of one token tree. -/
def print : Token → String
  | .word w => w.written
  | .mark c _ => String.singleton c
  | .literal text => text
  | .group d body => opening d ++ printAll body ++ closing d body.isEmpty

/-- The printed form of a sequence of token trees. -/
def printAll : List Token → String
  | [] => ""
  | [t] => t.print
  | t :: u :: rest => t.print ++ (if t.isJoint then "" else " ") ++ printAll (u :: rest)
end

def string (s : String) : Token :=
  .literal (Text.Quoted.source s)

/-- Marks written as one: each is joint to the next and the last stands alone. -/
def marks : List Char → List Token
  | [] => []
  | [c] => [.mark c .alone]
  | c :: rest => .mark c .joint :: marks rest

end Token

end Switchboard.Source
