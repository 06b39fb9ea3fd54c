import Switchboard.Source.Declaration
import Switchboard.Source.Lexer

/-! Whole texts read by the grammar: files, paths and identifiers. -/

namespace Switchboard.Source

mutual
/-- The number of token trees at all depths. -/
def Token.size : Token → Nat
  | .group _ body => Token.sizeAll body + 1
  | _ => 1

/-- The number of token trees at all depths of a sequence. -/
def Token.sizeAll : List Token → Nat
  | [] => 0
  | t :: ts => t.size + Token.sizeAll ts
end

namespace Grammar

/-- Every rule, over rules that are nested less deeply. The count bounds the nesting. -/
def upTo : Nat → Grammar
  | 0 => fun _ => failure
  | depth + 1 =>
    let g := upTo depth
    fun
    | .type plus => Types.typeRule g plus
    | .bound capture constant => Types.boundRule g capture constant
    | .expr structs => Expression.exprRule g structs
    | .leadingExpr => Expression.leadingRule g
    | .operand structs => Expression.operandRule g structs
    | .operators lhs structs base => Expression.operatorsRule g lhs structs base
    | .pattern => Pattern.patternRule g
    | .statements => Statement.statementsRule g
    | .importTree root => Declaration.importTreeRule g root
    | .fields => Declaration.fieldsRule g
    | .item => Declaration.itemRule g

end Grammar

/-- The value of a rule on all of a sequence and what the rule printed. No token is at a deeper
nesting of rules than the size of the sequence allows. -/
def recognise (p : Grammar → Parse α) (ts : List Token) : Option (α × List Token) :=
  Parse.whole (p (.upTo (8 * Token.sizeAll ts + 8))) ts

/-- The word that all of a text is. -/
def wordOf? (text : String) : Option Word :=
  match scan text with
  | some [.word w] => some w
  | _ => none

/-- The identifier that a text is: one name that is no keyword. -/
def identifier? (text : String) : Option Word :=
  (wordOf? text).filter fun w => !w.isKeyword

/-- The name that a text may have as a field: an identifier, or a keyword made raw. -/
def field? (text : String) : Option Word :=
  identifier? text <|> identifier? ("r#" ++ text)

/-- The tokens of the path that a text is, in their standard form. -/
def path? (text : String) : Option (List Token) := do
  let ts ← scan text
  let (_, printed) ← recognise (fun g => Path.unqualified g false) ts
  return printed

/-- A file without the line at its beginning that names an interpreter. -/
def dropInterpreter (cs : List Char) : List Char :=
  match cs with
  | '#' :: '!' :: rest =>
    if (Lexer.skipGaps rest.length rest).head? == some '[' then cs else cs.dropWhile (· != '\n')
  | _ => cs

def items? (text : String) : Option (List Item) := do
  let cs := dropInterpreter (Lexer.dropOrderMark text.toList)
  let ts ← Lexer.scanChars (Lexer.dropOrderMark cs)
  let (found, _) ← recognise (fun g => do
    Path.innerAttributes g
    Parse.untilEnd do
      Path.outerAttributes g
      g.item) ts
  return found

end Switchboard.Source
