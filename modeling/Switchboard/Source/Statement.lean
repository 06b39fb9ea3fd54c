import Switchboard.Source.Expression

/-! Statements of a block. -/

namespace Switchboard.Source.Statement

open Parse

variable (g : Grammar)

/-- What is ahead after the path of a macro and its mark, if one comes next. -/
def macroCall? (ts : List Token) : Option (List Token) :=
  match Path.plain ⟨ts, []⟩ with
  | some ((), c) => if Ahead.mark "!" c.ahead then some (c.ahead.drop 1) else none
  | none => none

def namesMacro (ts : List Token) : Bool :=
  (macroCall? ts).any fun later => Ahead.ident later || Ahead.key "try" later

/-- Whether a macro call in braces comes next that nothing goes on with. -/
def isCall (ts : List Token) : Bool :=
  (macroCall? ts).any fun later =>
    let next := later.drop 1
    Ahead.group .brace later &&
      !((Ahead.mark "." next && !Ahead.mark ".." next) || Ahead.mark "?" next)

def beginsItem (ts : List Token) : Bool :=
  let next := ts.drop 1
  let later := Ahead.later next
  let nextIs (keys : List String) : Bool := keys.any fun k => Ahead.key k next
  ["pub", "extern", "use", "fn", "mod", "type", "struct", "enum", "trait", "impl", "macro"].any
    (fun k => Ahead.key k ts) ||
    (Ahead.key "crate" ts && !Ahead.mark "::" next) ||
    (Ahead.key "static" ts && (nextIs ["mut"] || Ahead.ident next)) ||
    (Ahead.key "const" ts &&
      !(Ahead.group .brace next || nextIs ["static", "move"] || Ahead.mark "|" next ||
        (nextIs ["async"] && !(["unsafe", "extern", "fn"].any fun k => Ahead.key k later)))) ||
    (Ahead.key "unsafe" ts && !Ahead.group .brace next) ||
    (Ahead.key "async" ts && nextIs ["unsafe", "extern", "fn"]) ||
    (Ahead.key "union" ts && Ahead.ident next) ||
    (Ahead.key "auto" ts && nextIs ["trait"]) ||
    (Ahead.key "default" ts && nextIs ["unsafe", "impl"]) ||
    namesMacro ts

/-- A binding of names to the parts of a value. What is done if it does not match may follow. -/
def binding : Parse Unit := do
  key "let"
  let _ ← g.pattern
  if ← mark? ":" then
    let _ ← g.type
  if ← mark? "=" then
    let value ← g.expr
    if !value.endsInBrace then
      if ← key? "else" then Path.plainBlock g
  mark ";"

/-- An expression as a statement: whether a statement may follow. -/
def expression : Parse Bool := do
  let form ← g.leadingExpr
  let ended ← mark? ";"
  return ended || form.kind == .block || form.kind == .call .brace

/-- One statement: whether another may follow. -/
def one : Parse Bool := do
  Path.outerAttributes g
  if ← sees isCall then
    Path.plain
    mark "!"
    let _ ← anyGroup
    let _ ← mark? ";"
    return true
  else if ← sees (Ahead.key "let") then
    binding g
    return true
  else if ← sees beginsItem then
    let _ ← g.item
    return true
  else expression g

/-- The statements of a block. The last may be an expression that is its value. -/
def statementsRule : Parse Unit := do
  repeated (fun () => do
    if ← atEnd then return ((), false)
    if ← mark? ";" then return ((), true)
    let more ← one g
    if ← atEnd then return ((), false)
    require more
    return ((), true)) ()

end Switchboard.Source.Statement
