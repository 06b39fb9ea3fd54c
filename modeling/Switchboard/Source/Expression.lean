import Switchboard.Source.Pattern
import Switchboard.Source.Types

/-! Expressions. Operators are read by how tightly they bind; what an expression looks like from
outside decides where a statement or the arm of a match may end. -/

namespace Switchboard.Source.Expression

open Parse

variable (g : Grammar)

/-- An expression of no kind of its own. -/
def other : ExprForm := ⟨.other, false⟩

/-- An expression that ends in a brace but is no statement by itself. -/
def braced : ExprForm := ⟨.other, true⟩

def block : ExprForm := ⟨.block, true⟩

/-- The operators between two operands, the longer before those that begin them. -/
def binaryOperators : List (String × Level) :=
  [("+=", .assign), ("-=", .assign), ("*=", .assign), ("/=", .assign), ("%=", .assign),
   ("^=", .assign), ("&=", .assign), ("|=", .assign), ("<<=", .assign), (">>=", .assign),
   ("&&", .conjunction), ("||", .disjunction), ("<<", .shift), (">>", .shift), ("==", .compare),
   ("<=", .compare), ("!=", .compare), (">=", .compare), ("+", .sum), ("-", .sum),
   ("*", .product), ("/", .product), ("%", .product), ("^", .bitXor), ("&", .bitAnd),
   ("|", .bitOr), ("<", .compare), (">", .compare)]

def binary? (ts : List Token) : Option (String × Level) :=
  binaryOperators.find? fun (op, _) => Ahead.mark op ts

def assigns (ts : List Token) : Bool :=
  Ahead.mark "=" ts && !Ahead.mark "=>" ts

/-- How tightly what comes next binds. -/
def nextLevel (ts : List Token) : Level :=
  match binary? ts with
  | some (_, level) => level
  | none =>
    if assigns ts then .assign
    else if Ahead.mark ".." ts then .range
    else if Ahead.key "as" ts then .cast
    else .jump

/-- What stands to the right of an operator. -/
def rightOperand (structs : Bool) (level : Level) : Parse ExprForm := do
  let rhs ← g.operand structs
  repeated (fun rhs => do
    let before ← ahead
    let next := nextLevel before
    if level.rank < next.rank || (next == level && level == .assign) then
      let rhs ← g.operators rhs structs next
      return (rhs, (← ahead).length != before.length)
    else return (rhs, false)) rhs

/-- Whether a range ends here without an upper end. -/
def endsRange (structs : Bool) (ts : List Token) : Bool :=
  ts.isEmpty || (Ahead.mark "." ts && !Ahead.mark ".." ts) || (!structs && Ahead.group .brace ts) ||
    Ahead.key "as" ts ||
    [",", ";", "?", "=>", "=", "+", "/", "%", "^", ">", "<=", "!=", "-=", "*=", "&=", "|=",
      "<<="].any fun m => Ahead.mark m ts

/-- The dots of a range and what follows them. -/
def range (structs : Bool) : Parse ExprForm := do
  let closed ← Pattern.dots false
  if !closed && (← sees (endsRange structs)) then return ⟨.range, false⟩
  else
    let stop ← rightOperand g structs .range
    return ⟨.range, stop.endsInBrace⟩

/-- Whether what follows would change a cast that has just been read. -/
def changesCast (ts : List Token) : Bool :=
  (Ahead.mark "." ts && !Ahead.mark ".." ts) || Ahead.mark "?" ts || Ahead.group .bracket ts ||
    Ahead.group .paren ts

def operatorsRule (lhs : ExprForm) (structs : Bool) (base : Level) : Parse ExprForm :=
  repeated (fun lhs => do
    if lhs.kind == .range then return (lhs, false)
    match binary? (← ahead) with
    | some (op, level) =>
      if level.rank < base.rank then return (lhs, false)
      require !(level == .compare && lhs.kind == .comparison)
      mark op
      let rhs ← rightOperand g structs level
      return (⟨if level == .compare then .comparison else .other, rhs.endsInBrace⟩, true)
    | none =>
      if base.rank ≤ Level.assign.rank && (← sees assigns) then
        mark "="
        let rhs ← rightOperand g structs .assign
        return (⟨.other, rhs.endsInBrace⟩, true)
      else if base.rank ≤ Level.range.rank && (← sees (Ahead.mark "..")) then
        return (← range g structs, true)
      else if ← key? "as" then
        let _ ← g.typeNoPlus
        require !(← sees changesCast)
        return (other, true)
      else return (lhs, false)) lhs

def arguments : Parse Unit := do
  let _ ← group .paren (commaList g.expr)

/-- The pieces of a number that are places in nested tuples. -/
def places (text : String) : List (List Char) :=
  text.toList.splitOn '.'

/-- A number with a point that stands for places in nested tuples: whether another place must
follow. -/
def nestedPlaces : Parse (Option Bool) := do
  match ← ahead with
  | .literal text :: _ =>
    if Ahead.isNumber text && text.toList.contains '.' then
      let pieces := places text
      let isOpen := pieces.getLast?.any List.isEmpty
      let pieces := if isOpen then pieces.dropLast else pieces
      require (pieces.all Ahead.isPlace)
      let _ ← captured one
      let dot : List Token := [.mark '.' .alone]
      write (dot.intercalate (pieces.map fun p => [.literal (String.ofList p)]))
      if isOpen then write dot
      return some isOpen
    else return none
  | _ => return none

/-- A field, a method call or a suspension after a point. -/
def member : Parse Unit := do
  mark "."
  if (← nestedPlaces) != some false then
    if !(← key? "await") then
      let isNamed ← Path.member
      if isNamed then
        let turbofish ← sees (Ahead.mark "::")
        if turbofish then
          mark "::"
          require !(← sees (Ahead.mark "::"))
          Path.angleArguments g
        if turbofish || (← sees (Ahead.group .paren)) then arguments g

/-- What may follow an operand and binds tightest: calls, fields, places and error returns. -/
def trailers (form : ExprForm) : Parse ExprForm :=
  repeated (fun (form : ExprForm) => do
    let isRange := form.kind == .range
    if ← sees (Ahead.group .paren) then
      arguments g
      return (other, true)
    else if !isRange && (← sees fun ts => Ahead.mark "." ts && !Ahead.mark ".." ts) then
      member g
      return (other, true)
    else if ← sees (Ahead.group .bracket) then
      let _ ← group .bracket g.expr
      return (other, true)
    else if isRange then return (form, false)
    else if ← mark? "?" then return (other, true)
    else return (form, false)) form

/-- The condition and the blocks of a choice. -/
def choice : Parse Unit := do
  repeated (fun () => do
    key "if"
    let _ ← g.exprBeforeBlock
    Path.plainBlock g
    if ← key? "else" then
      if ← sees (Ahead.key "if") then return ((), true)
      else
        Path.plainBlock g
        return ((), false)
    else return ((), false)) ()

/-- One arm of a match. A body that is no block needs a comma unless it is the last. -/
def arm : Parse Unit := do
  Path.outerAttributes g
  let _ ← Pattern.alternatives g
  if ← key? "if" then
    let _ ← g.expr
  mark "=>"
  let body ← g.leadingExpr
  if body.kind != .block && !(← atEnd) then mark ","
  else
    let _ ← mark? ","

def arms : Parse Unit := do
  let _ ← g.exprBeforeBlock
  group .brace do
    Path.innerAttributes g
    let _ ← untilEnd (arm g)

/-- Whether a loop over elements comes next, not a closure with a binder. -/
def beginsFor (ts : List Token) : Bool :=
  let next := ts.drop 1
  Ahead.key "for" ts &&
    !(Ahead.mark "<" next && (Ahead.lifetime (next.drop 1) || Ahead.mark ">" (next.drop 1)))

/-- A loop of any kind, if one comes next. -/
def loop? : Parse Bool := do
  if ← key? "while" then
    let _ ← g.exprBeforeBlock
    Path.block g
    return true
  else if ← sees beginsFor then
    key "for"
    let _ ← Pattern.alternatives g
    key "in"
    let _ ← g.exprBeforeBlock
    Path.block g
    return true
  else if ← key? "loop" then
    Path.block g
    return true
  else return false

/-- Whether a keyword comes next with a block after it. -/
def keyBlock (text : String) (ts : List Token) : Bool :=
  Ahead.key text ts && Ahead.group .brace (ts.drop 1)

/-- An expression that is a statement without a semicolon, if one comes next. -/
def blockLike? : Parse Bool := do
  if ← sees (Ahead.key "if") then
    choice g
    return true
  else if ← loop? g then return true
  else if ← key? "match" then
    arms g
    return true
  else if ← sees (keyBlock "try") then
    key "try"
    Path.plainBlock g
    return true
  else if ← key? "unsafe" then
    Path.block g
    return true
  else if ← sees (keyBlock "const") then
    key "const"
    Path.block g
    return true
  else if ← sees (Ahead.group .brace) then
    Path.block g
    return true
  else if ← lifetime? then
    mark ":"
    if !(← loop? g) then Path.block g
    return true
  else return false

def beginsClosure (ts : List Token) : Bool :=
  let next := ts.drop 1
  Ahead.mark "|" ts || ["move", "for", "static"].any (fun k => Ahead.key k ts) ||
    (Ahead.key "const" ts && !Ahead.group .brace next) ||
    (Ahead.key "async" ts && (Ahead.mark "|" next || Ahead.key "move" next))

def closure (structs : Bool) : Parse ExprForm := do
  let _ ← Types.boundLifetimes? g
  let _ ← key? "const"
  let _ ← key? "static"
  let _ ← key? "async"
  let _ ← key? "move"
  mark "|"
  let _ ← separated "," (Ahead.mark "|") do
    Path.outerAttributes g
    let _ ← g.pattern
    if ← mark? ":" then
      let _ ← g.type
  mark "|"
  if (← Path.returned g true).isSome then
    Path.plainBlock g
    return braced
  else
    let body ← g.exprWith structs
    return ⟨.other, body.endsInBrace⟩

def field : Parse Unit := do
  Path.outerAttributes g
  let isNamed ← Path.member
  if !isNamed || (← sees (Ahead.mark ":")) then
    mark ":"
    let _ ← g.expr

/-- The fields of a struct value, the last of which may be taken from another value. -/
def fields : Parse Unit := do
  let _ ← repeated (fun () => do
    if ← atEnd then return ((), false)
    if ← mark? ".." then
      if !(← atEnd) then
        let _ ← g.expr
      return ((), false)
    field g
    if ← atEnd then return ((), false)
    mark ","
    return ((), true)) ()

/-- An expression that begins with a path. -/
def named (structs : Bool) : Parse ExprForm := do
  let form ← Path.any g true
  if !form.qualified && form.bare && (← sees Types.callsMacro) then
    mark "!"
    let d ← anyGroup
    return ⟨.call d, d == .brace⟩
  else if structs && (← sees (Ahead.group .brace)) then
    group .brace (fields g)
    return braced
  else return other

/-- The inside of brackets: elements, or one of them and how often it stands. -/
def elements : Parse Unit := do
  if !(← atEnd) then
    let _ ← g.expr
    if ← mark? ";" then
      let _ ← g.expr
    else if !(← atEnd) then
      mark ","
      let _ ← commaList g.expr

/-- Whether an expression may begin here. -/
def canBegin (ts : List Token) : Bool :=
  let only (m : String) (longer : List String) : Bool :=
    Ahead.mark m ts && !longer.any fun l => Ahead.mark l ts
  (Ahead.anyWord ts && !Ahead.key "as" ts) || Ahead.group .paren ts || Ahead.group .bracket ts ||
    Ahead.group .brace ts || Ahead.literal ts || Ahead.lifetime ts || only "!" ["!="] ||
    only "-" ["-=", "->"] || only "*" ["*="] || only "|" ["|="] || only "&" ["&="] ||
    only ".." [] || only "<" ["<=", "<<="] || only "::" [] || only "#" []

/-- A jump out of a block with the value that it takes along. -/
def leave (structs : Bool) : Parse ExprForm := do
  if ← sees canBegin then
    let value ← g.exprWith structs
    return ⟨.other, value.endsInBrace⟩
  else return other

/-- A jump out of a loop or a labelled block, after its keyword. -/
def breakOut (structs : Bool) : Parse ExprForm := do
  if ← lifetime? then require !(← sees (Ahead.mark ":"))
  if structs || !(← sees (Ahead.group .brace)) then leave g structs else return other

/-- A binding used as a condition, after its keyword. -/
def condition (structs : Bool) : Parse ExprForm := do
  let _ ← Pattern.alternatives g
  mark "="
  let value ← g.operators (← g.operand structs) structs .compare
  return ⟨.other, value.endsInBrace⟩

/-- Whether a block that runs later comes next. -/
def beginsAsync (ts : List Token) : Bool :=
  keyBlock "async" ts || (Ahead.key "async" ts && keyBlock "move" (ts.drop 1))

def beginsPath (ts : List Token) : Bool :=
  Pattern.beginsPath ts ||
    (Ahead.key "try" ts && (Ahead.mark "!" (ts.drop 1) || Ahead.mark "::" (ts.drop 1)))

/-- An operand without the operators before and after it. -/
def atom (structs : Bool) : Parse ExprForm := do
  if ← sees Ahead.literal then
    literal
    return other
  else if ← sees beginsAsync then
    key "async"
    let _ ← key? "move"
    Path.plainBlock g
    return braced
  else if ← blockLike? g then return block
  else if ← sees beginsClosure then closure g structs
  else if ← sees beginsPath then named g structs
  else if ← sees (Ahead.group .paren) then
    let _ ← group .paren (commaList g.expr)
    return other
  else if ← key? "break" then breakOut g structs
  else if ← key? "continue" then
    let _ ← lifetime?
    return other
  else if ← key? "return" then leave g true
  else if ← key? "yield" then leave g true
  else if ← key? "become" then g.expr
  else if ← sees (Ahead.group .bracket) then
    group .bracket (elements g)
    return other
  else if ← key? "let" then condition g structs
  else if ← sees (Ahead.mark "..") then range g structs
  else
    key "_"
    return other

def operandRule (structs : Bool) : Parse ExprForm := do
  let hasAttributes ← sees (Ahead.mark "#")
  Path.outerAttributes g
  if ← mark? "&" then
    let isRaw ← sees fun ts =>
      Ahead.key "raw" ts && ["mut", "const"].any fun k => Ahead.key k (ts.drop 1)
    if isRaw then key "raw"
    let mutable ← key? "mut"
    if isRaw && !mutable then key "const"
    let form ← g.operand structs
    return ⟨.other, form.endsInBrace⟩
  else if ← sees fun ts => ["*", "!", "-"].any fun m => Ahead.mark m ts then
    if !(← mark? "*") then
      if !(← mark? "!") then mark "-"
    let form ← g.operand structs
    return ⟨.other, form.endsInBrace⟩
  else
    let form ← trailers g (← atom g structs)
    require !(hasAttributes && form.kind == .range)
    return form

def exprRule (structs : Bool) : Parse ExprForm := do
  g.operators (← g.operand structs) structs .jump

/-- An expression at the beginning of a statement or in the arm of a match. A block goes on only
with a point or a question mark. -/
def leadingRule : Parse ExprForm := do
  Path.outerAttributes g
  if ← blockLike? g then
    if ← sees fun ts => (Ahead.mark "." ts && !Ahead.mark ".." ts) || Ahead.mark "?" ts then
      g.operators (← trailers g block) true .jump
    else return block
  else g.operators (← g.operand true) true .jump

end Switchboard.Source.Expression
