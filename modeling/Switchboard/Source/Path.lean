import Switchboard.Source.Grammar

/-! Paths, with generic arguments in angle brackets or in parentheses, and the attributes in front
of items. Lifetimes are printed before the other arguments whatever order they are written in. -/

namespace Switchboard.Source

/-- A path from outside. -/
structure PathForm where
  /-- Whether a type in angle brackets begins it. -/
  qualified : Bool
  /-- Whether two colons begin it. -/
  rooted : Bool
  count : Nat
  lastBare : Bool
  bare : Bool
  parens : Bool
deriving DecidableEq, Repr

namespace Path

open Parse

variable (g : Grammar)

/-- The segments of a path that takes no arguments: names, or keywords that stand for a module. -/
def plainSegments : Parse Unit := do
  let stands (ts : List Token) : Bool :=
    Ahead.ident ts || ["super", "self", "Self", "crate"].any fun k => Ahead.key k ts
  let read ← repeated (fun (_ : Bool) => do
    if !(← sees stands) then return (false, false)
    let _ ← anyWord
    let more ← mark? "::"
    return (!more, more)) false
  require read

/-- A path without arguments, as macros and attributes are named. -/
def plain : Parse Unit := do
  let _ ← mark? "::"
  plainSegments

/-- The inside of an attribute: a path, then a group or a value. -/
def attributeBody : Parse Unit := do
  if ← key? "unsafe" then pure () else plain
  if ← sees fun ts => [Delimiter.paren, .bracket, .brace].any fun d => Ahead.group d ts then
    let _ ← anyGroup
  else if ← mark? "=" then
    let alone ← attempt do
      literal
      require (← atEnd)
    if alone.isNone then
      require !(← sees fun ts => Ahead.mark "#" ts && Ahead.group .bracket (Ahead.later ts))
      let _ ← g.expr

def oneAttribute : Parse Unit := do
  mark "#"
  group .bracket (attributeBody g)

/-- The attributes in front of what they are about. -/
def outerAttributes : Parse Unit := do
  let _ ← repeated (fun () => do
    if ← sees (Ahead.mark "#") then
      oneAttribute g
      return ((), true)
    else return ((), false)) ()

/-- The attributes at the beginning of the inside of what they are about. -/
def innerAttributes : Parse Unit := do
  let _ ← repeated (fun () => do
    if ← sees fun ts => Ahead.mark "#" ts && Ahead.mark "!" (Ahead.later ts) then
      mark "#"
      mark "!"
      group .bracket (attributeBody g)
      return ((), true)
    else return ((), false)) ()

/-- A block in braces, its own attributes at the beginning. -/
def block : Parse Unit :=
  group .brace do
    innerAttributes g
    g.statements

/-- A block in braces that has no attributes of its own. -/
def plainBlock : Parse Unit :=
  group .brace g.statements

/-- A constant in place of a type: a value, a name or a block. -/
def constant : Parse Unit := do
  if ← sees Ahead.literal then literal
  else if ← sees Ahead.ident then
    let _ ← ident
  else block g

/-- A field of a value: its name, or its place in a tuple. Whether it is a name. -/
def member : Parse Bool := do
  if ← sees Ahead.ident then
    let _ ← ident
    return true
  else
    require (← sees Ahead.place)
    let _ ← one
    return false

def beginsConstant (ts : List Token) : Bool :=
  Ahead.literal ts || Ahead.group .brace ts

def boundsUntil (stop : List Token → Bool) : Parse Unit := do
  let _ ← repeated (fun () => do
    if ← sees stop then return ((), false)
    let _ ← g.bound false true
    return ((), ← mark? "+")) ()

/-- A generic argument: whether it is a lifetime. -/
def argument : Parse Bool := do
  if ← sees fun ts => Ahead.lifetime ts && !Ahead.mark "+" (Ahead.later ts) then
    lifetime
    return true
  else if ← sees beginsConstant then
    constant g
    return false
  else
    let form ← g.type
    if form = .name then
      if ← mark? "=" then
        if ← sees beginsConstant then constant g
        else
          let _ ← g.type
      else if ← mark? ":" then
        boundsUntil g fun ts => Ahead.mark "," ts || Ahead.mark ">" ts
    return false

/-- A generic argument as it was read. -/
structure Argument where
  isLifetime : Bool
  tokens : List Token
  hasComma : Bool

/-- The printed form of arguments: lifetimes first, each with its comma. -/
def arrange (args : List Argument) : List Token :=
  let comma : List Token := [.mark ',' .alone]
  let place (out : List Token × Bool) (a : Argument) : List Token × Bool :=
    (out.1 ++ (if out.2 then [] else comma) ++ a.tokens ++ (if a.hasComma then comma else []),
      a.hasComma)
  let keep (out : List Token × Bool) (a : Argument) : List Token × Bool :=
    (out.1 ++ a.tokens ++ (if a.hasComma then comma else []), a.hasComma)
  ((args.filter fun a => !a.isLifetime).foldl place
    ((args.filter Argument.isLifetime).foldl keep ([], true))).1

def angleArguments : Parse Unit := do
  let _ ← mark? "::"
  mark "<"
  let args ← repeated (fun (args : List Argument) => do
    if ← sees (Ahead.mark ">") then return (args, false)
    let (isLifetime, tokens) ← captured (argument g)
    if ← sees (Ahead.mark ">") then return (⟨isLifetime, tokens, false⟩ :: args, false)
    let _ ← captured (mark ",")
    return (⟨isLifetime, tokens, true⟩ :: args, true)) []
  write (arrange args.reverse)
  mark ">"

/-- A segment of a path: whether it has no arguments. In an expression arguments need two colons in
front. -/
def segment (inExpr : Bool) : Parse Bool := do
  if ← sees fun ts => ["super", "self", "crate", "try"].any fun k => Ahead.key k ts then
    let _ ← anyWord
    return true
  else
    if !(← key? "Self") then
      let _ ← ident
    let opens (ts : List Token) : Bool :=
      (!inExpr && Ahead.mark "<" ts && !Ahead.mark "<=" ts) ||
        (Ahead.mark "::" ts && Ahead.mark "<" (ts.drop 2))
    if ← sees opens then
      angleArguments g
      return false
    else return true

/-- Whether two colons come next that do not lead to arguments in parentheses. -/
def goesOn (ts : List Token) : Bool :=
  Ahead.mark "::" ts && !Ahead.group .paren (ts.drop 2)

/-- The further segments of a path. -/
def further (inExpr : Bool) (form : PathForm) : Parse PathForm :=
  repeated (fun (form : PathForm) => do
    if ← sees goesOn then
      mark "::"
      let bare ← segment g inExpr
      let count := form.count + 1
      return ({ form with count, lastBare := bare, bare := form.bare && bare }, true)
    else return (form, false)) form

/-- A path that no type qualifies. -/
def unqualified (inExpr : Bool) : Parse PathForm := do
  let rooted ← mark? "::"
  let bare ← segment g inExpr
  further g inExpr ⟨false, rooted, 1, bare, bare, false⟩

/-- A path, perhaps qualified by a type in angle brackets and the trait that it implements. -/
def any (inExpr : Bool) : Parse PathForm := do
  if ← mark? "<" then
    let _ ← g.type
    if ← key? "as" then
      let _ ← unqualified g false
    mark ">"
    mark "::"
    let bare ← segment g inExpr
    repeated (fun (form : PathForm) => do
      if ← mark? "::" then
        let bare ← segment g inExpr
        return ({ form with count := form.count + 1, lastBare := bare, bare := false }, true)
      else return (form, false)) ⟨true, false, 1, bare, false, false⟩
  else unqualified g inExpr

def opensParen (ts : List Token) : Bool :=
  Ahead.group .paren ts || (Ahead.mark "::" ts && Ahead.group .paren (ts.drop 2))

/-- The type that a function answers, if it is given: what it looks like. -/
def returned (plus : Bool) : Parse (Option TypeForm) := do
  if ← mark? "->" then
    let form ← g (.type plus)
    return some form
  else return none

/-- Arguments in parentheses with the type answered. Two colons in front are not printed. -/
def parenArguments : Parse (Option TypeForm) := do
  if ← sees (Ahead.mark "::") then
    let _ ← captured (mark "::")
  let _ ← group .paren (commaList g.type)
  returned g false

end Path

end Switchboard.Source
