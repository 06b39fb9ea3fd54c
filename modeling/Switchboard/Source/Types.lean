import Switchboard.Source.Path

/-! Types and the bounds that stand on them. -/

namespace Switchboard.Source.Types

open Parse

variable (g : Grammar)

/-- The lifetimes that a binder names, up to the mark that closes it. -/
def boundLifetimes : Parse Unit := do
  key "for"
  mark "<"
  let _ ← separated "," (Ahead.mark ">") do
    Path.outerAttributes g
    lifetime
  mark ">"

def boundLifetimes? : Parse Bool := do
  if ← sees (Ahead.key "for") then boundLifetimes g; return true else return false

/-- Whether one of several names may begin what follows a binder. -/
def followsBinder (ts : List Token) : Bool :=
  Ahead.ident ts ||
    ["fn", "unsafe", "extern", "super", "self", "Self", "crate"].any fun k => Ahead.key k ts

/-- Whether another bound can follow a `+`. -/
def beginsBound (constant : Bool) (ts : List Token) : Bool :=
  Ahead.anyWord ts || Ahead.mark "::" ts || Ahead.mark "?" ts || Ahead.lifetime ts ||
    Ahead.group .paren ts || (constant && Ahead.group .bracket ts)

/-- The lifetimes and types that a hidden type captures. -/
def captures : Parse Unit := do
  key "use"
  mark "<"
  let _ ← separated "," (Ahead.mark ">") do
    if !(← lifetime?) then
      if !(← key? "Self") then
        let _ ← ident
  mark ">"

/-- A trait as a bound, inside its parentheses if it has some. -/
def traitBound (constant : Bool) : Parse Unit := do
  let binder ← boundLifetimes? g
  if ← sees (Ahead.group .bracket) then
    group .bracket (key "const")
    require constant
  else if ← key? "const" then require constant
  let optional ← mark? "?"
  let binder ← if optional && !binder then boundLifetimes? g else pure binder
  let path ← Path.unqualified g false
  if path.lastBare then
    if ← sees Path.opensParen then
      let _ ← Path.parenArguments g
  require !(binder && optional)

def boundRule (capture constant : Bool) : Parse Bool := do
  if ← lifetime? then return false
  else if ← sees (Ahead.key "use") then
    captures
    require capture
    return false
  else if ← sees (Ahead.group .paren) then
    group .paren (traitBound g constant)
    return true
  else
    traitBound g constant
    return true

def bounds (plus capture constant : Bool) : Parse Bool :=
  repeated (fun found => do
    let isTrait ← g.bound capture constant
    let found := found || isTrait
    let more ← if plus then mark? "+" else pure false
    if more then return (found, ← sees (beginsBound constant))
    else return (found, false)) false

/-- Further bounds after a `+`, which another bound must follow. -/
def furtherBounds : Parse Bool :=
  repeated (fun found => do
    if ← mark? "+" then
      let _ ← g.bound false false
      return (true, true)
    else return (found, false)) false

/-- Further bounds after a `+`, the last of which may be missing. -/
def furtherBounds? : Parse Bool :=
  repeated (fun found => do
    if ← mark? "+" then
      if ← sees (beginsBound false) then
        let _ ← g.bound false false
        return (true, true)
      else return (true, false)
    else return (found, false)) false

/-- What bounds in place of a type look like from outside. -/
def boundForm (more : Bool) : TypeForm :=
  if more then .other else .bound

/-- What stands in parentheses in place of a type. -/
inductive Enclosed
  /-- Types with commas, or nothing. -/
  | tuple
  /-- Bounds of which a lifetime is the first. -/
  | lifetimes
  /-- An optional trait. -/
  | optional
  /-- One type. -/
  | single (form : TypeForm)

def enclosed : Parse Enclosed := do
  if ← atEnd then return .tuple
  else if ← sees Ahead.lifetime then
    require (← bounds g true false false)
    return .lifetimes
  else if ← sees (Ahead.mark "?") then
    traitBound g false
    return .optional
  else
    let form ← g.type
    if ← mark? "," then
      let _ ← commaList g.type
      return .tuple
    else return .single form

def parenthesized (plus : Bool) : Parse TypeForm := do
  match ← group .paren (enclosed g) with
  | .tuple => return .other
  | .lifetimes => return .paren
  | .optional => return boundForm (← furtherBounds g)
  | .single form =>
    let isBound := form == .name || form == .path || form == .bound
    if plus && isBound && (← sees (Ahead.mark "+")) then
      return boundForm (← furtherBounds g)
    else return .paren

/-- The linkage of a function, which a string may name. -/
def linkage : Parse Unit := do
  if ← key? "extern" then
    if ← sees Ahead.string then literal

/-- Whether dots come next that stand for any number of arguments, perhaps after a name. -/
def beginsVariadic (ts : List Token) : Bool :=
  Ahead.mark "..." ts || ((Ahead.ident ts || Ahead.key "_" ts) && Ahead.mark ":" (ts.drop 1) &&
    Ahead.mark "..." (ts.drop 2))

def variadic : Parse Unit := do
  if !(← sees (Ahead.mark "...")) then
    let _ ← anyWord
    mark ":"
  mark "..."
  let _ ← mark? ","

/-- One argument of a function type. The first may be the receiver. -/
def pointerArgument (first : Bool) : Parse Unit := do
  let receives (ts : List Token) : Bool :=
    first && Ahead.key "mut" ts && Ahead.key "self" (ts.drop 1)
  let named (ts : List Token) : Bool :=
    (Ahead.ident ts || Ahead.key "_" ts || (first && Ahead.key "self" ts)) &&
      Ahead.mark ":" (ts.drop 1) && !Ahead.mark "::" (ts.drop 1)
  if ← sees receives then
    key "mut"
    if ← sees named then
      key "self"
      mark ":"
      let _ ← g.type
    else key "self"
  else
    if ← sees named then
      let _ ← anyWord
      mark ":"
      if first && (← sees receives) then
        key "mut"
        key "self"
      else
        let _ ← g.type
    else
      let _ ← g.type

def pointerArguments : Parse Unit := do
  let _ ← repeated (fun first => do
    if ← atEnd then return (false, false)
    Path.outerAttributes g
    if ← sees beginsVariadic then
      variadic
      return (false, false)
    Path.outerAttributes g
    pointerArgument g first
    if ← atEnd then return (false, false)
    mark ","
    return (false, true)) true

/-- A function type after its binder. -/
def functionPointer : Parse Unit := do
  let _ ← key? "unsafe"
  linkage
  key "fn"
  group .paren (pointerArguments g)
  let _ ← Path.returned g false

/-- A path in place of a type, with arguments in parentheses after a name that has none. -/
def pathType : Parse PathForm := do
  let form ← Path.any g false
  repeated (fun (form : PathForm) => do
    if form.lastBare && (← sees Path.opensParen) then
      let answer ← Path.parenArguments g
      let form := { form with lastBare := false, bare := false, parens := true }
      if answer == none || answer == some .paren then
        return (← Path.further g false form, true)
      else return (form, false)
    else return (form, false)) form

def callsMacro (ts : List Token) : Bool :=
  Ahead.mark "!" ts && !Ahead.mark "!=" ts

def named (binder plus : Bool) : Parse TypeForm := do
  let form ← pathType g
  if form.qualified then return .other
  else if form.bare && (← sees callsMacro) then
    mark "!"
    let _ ← anyGroup
    return .other
  else if plus && (← sees (Ahead.mark "+")) then return boundForm (← furtherBounds? g)
  else if binder then return .bound
  else if form.count == 1 && !form.rooted && !form.parens then return .name
  else return .path

def sequence : Parse Unit := do
  let _ ← g.type
  if ← mark? ";" then
    let _ ← g.expr

def typeRule (plus : Bool) : Parse TypeForm := do
  let binder ← boundLifetimes? g
  if binder then require (← sees followsBinder)
  if ← sees (Ahead.group .paren) then parenthesized g plus
  else if ← sees fun ts => ["fn", "unsafe", "extern"].any fun k => Ahead.key k ts then
    functionPointer g
    return .other
  else if ← sees fun ts => Ahead.ident ts ||
      ["super", "self", "Self", "crate"].any (fun k => Ahead.key k ts) ||
      Ahead.mark "::" ts || Ahead.mark "<" ts then
    named g binder plus
  else if ← key? "dyn" then
    let _ ← mark? "*"
    require (← bounds g plus false false)
    return .other
  else if ← sees (Ahead.group .bracket) then
    group .bracket (sequence g)
    return .other
  else if ← mark? "*" then
    if !(← key? "const") then key "mut"
    let _ ← g.typeNoPlus
    return .other
  else if ← mark? "&" then
    let _ ← lifetime?
    let _ ← key? "mut"
    let _ ← g.typeNoPlus
    return .other
  else if ← mark? "!" then return .other
  else if ← key? "impl" then
    require (← bounds g plus true true)
    return .other
  else if ← sees Ahead.lifetime then
    require (← bounds g true false false)
    return .other
  else
    key "_"
    return .other

end Switchboard.Source.Types
