import Switchboard.Source.Path

/-! Patterns. -/

namespace Switchboard.Source.Pattern

open Parse

variable (g : Grammar)

def hasAlternative (ts : List Token) : Bool :=
  Ahead.mark "|" ts && !Ahead.mark "||" ts && !Ahead.mark "|=" ts

/-- A pattern with alternatives, perhaps with a bar before the first: whether it is a range without
one of its ends. -/
def alternatives : Parse Bool := do
  let led ← mark? "|"
  let first ← g.pattern
  repeated (fun isOpen => do
    if ← sees hasAlternative then
      mark "|"
      let _ ← g.pattern
      return (false, true)
    else return (isOpen, false)) (first && !led)

def beginsPath (ts : List Token) : Bool :=
  Ahead.ident ts || Ahead.mark "::" ts || Ahead.mark "<" ts ||
    ["self", "Self", "super", "crate"].any fun k => Ahead.key k ts

def endsRange (ts : List Token) : Bool :=
  ts.isEmpty || ["|", "=", ",", ";"].any (fun m => Ahead.mark m ts) ||
    (Ahead.mark ":" ts && !Ahead.mark "::" ts) || Ahead.key "if" ts

/-- An end of a range: whether it is given. -/
def rangeEnd : Parse Bool := do
  if ← sees endsRange then return false
  if ← sees Ahead.literal then literal
  else if ← sees beginsPath then
    let _ ← Path.any g true
  else
    key "const"
    Path.block g
  return true

/-- The dots of a range: whether it has its upper end in it. Three dots are read as `..=` only where
they are allowed. -/
def dots (three : Bool) : Parse Bool := do
  if ← mark? "..=" then return true
  else if ← sees (Ahead.mark "...") then
    require three
    let _ ← captured (mark "...")
    write (Token.marks "..=".toList)
    return true
  else
    mark ".."
    return false

/-- The upper end of a range whose lower end is given: whether it is missing. -/
def rangeFrom : Parse Bool := do
  let closed ← dots true
  let ended ← rangeEnd g
  require (ended || !closed)
  return !ended

def field : Parse Unit := do
  let boxed ← key? "box"
  let byRef ← key? "ref"
  let mutable ← key? "mut"
  if boxed || byRef || mutable then
    let _ ← ident
  else
    let isNamed ← Path.member
    if !isNamed || (← sees (Ahead.mark ":")) then
      mark ":"
      let _ ← alternatives g

/-- The fields of a struct pattern, the last of which may be two dots. -/
def fields : Parse Unit := do
  let _ ← repeated (fun () => do
    if ← atEnd then return ((), false)
    Path.outerAttributes g
    if ← mark? ".." then return ((), false)
    field g
    if ← atEnd then return ((), false)
    mark ","
    return ((), true)) ()

/-- A pattern that begins with a path: whether it is a range without an upper end. -/
def named : Parse Bool := do
  let form ← Path.any g true
  let invoked ← sees fun ts => Ahead.mark "!" ts && !Ahead.mark "!=" ts
  if !form.qualified && form.bare && invoked then
    mark "!"
    let _ ← anyGroup
    return false
  else if ← sees (Ahead.group .brace) then
    group .brace (fields g)
    return false
  else if ← sees (Ahead.group .paren) then
    let _ ← group .paren (commaList (alternatives g))
    return false
  else if ← sees (Ahead.mark "..") then rangeFrom g
  else return false

def binding : Parse Unit := do
  let _ ← key? "ref"
  let _ ← key? "mut"
  if !(← key? "self") then
    let _ ← ident
  if ← mark? "@" then
    let _ ← g.pattern

def element : Parse Unit := do
  require !(← alternatives g)

/-- Whether a path that is more than a single name comes next. -/
def beginsNamed (ts : List Token) : Bool :=
  let next := ts.drop 1
  (Ahead.ident ts && (["::", "!", ".."].any (fun m => Ahead.mark m next) ||
    Ahead.group .brace next || Ahead.group .paren next)) ||
    (Ahead.key "self" ts && Ahead.mark "::" next) ||
    Ahead.mark "::" ts || Ahead.mark "<" ts ||
    ["Self", "super", "crate"].any fun k => Ahead.key k ts

def patternRule : Parse Bool := do
  if ← sees beginsNamed then named g
  else if ← key? "_" then return false
  else if ← key? "box" then
    let _ ← g.pattern
    return false
  else if ← sees fun ts => Ahead.mark "-" ts || Ahead.literal ts || Ahead.key "const" ts then
    let _ ← rangeEnd g
    if ← sees (Ahead.mark "..") then rangeFrom g else return false
  else if ← sees fun ts =>
      Ahead.ident ts || ["ref", "mut", "self"].any fun k => Ahead.key k ts then
    binding g
    return false
  else if ← mark? "&" then
    let _ ← key? "mut"
    let _ ← g.pattern
    return false
  else if ← sees (Ahead.group .paren) then
    let _ ← group .paren (commaList (alternatives g))
    return false
  else if ← sees (Ahead.group .bracket) then
    let _ ← group .bracket (commaList (element g))
    return false
  else
    let closed ← dots false
    let ended ← rangeEnd g
    require (ended || !closed)
    return ended

end Switchboard.Source.Pattern
