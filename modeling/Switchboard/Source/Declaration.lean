import Switchboard.Source.Generics
import Switchboard.Source.Statement

/-! Items: definitions, modules, functions and everything else that stands outside of a function's
body. -/

namespace Switchboard.Source.Declaration

open Parse

variable (g : Grammar)

/-- How far an item is visible: whether it says so. -/
def visibility : Parse Bool := do
  if ← key? "pub" then
    if ← sees fun ts => match ts with
        | .group .paren [.word w] :: _ => ["crate", "self", "super"].any fun k => w.is k
        | _ => false then
      let _ ← anyGroup
    else if ← sees fun ts => match ts with
        | .group .paren body :: _ => Ahead.key "in" body
        | _ => false then
      group .paren do
        key "in"
        Path.plain
    return true
  else return false

/-- What is ahead without a keyword that may come next. -/
def without (keys : List String) (ts : List Token) : List Token :=
  if keys.any fun k => Ahead.key k ts then ts.drop 1 else ts

/-- Whether a function comes next. -/
def beginsFunction (safe : Bool) (ts : List Token) : Bool :=
  let ts := without ["async"] (without ["const"] ts)
  let ts := without (if safe then ["safe", "unsafe"] else ["unsafe"]) ts
  let ts := if Ahead.key "extern" ts then
    let next := ts.drop 1
    if Ahead.string next then next.drop 1 else next
  else ts
  Ahead.key "fn" ts

/-- The receiver of a method: whether it comes next. -/
def receiver : Parse Unit := do
  let byRef ← mark? "&"
  if byRef then
    let _ ← lifetime?
  let _ ← key? "mut"
  key "self"
  if !byRef then
    if ← mark? ":" then
      let _ ← g.type

/-- Dots that stand for any number of arguments, after which nothing but a comma follows. -/
def variadicEnd : Parse Unit := do
  if !(← atEnd) then mark ","

/-- The arguments of a function, of which only the first may be the receiver. -/
def arguments : Parse Unit := do
  let _ ← repeated (fun first => do
    if ← atEnd then return (first, false)
    Path.outerAttributes g
    if ← mark? "..." then
      variadicEnd
      return (first, false)
    let ended ← do
      if (← attempt (receiver g)).isSome then
        require first
        pure false
      else if ← sees fun ts => Ahead.ident ts && Ahead.mark "<" (ts.drop 1) then
        let _ ← g.type
        pure false
      else
        let _ ← g.pattern
        mark ":"
        if ← mark? "..." then pure true
        else
          let _ ← g.type
          pure false
    if ended then
      variadicEnd
      return (false, false)
    if ← atEnd then return (false, false)
    mark ","
    return (false, true)) true

def signature (safe : Bool) : Parse Unit := do
  let _ ← key? "const"
  let _ ← key? "async"
  let isSafe ← if safe then key? "safe" else pure false
  if !isSafe then
    let _ ← key? "unsafe"
  Types.linkage
  key "fn"
  let _ ← ident
  let _ ← Generics.parameters g
  group .paren (arguments g)
  let _ ← Path.returned g true
  let _ ← Generics.clauses? g

/-- A function, perhaps without a body. -/
def function (safe : Bool) : Parse Unit := do
  signature g safe
  if !(← mark? ";") then Path.block g

/-- A name or an underscore. -/
def nameOrBlank : Parse Unit := do
  if !(← key? "_") then
    let _ ← ident

def constantItem : Parse Unit := do
  key "const"
  nameOrBlank
  let _ ← Generics.parameters g
  mark ":"
  let _ ← g.type
  if ← mark? "=" then
    let _ ← g.expr
  let _ ← Generics.clauses? g
  mark ";"

def staticItem : Parse Unit := do
  key "static"
  let _ ← key? "mut"
  let _ ← ident
  let typed ← mark? ":"
  if typed then
    let _ ← g.type
  if !typed || !(← sees (Ahead.mark ";")) then
    mark "="
    let _ ← g.expr
  mark ";"

/-- Where the clauses about bounds of a type definition may stand. -/
inductive ClausePlace
  | before | after | both
deriving DecidableEq, Repr

/-- A type that stands for another, perhaps with bounds in its place. -/
def typeItem (place : ClausePlace) : Parse Unit := do
  key "type"
  let _ ← ident
  let _ ← Generics.parameters g
  if ← mark? ":" then
    Generics.joinedUntil g fun ts => Ahead.key "where" ts || Ahead.mark "=" ts || Ahead.mark ";" ts
  let found ← if place != .after then Generics.clauses? g else pure false
  if ← mark? "=" then
    let _ ← g.type
  if place != .before && !found then
    let _ ← Generics.clauses? g
  mark ";"

/-- The name that an import or an extern crate is given. -/
def rename? : Parse Unit := do
  if ← key? "as" then nameOrBlank

/-- What an import names. -/
def importTreeRule (root : Bool) : Parse Unit := do
  if ← sees (Ahead.group .brace) then
    let _ ← group .brace (commaList do
      let rooted ← if root then mark? "::" else pure false
      g.importTree (root && !rooted))
  else if !(← mark? "*") then
    let w ← anyWord
    require (!w.isKeyword || ["self", "super", "crate", "try"].any fun k => w.is k)
    if ← mark? "::" then g.importTree false else rename?

def macroItem (name : Bool) : Parse Unit := do
  Path.plain
  mark "!"
  if name then
    if !(← key? "try") && (← sees Ahead.ident) then
      let _ ← ident
  let d ← anyGroup
  if d != .brace then mark ";"

def beginsPath (ts : List Token) : Bool :=
  Ahead.ident ts || Ahead.mark "::" ts || ["self", "super", "crate"].any fun k => Ahead.key k ts

def unnamedField : Parse Unit := do
  Path.outerAttributes g
  let _ ← visibility
  let _ ← g.type

/-- One named field: its name. An underscore may name fields that are written in its place. -/
def namedField : Parse Word := do
  Path.outerAttributes g
  let _ ← visibility
  let blank ← sees (Ahead.key "_")
  let w ← if blank then anyWord else ident
  mark ":"
  if blank && (← sees fun ts =>
      Ahead.key "struct" ts || (Ahead.key "union" ts && Ahead.group .brace (ts.drop 1))) then
    let _ ← anyWord
    let _ ← g.fields
  else
    let _ ← g.type
  return w

def fieldsRule : Parse (List Word) :=
  group .brace (commaList (namedField g))

/-- How many unnamed fields stand between parentheses. -/
def unnamedFields : Parse Nat := do
  return (← group .paren (commaList (unnamedField g))).length

/-- The fields of a struct after its parameters. -/
def structBody : Parse Definition := do
  let early ← Generics.clauses? g
  if !early && (← sees (Ahead.group .paren)) then
    let arity ← unnamedFields g
    let _ ← Generics.clauses? g
    mark ";"
    return .tuple arity
  else if ← mark? ";" then return .unit
  else return .named (← g.fields)

def structItem : Parse Item := do
  key "struct"
  let w ← ident
  let parameters ← Generics.parameters g
  let body ← structBody g
  return .defines w (if parameters == 0 then body else .genericStruct)

def variant : Parse Unit := do
  Path.outerAttributes g
  let _ ← visibility
  let _ ← ident
  if ← sees (Ahead.group .brace) then
    let _ ← g.fields
  else if ← sees (Ahead.group .paren) then
    let _ ← unnamedFields g
  if ← mark? "=" then
    let _ ← g.expr

def enumeration : Parse Item := do
  key "enum"
  let w ← ident
  let _ ← Generics.parameters g
  let _ ← Generics.clauses? g
  let _ ← group .brace (commaList (variant g))
  return .defines w .enumeration

def unionItem : Parse Item := do
  key "union"
  let w ← ident
  let _ ← Generics.parameters g
  let _ ← Generics.clauses? g
  let _ ← g.fields
  return .defines w .union

/-- The items between the braces of what holds them. -/
def members (p : Parse α) : Parse (List α) :=
  group .brace do
    Path.innerAttributes g
    untilEnd p

def traitMember : Parse Unit := do
  Path.outerAttributes g
  let visible ← visibility
  let isDefault ← key? "default"
  if ← sees (beginsFunction false) then function g false
  else if ← sees (Ahead.key "const") then constantItem g
  else if ← sees (Ahead.key "type") then typeItem g .after
  else
    require (!visible && !isDefault && (← sees beginsPath))
    macroItem false

def implMember : Parse Unit := do
  Path.outerAttributes g
  let visible ← visibility
  let isDefault ← sees fun ts => Ahead.key "default" ts && !Ahead.mark "!" (ts.drop 1)
  if isDefault then key "default"
  if ← sees (beginsFunction false) then function g false
  else if ← sees (Ahead.key "const") then constantItem g
  else if ← sees (Ahead.key "type") then typeItem g .after
  else
    require (!visible && !isDefault && (← sees beginsPath))
    macroItem false

def foreignMember : Parse Unit := do
  Path.outerAttributes g
  let visible ← visibility
  let beginsStatic (ts : List Token) : Bool :=
    Ahead.key "static" ts ||
      ((Ahead.key "unsafe" ts || Ahead.key "safe" ts) && Ahead.key "static" (ts.drop 1))
  if ← sees (beginsFunction true) then function g true
  else if ← sees beginsStatic then
    if !(← key? "unsafe") then
      let _ ← key? "safe"
    key "static"
    let _ ← key? "mut"
    let _ ← ident
    mark ":"
    let _ ← g.type
    if ← mark? "=" then
      let _ ← g.expr
    mark ";"
  else if ← sees (Ahead.key "type") then typeItem g .both
  else
    require (!visible && (← sees beginsPath))
    macroItem false

/-- A trait after its visibility, or a name for bounds. -/
def traitItem : Parse Unit := do
  let isUnsafe ← key? "unsafe"
  let isAuto ← key? "auto"
  key "trait"
  let _ ← ident
  let _ ← Generics.parameters g
  let isAlias ← if isUnsafe || isAuto then pure false else mark? "="
  if isAlias then
    Generics.joinedUntil g fun ts => Ahead.key "where" ts || Ahead.mark ";" ts
    let _ ← Generics.clauses? g
    mark ";"
  else
    if ← mark? ":" then
      Generics.joinedUntil g fun ts => Ahead.key "where" ts || Ahead.group .brace ts
    let _ ← Generics.clauses? g
    let _ ← members g (traitMember g)

def implementation : Parse Unit := do
  let _ ← key? "default"
  let _ ← key? "unsafe"
  key "impl"
  if ← sees Generics.begins then
    let _ ← Generics.parameters g
  let constant := Ahead.key "const"
  if ← sees fun ts => constant ts || (Ahead.mark "?" ts && constant (ts.drop 1)) then
    let _ ← mark? "?"
    key "const"
  let negative ← sees fun ts => Ahead.mark "!" ts && !Ahead.group .brace (ts.drop 1)
  if negative then mark "!"
  let _ ← g.type
  if ← key? "for" then
    let _ ← g.type
  else require !negative
  let _ ← Generics.clauses? g
  let _ ← members g (implMember g)

def foreignItem : Parse Unit := do
  let _ ← key? "unsafe"
  Types.linkage
  let _ ← members g (foreignMember g)

/-- A module, with its items or without. -/
def moduleItem : Parse Item := do
  let _ ← key? "unsafe"
  key "mod"
  let w ← if ← sees (Ahead.key "try") then anyWord else ident
  if ← mark? ";" then return .other
  else
    let items ← members g do
      Path.outerAttributes g
      g.item
    return .module w items

/-- A macro that is defined by its rules. -/
def macroDefinition : Parse Unit := do
  key "macro"
  let _ ← ident
  if ← sees (Ahead.group .paren) then
    let _ ← anyGroup
  require (← sees (Ahead.group .brace))
  let _ ← anyGroup

def externCrate : Parse Unit := do
  key "extern"
  key "crate"
  if !(← key? "self") then
    let _ ← ident
  rename?
  mark ";"

def importItem : Parse Unit := do
  key "use"
  let rooted ← mark? "::"
  g.importTree !rooted
  mark ";"

/-- Whether a keyword comes next with one of several others after it. -/
def keyThen (first : String) (others : List String) (ts : List Token) : Bool :=
  Ahead.key first ts && others.any fun k => Ahead.key k (ts.drop 1)

def beginsForeign (ts : List Token) : Bool :=
  let ts := without ["unsafe"] ts
  Ahead.key "extern" ts &&
    (Ahead.group .brace (ts.drop 1) ||
      (Ahead.string (ts.drop 1) && Ahead.group .brace (ts.drop 2)))

def beginsTrait (ts : List Token) : Bool :=
  Ahead.key "trait" (without ["auto"] (without ["unsafe"] ts))

/-- An item that defines nothing. -/
def defining (p : Parse Unit) : Parse Item := do
  p
  return .other

def itemRule : Parse Item := do
  let visible ← visibility
  let ts ← ahead
  let next := ts.drop 1
  if beginsFunction false ts then defining (function g false)
  else if keyThen "extern" ["crate"] ts then defining externCrate
  else if beginsForeign ts then
    require !visible
    defining (foreignItem g)
  else if Ahead.key "use" ts then defining (importItem g)
  else if Ahead.key "static" ts then defining (staticItem g)
  else if Ahead.key "const" ts then defining (constantItem g)
  else if beginsTrait ts then defining (traitItem g)
  else if keyThen "unsafe" ["impl"] ts then defining (implementation g)
  else if Ahead.key "mod" ts || keyThen "unsafe" ["mod"] ts then moduleItem g
  else if Ahead.key "type" ts then defining (typeItem g .before)
  else if Ahead.key "struct" ts then structItem g
  else if Ahead.key "enum" ts then enumeration g
  else if Ahead.key "union" ts && Ahead.ident next then unionItem g
  else if Ahead.key "impl" ts || (Ahead.key "default" ts && !Ahead.mark "!" next) then
    defining (implementation g)
  else if Ahead.key "macro" ts then defining macroDefinition
  else
    require (!visible && beginsPath ts)
    defining (macroItem true)

end Switchboard.Source.Declaration
