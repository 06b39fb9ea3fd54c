import Switchboard.Source.Types

/-! Generic parameters and the clauses that bound them. -/

namespace Switchboard.Source.Generics

open Parse

variable (g : Grammar)

/-- Lifetimes joined by `+`, up to a stop. -/
def lifetimesUntil (stop : List Token → Bool) : Parse Unit := do
  let _ ← repeated (fun () => do
    if ← sees stop then return ((), false)
    lifetime
    return ((), ← mark? "+")) ()

/-- Bounds between which `+` must stand, up to a stop. -/
def joinedUntil (stop : List Token → Bool) : Parse Unit := do
  let _ ← separated "+" stop (g.bound false true)

def endsParameter (ts : List Token) : Bool :=
  ts.isEmpty || [",", ">", "="].any fun m => Ahead.mark m ts

def parameter : Parse Unit := do
  Path.outerAttributes g
  if ← lifetime? then
    if ← mark? ":" then
      lifetimesUntil fun ts => ts.isEmpty || Ahead.mark "," ts || Ahead.mark ">" ts
  else if ← sees Ahead.ident then
    let _ ← ident
    if ← mark? ":" then Path.boundsUntil g endsParameter
    if ← mark? "=" then
      let _ ← g.type
  else if ← key? "const" then
    let _ ← ident
    mark ":"
    let _ ← g.type
    if ← mark? "=" then Path.constant g
  else key "_"

/-- Generic parameters, which may be missing: how many they are. -/
def parameters : Parse Nat := do
  if ← mark? "<" then
    let found ← separated "," (Ahead.mark ">") (parameter g)
    mark ">"
    return found.length
  else return 0

/-- Whether a clause about bounds ends here. -/
def endsClause (ts : List Token) : Bool :=
  ts.isEmpty || Ahead.group .brace ts || [",", ";", "="].any (fun m => Ahead.mark m ts) ||
    (Ahead.mark ":" ts && !Ahead.mark "::" ts)

def clause : Parse Unit := do
  if ← sees fun ts => Ahead.lifetime ts && Ahead.mark ":" (Ahead.later ts) then
    lifetime
    mark ":"
    lifetimesUntil fun ts => endsClause ts || Ahead.mark ":" ts
  else
    let _ ← Types.boundLifetimes? g
    let _ ← g.type
    mark ":"
    Path.boundsUntil g endsClause

/-- The clauses about bounds if there are some. -/
def clauses? : Parse Bool := do
  if ← key? "where" then
    let _ ← repeated (fun () => do
      if ← sees endsClause then return ((), false)
      clause g
      return ((), ← mark? ",")) ()
    return true
  else return false

/-- Whether generic parameters come next, not a type in angle brackets. -/
def begins (ts : List Token) : Bool :=
  let next := ts.drop 1
  let later := Ahead.later next
  Ahead.mark "<" ts &&
    (Ahead.mark ">" next || Ahead.mark "#" next || Ahead.key "const" next ||
      ((Ahead.lifetime next || Ahead.ident next) &&
        (Ahead.mark ">" later || Ahead.mark "," later || Ahead.mark "=" later ||
          (Ahead.mark ":" later && !Ahead.mark "::" later))))

end Switchboard.Source.Generics
