import Switchboard.Source.Token

/-! Reading token trees by rules. What has been read is kept in its standard printed form: the marks
of an operator are joint and its last mark stands alone. -/

namespace Switchboard.Source

/-- A place in a sequence of token trees. -/
structure Cursor where
  ahead : List Token
  /-- What has been read, the latest first. -/
  behind : List Token

/-- A rule that reads from a cursor on, or fails. -/
abbrev Parse := StateT Cursor Option

namespace Ahead

/-- Whether a sequence begins with these marks, each joint to the next. What follows the last one
is left open. -/
def marksAre : List Char → List Token → Bool
  | [c], .mark d _ :: _ => c == d && d != '\''
  | c :: cs, .mark d .joint :: rest => c == d && d != '\'' && marksAre cs rest
  | _, _ => false

/-- Whether a sequence begins with the marks of an operator. -/
def mark (text : String) (ts : List Token) : Bool :=
  marksAre text.toList ts

/-- The name that a sequence begins with. -/
def word? : List Token → Option Word
  | .word w :: _ => some w
  | _ => none

/-- Whether a sequence begins with this keyword. -/
def key (text : String) (ts : List Token) : Bool :=
  (word? ts).any fun w => w.is text

/-- Whether a sequence begins with a name that is no keyword. -/
def ident (ts : List Token) : Bool :=
  (word? ts).any fun w => !w.isKeyword

/-- Whether a sequence begins with a name of any kind. -/
def anyWord (ts : List Token) : Bool :=
  (word? ts).isSome

def lifetime : List Token → Bool
  | .mark '\'' .joint :: .word _ :: _ => true
  | _ => false

def group (d : Delimiter) : List Token → Bool
  | .group e _ :: _ => d = e
  | _ => false

def isNumber (text : String) : Bool :=
  text.toList.head?.any Char.isDigit

/-- Whether a sequence begins with a literal value, which may be negative. -/
def literal : List Token → Bool
  | .literal _ :: _ => true
  | .word w :: _ => w.is "true" || w.is "false"
  | .mark '-' _ :: .literal text :: _ => isNumber text
  | _ => false

def string : List Token → Bool
  | .literal text :: _ => text.toList.head?.any fun c => c == '"' || c == 'r'
  | _ => false

/-- Whether digits are those of a place in a tuple, which is below 2^32. -/
def isPlace (digits : List Char) : Bool :=
  !digits.isEmpty && digits.all Char.isDigit &&
    digits.foldl (fun n c => n * 10 + (c.toNat - 48)) 0 < Nat.pow 2 32

def place : List Token → Bool
  | .literal text :: _ => isPlace text.toList
  | _ => false

/-- What follows the first token. A lifetime counts as one. -/
def later : List Token → List Token
  | .mark '\'' .joint :: .word _ :: rest => rest
  | _ :: rest => rest
  | [] => []

end Ahead

namespace Parse

def ahead : Parse (List Token) := do
  return (← get).ahead

def sees (test : List Token → Bool) : Parse Bool := do
  return test (← ahead)

def atEnd : Parse Bool :=
  sees List.isEmpty

def require (b : Bool) : Parse Unit :=
  if b then pure () else failure

/-- Reads one token tree as it stands. -/
def one : Parse Token := fun c =>
  match c.ahead with
  | t :: rest => some (t, ⟨rest, t :: c.behind⟩)
  | [] => none

/-- Puts tokens after what has been read. -/
def write (ts : List Token) : Parse Unit := fun c =>
  some ((), ⟨c.ahead, ts.reverse ++ c.behind⟩)

def mark (text : String) : Parse Unit := fun c =>
  if Ahead.mark text c.ahead then
    let cs := text.toList
    some ((), ⟨c.ahead.drop cs.length, (Token.marks cs).reverse ++ c.behind⟩)
  else none

/-- Reads the marks of an operator if they come next. -/
def mark? (text : String) : Parse Bool := do
  if ← sees (Ahead.mark text) then mark text; return true else return false

def anyWord : Parse Word := do
  match ← one with
  | .word w => return w
  | _ => failure

def ident : Parse Word := do
  let w ← anyWord
  require (!w.isKeyword)
  return w

def key (text : String) : Parse Unit := do
  require ((← anyWord).is text)

def key? (text : String) : Parse Bool := do
  if ← sees (Ahead.key text) then key text; return true else return false

def lifetime : Parse Unit := do
  require (← sees Ahead.lifetime)
  let _ ← one
  let _ ← one

def lifetime? : Parse Bool := do
  if ← sees Ahead.lifetime then lifetime; return true else return false

def literal : Parse Unit := do
  require (← sees Ahead.literal)
  if ← sees (Ahead.mark "-") then mark "-"
  let _ ← one

/-- The value of a rule on the inside of a group, which it must read to its end. -/
def inside (p : Parse α) (body : List Token) : Option (α × List Token) :=
  match p ⟨body, []⟩ with
  | some (a, ⟨[], behind⟩) => some (a, behind.reverse)
  | _ => none

/-- Reads a group in these brackets by a rule for its inside. -/
def group (d : Delimiter) (p : Parse α) : Parse α := fun c =>
  match c.ahead with
  | .group e body :: rest =>
    if d = e then
      (inside p body).map fun (a, printed) => (a, ⟨rest, .group e printed :: c.behind⟩)
    else none
  | _ => none

/-- Reads a group whose inside may be anything. -/
def anyGroup : Parse Delimiter := do
  match ← one with
  | .group d _ => return d
  | _ => failure

/-- Reads by a rule if it does not fail. -/
def attempt (p : Parse α) : Parse (Option α) := fun c =>
  match p c with
  | some (a, c) => some (some a, c)
  | none => some (none, c)

/-- What a rule reads and prints, not yet put after what has been read. -/
def captured (p : Parse α) : Parse (α × List Token) := fun c =>
  (p ⟨c.ahead, []⟩).map fun (a, d) => ((a, d.behind.reverse), ⟨d.ahead, c.behind⟩)

/-- Steps taken as long as each asks for another. The count bounds them. -/
def steps (step : σ → Parse (σ × Bool)) : Nat → σ → Parse σ
  | 0, _ => failure
  | n + 1, s => do
    let (s, more) ← step s
    if more then steps step n s else return s

/-- Steps taken as long as each asks for another, which it does only after it has read a token. -/
def repeated (step : σ → Parse (σ × Bool)) (s : σ) : Parse σ := do
  steps step ((← ahead).length + 1) s

/-- Elements up to a stop, with a mark between two of them and perhaps after the last. -/
def separated (sep : String) (stop : List Token → Bool) (p : Parse α) : Parse (List α) := do
  let found ← repeated (fun found => do
    if ← sees stop then return (found, false)
    let a ← p
    if ← sees stop then return (a :: found, false)
    mark sep
    return (a :: found, true)) []
  return found.reverse

/-- Elements up to the end, with a comma between two of them and perhaps after the last. -/
def commaList (p : Parse α) : Parse (List α) :=
  separated "," List.isEmpty p

/-- Elements up to the end, with nothing between them. -/
def untilEnd (p : Parse α) : Parse (List α) := do
  let found ← repeated (fun found => do
    if ← atEnd then return (found, false)
    let a ← p
    return (a :: found, true)) []
  return found.reverse

/-- The value of a rule on a whole sequence and what the rule printed. -/
def whole (p : Parse α) (ts : List Token) : Option (α × List Token) :=
  inside p ts

end Parse

end Switchboard.Source
