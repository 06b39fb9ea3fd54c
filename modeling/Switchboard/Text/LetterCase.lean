import Switchboard.Text.LetterCase.Table

/-! Upper and lower case of letters of every script. A character may become several, and a capital
sigma that ends a word has a lower case of its own. -/

namespace Switchboard.Text.LetterCase

/-- A run of code points that all move by one distance: those from `first` to `last`, `step` apart.
-/
def shift (runs : List (Nat × Nat × Nat × Int)) (n : Nat) : Option Nat :=
  match runs with
  | [] => none
  | (first, last, step, distance) :: rest =>
    if first ≤ n && n ≤ last && (n - first) % step == 0 then some (n + distance).toNat
    else shift rest n

/-- The characters that a character becomes under a table of long and of simple mappings. -/
def mapped (long : List (Nat × List Nat)) (runs : List (Nat × Nat × Nat × Int)) (c : Char) :
    List Char :=
  match long.lookup c.toNat with
  | some targets => targets.map Char.ofNat
  | none => match shift runs c.toNat with
    | some n => [Char.ofNat n]
    | none => [c]

/-- The lower case of one character, its neighbours disregarded. -/
def lowerChar (c : Char) : List Char :=
  if c.toNat < 128 then [c.toLower] else mapped loweringLong lowering c

def upperChar (c : Char) : List Char :=
  if c.toNat < 128 then [c.toUpper] else mapped raisingLong raising c

/-- Whether the first character that is not passed over has a case. -/
def nextIsCased (cs : List Char) : Bool :=
  match cs.dropWhile (fun c => ignorable.has c.toNat) with
  | [] => false
  | c :: _ => cased.has c.toNat

/-- The lower case of a text whose characters before it are `before`, the nearest first. -/
def lowerFrom (before : List Char) : List Char → List Char
  | [] => []
  | c :: rest =>
    let here :=
      if c == 'Σ' then (if nextIsCased before && !nextIsCased rest then ['ς'] else ['σ'])
      else lowerChar c
    here ++ lowerFrom (c :: before) rest

def lower (cs : List Char) : List Char :=
  lowerFrom [] cs

def upper (cs : List Char) : List Char :=
  cs.flatMap upperChar

/-- Whether a text is in upper case and has a lower one. -/
def isUpper (cs : List Char) : Bool :=
  cs != lower cs && cs == upper cs

/-- Whether a text is in lower case and has an upper one. -/
def isLower (cs : List Char) : Bool :=
  cs != upper cs && cs == lower cs

end Switchboard.Text.LetterCase
