import Switchboard.Json.Number

/-! JSON text as a tree that goes as far as the text can be read. A reader of the tree meets its
faults where they stand, so that what is wrong earlier in the text comes first. -/

namespace Switchboard.Json

/-- How the inside of brackets ends. -/
inductive Ending
  | closed
  /-- By a fault, perhaps after a comma. -/
  | broken (comma : Bool) (fault : Fault)
deriving DecidableEq, Repr, Inhabited

/-- JSON text as far as it can be read. A number or a text may be well formed and still have no
value. -/
inductive Tree
  | null
  | bool (b : Bool)
  | number (n : Except Fault Number)
  | string (s : Except Fault String)
  | array (items : List Tree) (ending : Ending)
  | object (entries : List (Tree × Tree)) (ending : Ending)
  /-- A fault where a value should stand. Something may have begun there. -/
  | broken (begun : Bool) (fault : Fault)
deriving Inhabited

namespace Tree

mutual
/-- The tree of a value. -/
def ofJson : Json → Tree
  | .null => .null
  | .bool b => .bool b
  | .int n => .number (.ok (.int n))
  | .double d => .number (.ok (.double d))
  | .string s => .string (.ok s)
  | .array items => .array (ofItems items) .closed
  | .object entries => .object (ofEntries entries) .closed

def ofItems : List Json → List Tree
  | [] => []
  | j :: rest => ofJson j :: ofItems rest

def ofEntries : List (String × Json) → List (Tree × Tree)
  | [] => []
  | (k, j) :: rest => (.string (.ok k), ofJson j) :: ofEntries rest
end

end Tree

/-- What is read of a text and what is left of it, or why nothing is. -/
abbrev Read (α : Type) := α × Except Fault (List Char)

namespace Scan

def isSpace (c : Char) : Bool :=
  c == ' ' || c == '\n' || c == '\t' || c == '\r'

/-- A text from its first token on. -/
def token (cs : List Char) : List Char := cs.dropWhile isSpace

def hexValue (c : Char) : Option Nat :=
  if c.isDigit then some (c.toNat - 48)
  else if 'a' ≤ c && c ≤ 'f' then some (c.toNat - 87)
  else if 'A' ≤ c && c ≤ 'F' then some (c.toNat - 55)
  else none

def bytes (cs : List Char) : Nat :=
  cs.foldl (fun n c => n + c.utf8Size) 0

/-- The number of four hexadecimal digits, and what is left. -/
def fourHex (cs : List Char) : Except Fault (Nat × List Char) :=
  match cs with
  | a :: b :: c :: d :: rest =>
    match hexValue a, hexValue b, hexValue c, hexValue d with
    | some a, some b, some c, some d => .ok (a * 4096 + b * 256 + c * 16 + d, rest)
    | _, _, _, _ => .error .malformed
  | _ => .error (if bytes cs < 4 then .ended else .malformed)

/-- The character of an escape of one letter. -/
def letterEscape : Char → Option Char
  | '"' => some '"'
  | '\\' => some '\\'
  | '/' => some '/'
  | 'b' => some '\x08'
  | 'f' => some '\x0c'
  | 'n' => some '\n'
  | 'r' => some '\r'
  | 't' => some '\t'
  | _ => none

/-- The second half of a character that takes two escapes, after the first half. -/
def lowHalf (high : Nat) (cs : List Char) : Except Fault (Char × List Char) :=
  match cs with
  | [] | ['\\'] => .error .ended
  | '\\' :: 'u' :: rest =>
    match fourHex rest with
    | .ok (low, rest) =>
      if 0xdc00 ≤ low ∧ low ≤ 0xdfff then
        .ok (.ofNat ((high - 0xd800) * 1024 + (low - 0xdc00) + 0x10000), rest)
      else .error .malformed
    | .error f => .error f
  | _ => .error .malformed

/-- The character of an escape by code, whose letter has been read, and what is left. -/
def codeEscape (cs : List Char) : Except Fault (Char × List Char) :=
  match fourHex cs with
  | .error f => .error f
  | .ok (n, rest) =>
    if 0xdc00 ≤ n ∧ n ≤ 0xdfff then .error .malformed
    else if 0xd800 ≤ n ∧ n ≤ 0xdbff then lowHalf n rest
    else .ok (.ofNat n, rest)

/-- The text up to the closing quote. The count bounds its length. -/
def text : Nat → List Char → Except Fault (List Char)
  | 0, _ | _, [] | _, ['\\'] => .error .ended
  | _, '"' :: _ => .ok []
  | n + 1, '\\' :: 'u' :: rest =>
    match codeEscape rest with
    | .ok (c, rest) => (text n rest).map (c :: ·)
    | .error f => .error f
  | n + 1, '\\' :: c :: rest =>
    match letterEscape c with
    | some c => (text n rest).map (c :: ·)
    | none => .error .malformed
  | n + 1, c :: rest =>
    if c.toNat < 32 then .error .malformed else (text n rest).map (c :: ·)

/-- What is left after the closing quote. Codes are not looked at. -/
def afterText : Nat → List Char → Except Fault (List Char)
  | 0, _ | _, [] | _, ['\\'] => .error .ended
  | _, '"' :: rest => .ok rest
  | n + 1, '\\' :: 'u' :: rest =>
    match fourHex rest with
    | .ok (_, rest) => afterText n rest
    | .error f => .error f
  | n + 1, '\\' :: c :: rest =>
    if (letterEscape c).isSome then afterText n rest else .error .malformed
  | n + 1, c :: rest => if c.toNat < 32 then .error .malformed else afterText n rest

/-- A text whose opening quote has been read. -/
def quoted (cs : List Char) : Read Tree :=
  (.string ((text cs.length cs).map String.ofList), afterText cs.length cs)

/-- A value spelled by letters. -/
def spelled (letters : List Char) (t : Tree) (cs : List Char) : Read Tree :=
  match letters, cs with
  | [], rest => (t, .ok rest)
  | _, [] => (.broken true .ended, .error .ended)
  | l :: letters, c :: rest =>
    if l = c then spelled letters t rest else (.broken true .malformed, .error .malformed)

mutual
/-- The value that a text begins with. The count bounds the nesting. -/
def value : Nat → List Char → Read Tree
  | 0, _ => (.broken true .malformed, .error .malformed)
  | n + 1, cs =>
    match token cs with
    | [] => (.broken false .ended, .error .ended)
    | 'n' :: rest => spelled "ull".toList .null rest
    | 't' :: rest => spelled "rue".toList (.bool true) rest
    | 'f' :: rest => spelled "alse".toList (.bool false) rest
    | '"' :: rest => quoted rest
    | '[' :: rest =>
      let (items, ending, after) := items n true rest
      (.array items ending, after)
    | '\x7b' :: rest =>
      let (entries, ending, after) := entries n true rest
      (.object entries ending, after)
    | c :: rest =>
      if c == '-' || c.isDigit then
        (.number ((Number.read (c :: rest)).map Prod.fst), Number.skip (c :: rest))
      else (.broken true .malformed, .error .malformed)

/-- The items up to the closing bracket, how they end and what is left. -/
def items : Nat → Bool → List Char → List Tree × Ending × Except Fault (List Char)
  | 0, _, _ => ([], .broken false .malformed, .error .malformed)
  | n + 1, first, cs =>
    let fails (comma : Bool) (f : Fault) : List Tree × Ending × Except Fault (List Char) :=
      ([], .broken comma f, .error f)
    match token cs, first with
    | [], _ => fails false .ended
    | ']' :: rest, _ => ([], .closed, .ok rest)
    | ',' :: rest, false =>
      match token rest with
      | [] => fails true .ended
      | ']' :: _ => fails true .malformed
      | cs => item n cs
    | cs, true => item n cs
    | _, false => fails false .malformed

/-- One item and those after it. -/
def item : Nat → List Char → List Tree × Ending × Except Fault (List Char)
  | 0, _ => ([], .broken false .malformed, .error .malformed)
  | n + 1, cs =>
    match value n cs with
    | (t, .error f) => ([t], .broken false f, .error f)
    | (t, .ok rest) =>
      let (later, ending, after) := items n false rest
      (t :: later, ending, after)

/-- The entries up to the closing brace, how they end and what is left. -/
def entries : Nat → Bool → List Char → List (Tree × Tree) × Ending × Except Fault (List Char)
  | 0, _, _ => ([], .broken false .malformed, .error .malformed)
  | n + 1, first, cs =>
    let fails (comma : Bool) (f : Fault) :
        List (Tree × Tree) × Ending × Except Fault (List Char) :=
      ([], .broken comma f, .error f)
    match token cs, first with
    | [], _ => fails false .ended
    | '\x7d' :: rest, _ => ([], .closed, .ok rest)
    | ',' :: rest, false =>
      match token rest with
      | [] => fails true .ended
      | '\x7d' :: _ => fails true .malformed
      | cs => entry n cs
    | cs, true => entry n cs
    | _, false => fails false .malformed

def entry : Nat → List Char → List (Tree × Tree) × Ending × Except Fault (List Char)
  | 0, _ => ([], .broken false .malformed, .error .malformed)
  | n + 1, cs =>
    let fails (key : Tree) (f : Fault) : List (Tree × Tree) × Ending × Except Fault (List Char) :=
      ([(key, .broken false f)], .broken false f, .error f)
    match cs with
    | '"' :: rest =>
      match quoted rest with
      | (key, .error f) => fails key f
      | (key, .ok rest) =>
        match token rest with
        | [] => fails key .ended
        | ':' :: rest =>
          match value n rest with
          | (t, .error f) => ([(key, t)], .broken false f, .error f)
          | (t, .ok rest) =>
            let (later, ending, after) := entries n false rest
            ((key, t) :: later, ending, after)
        | _ => fails key .malformed
    | cs => fails (value n cs).1 .malformed
end

end Scan

/-- A text as a tree, and how the text ends after it. -/
structure Document where
  tree : Tree
  ending : Ending

/-- The document of a text. -/
def Document.ofText (s : String) : Document :=
  let cs := s.toList
  match Scan.value (3 * cs.length + 3) cs with
  | (t, .error f) => ⟨t, .broken false f⟩
  | (t, .ok rest) => ⟨t, if (Scan.token rest).isEmpty then .closed else .broken false .malformed⟩

end Switchboard.Json
