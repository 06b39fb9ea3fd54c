import Switchboard.Source.Token
import Switchboard.Source.Lexer.Literal
import Switchboard.Text.Blank

/-! Reading source text as token trees. Blanks and comments fall between tokens; a documentation
comment becomes the attribute that it stands for. -/

namespace Switchboard.Source.Lexer

open Text

/-- What separates tokens: white space and the two marks of writing direction. -/
def isGap (c : Char) : Bool :=
  isBlank c || c == '\u200e' || c == '\u200f'

/-- The rest of a line and what comes after it. The line end itself is left. -/
def line : List Char → List Char × List Char
  | [] => ([], [])
  | '\n' :: rest => ([], '\n' :: rest)
  | '\r' :: '\n' :: rest => ([], '\n' :: rest)
  | c :: rest => let (here, rest) := line rest; (c :: here, rest)

/-- The inside of a block comment that is `depth` deep and what comes after it. Comments nest. -/
def block (depth : Nat) : List Char → Option (List Char × List Char)
  | '/' :: '*' :: rest =>
    (block (depth + 1) rest).map fun (here, rest) => ('/' :: '*' :: here, rest)
  | '*' :: '/' :: rest =>
    if depth ≤ 1 then some ([], rest)
    else (block (depth - 1) rest).map fun (here, rest) => ('*' :: '/' :: here, rest)
  | c :: rest => (block depth rest).map fun (here, rest) => (c :: here, rest)
  | [] => none

/-- What is left after a comment that documents nothing. -/
def plainComment? : List Char → Option (List Char)
  | '/' :: '/' :: '!' :: _ => none
  | '/' :: '/' :: '/' :: '/' :: rest => some (line rest).2
  | '/' :: '/' :: '/' :: _ => none
  | '/' :: '/' :: rest => some (line rest).2
  | '/' :: '*' :: '*' :: '/' :: rest => some rest
  | '/' :: '*' :: '!' :: _ => none
  | '/' :: '*' :: '*' :: '*' :: rest => (block 1 ('*' :: '*' :: rest)).map Prod.snd
  | '/' :: '*' :: '*' :: _ => none
  | '/' :: '*' :: rest => (block 1 rest).map Prod.snd
  | _ => none

/-- What is left after blanks and plain comments. The count bounds their number. -/
def skipGaps : Nat → List Char → List Char
  | 0, cs => cs
  | fuel + 1, cs =>
    match plainComment? cs with
    | some rest => skipGaps fuel rest
    | none => match cs with
      | c :: rest => if isGap c then skipGaps fuel rest else cs
      | [] => []

/-- Whether every carriage return is followed by a line feed. -/
def linesWellEnded : List Char → Bool
  | [] => true
  | '\r' :: '\n' :: rest => linesWellEnded rest
  | '\r' :: _ => false
  | _ :: rest => linesWellEnded rest

/-- A documentation comment: whether it is about what holds it, its text, and what is left. -/
def docComment? (cs : List Char) : Option (Bool × List Char × List Char) :=
  let found := match cs with
    | '/' :: '/' :: '!' :: rest => let (here, rest) := line rest; some (true, here, rest)
    | '/' :: '*' :: '!' :: rest => (block 1 rest).map fun (here, rest) => (true, here, rest)
    | '/' :: '/' :: '/' :: '/' :: _ => none
    | '/' :: '/' :: '/' :: rest => let (here, rest) := line rest; some (false, here, rest)
    | '/' :: '*' :: '*' :: '*' :: _ => none
    | '/' :: '*' :: '*' :: rest => (block 1 rest).map fun (here, rest) => (false, here, rest)
    | _ => none
  match found with
  | some (inner, here, rest) => if linesWellEnded here then some (inner, here, rest) else none
  | none => none

/-- The attribute that a documentation comment stands for. -/
def docTokens (inner : Bool) (text : List Char) : List Token :=
  [.mark '#' .alone] ++ (if inner then [.mark '!' .alone] else []) ++
    [.group .bracket [.word (.plain "doc"), .mark '=' .alone, .string (String.ofList text)]]

/-- The marks that tokens may be made of. -/
def markChars : List Char := "~!@#$%^&*-=+|;:,<.>/?'".toList

/-- The mark that a text begins with, if it does not begin a comment. -/
def mark? : List Char → Option (Char × List Char)
  | '/' :: '/' :: _ | '/' :: '*' :: _ => none
  | c :: rest => if markChars.contains c then some (c, rest) else none
  | [] => none

/-- The name that a text begins with, raw or not. -/
def word? : List Char → Option (Word × List Char)
  | 'r' :: '#' :: rest =>
    match name? rest with
    | some (name, rest) =>
      let text := String.ofList name
      if Word.neverRaw.contains text then none else some (⟨true, text⟩, rest)
    | none => none
  | cs => (name? cs).map fun (name, rest) => (.plain (String.ofList name), rest)

/-- What looks like the beginning of a quoted or raw literal is no name. -/
def beginsLiteral : List Char → Bool
  | 'r' :: '"' :: _ | 'r' :: '#' :: '"' :: _ | 'r' :: '#' :: '#' :: _ => true
  | 'b' :: '"' :: _ | 'b' :: '\'' :: _ | 'b' :: 'r' :: '"' :: _ | 'b' :: 'r' :: '#' :: _ => true
  | 'c' :: '"' :: _ | 'c' :: 'r' :: '"' :: _ | 'c' :: 'r' :: '#' :: _ => true
  | _ => false

/-- A mark with its spacing. A tick begins a lifetime, which no tick and no hash mark may end. -/
def markToken? (cs : List Char) : Option (Token × List Char) :=
  match mark? cs with
  | none => none
  | some ('\'', rest) =>
    match word? rest with
    | none => none
    | some (w, later) =>
      match later with
      | '\'' :: _ => none
      | '#' :: _ => if w.raw then some (.mark '\'' .joint, rest) else none
      | _ => some (.mark '\'' .joint, rest)
  | some (c, rest) =>
    some (.mark c (if (mark? rest).isSome then .joint else .alone), rest)

/-- A token that is no group. -/
def leaf? (cs : List Char) : Option (Token × List Char) :=
  match literal? cs with
  | some rest => some (.literal (String.ofList (cs.take (cs.length - rest.length))), rest)
  | none => markToken? cs <|>
    (if beginsLiteral cs then none else (word? cs).map fun (w, rest) => (.word w, rest))

def opens : Char → Option Delimiter
  | '(' => some .paren
  | '[' => some .bracket
  | '\x7b' => some .brace
  | _ => none

def closes : Char → Option Delimiter
  | ')' => some .paren
  | ']' => some .bracket
  | '\x7d' => some .brace
  | _ => none

/-- Token trees of a text. `outer` holds the groups still open with what was read before them, and
`done` what was read since, both in reverse. The count bounds the tokens read. -/
def scanFrom : Nat → List (Delimiter × List Token) → List Token → List Char → Option (List Token)
  | 0, _, _, _ => none
  | fuel + 1, outer, done, cs =>
    let cs := skipGaps cs.length cs
    match docComment? cs with
    | some (inner, text, rest) =>
      scanFrom fuel outer ((docTokens inner text).reverse ++ done) rest
    | none => match cs with
      | [] => if outer.isEmpty then some done.reverse else none
      | c :: rest =>
        match opens c, closes c with
        | some d, _ => scanFrom fuel ((d, done) :: outer) [] rest
        | none, some d => match outer with
          | (e, before) :: outer =>
            if d = e then scanFrom fuel outer (.group d done.reverse :: before) rest else none
          | [] => none
        | none, none => match leaf? cs with
          | some (t, rest) => scanFrom fuel outer (t :: done) rest
          | none => none

def scanChars (cs : List Char) : Option (List Token) :=
  scanFrom (cs.length + 1) [] [] cs

/-- A text without the byte order mark at its beginning. -/
def dropOrderMark : List Char → List Char
  | '\ufeff' :: rest => rest
  | cs => cs

end Lexer

/-- Token trees of a source text, nothing if it has none. A byte order mark is passed over. -/
def scan (text : String) : Option (List Token) :=
  Lexer.scanChars (Lexer.dropOrderMark text.toList)

end Switchboard.Source
