import Switchboard.Toml.Scalar
import Switchboard.Source.Lexer

/-! Reading a TOML document. -/

namespace Switchboard.Toml

def isBlank (c : Char) : Bool := c == ' ' || c == '\t'

def skipBlanks (cs : List Char) : List Char := cs.dropWhile isBlank

/-- What is left after a comment if there is one, up to the end of its line. -/
def skipComment (cs : List Char) : List Char :=
  match cs with
  | '#' :: rest => rest.dropWhile isPlain
  | _ => cs

/-- What is left after the end of a line. -/
def lineEnd? : List Char → Option (List Char)
  | [] => some []
  | '\n' :: rest => some rest
  | '\r' :: '\n' :: rest => some rest
  | _ => none

/-- What is left after blanks, comments and line ends. The count bounds them. -/
def skipLines : Nat → List Char → List Char
  | 0, cs => cs
  | n + 1, cs =>
    let here := skipComment (skipBlanks cs)
    match here with
    | [] => []
    | _ => match lineEnd? here with
      | some rest => skipLines n rest
      | none => here

def simpleKey? (cs : List Char) : Option (String × List Char) :=
  match cs with
  | '"' :: rest => (lineText '"' (rest.length + 1) rest).map fun (k, r) => (String.ofList k, r)
  | '\'' :: rest => (lineText '\'' (rest.length + 1) rest).map fun (k, r) => (String.ofList k, r)
  | _ =>
    match cs.takeWhile isBare with
    | [] => none
    | found => some (String.ofList found, cs.dropWhile isBare)

/-- A key with its parts, dots between them. -/
def key? : Nat → List Char → Option (List String × List Char)
  | 0, _ => none
  | n + 1, cs => do
    let (k, rest) ← simpleKey? (skipBlanks cs)
    match skipBlanks rest with
    | '.' :: rest =>
      let (ks, rest) ← key? n rest
      some (k :: ks, rest)
    | rest => some ([k], rest)

/-- The characters that may stand in a number or a date. A blank does only between a date and a
time. -/
def scalarChars (cs : List Char) : List Char × List Char :=
  let isPart (c : Char) : Bool := c.isAlphanum || ['+', '-', '_', '.', ':'].contains c
  let found := cs.takeWhile isPart
  let rest := cs.dropWhile isPart
  match rest with
  | ' ' :: later =>
    let time := later.takeWhile isPart
    if (day? found) == some [] && time.head?.any Char.isDigit then
      (found ++ ' ' :: time, later.dropWhile isPart)
    else (found, rest)
  | _ => (found, rest)

/-- How many brackets and braces may be open at once. -/
def maxDepth : Nat := 80

mutual
/-- A value in so many open brackets. The count bounds its steps. -/
def value? (depth : Nat) : Nat → List Char → Option (Toml × List Char)
  | 0, _ => none
  | n + 1, cs =>
    match cs with
    | '"' :: _ | '\'' :: _ => (text? cs).map fun (s, rest) => (.string s, rest)
    | '[' :: rest => do
      if maxDepth ≤ depth then none
      let (items, rest) ← items? (depth + 1) n rest
      some (.array items, rest)
    | '\x7b' :: rest => do
      if maxDepth ≤ depth then none
      let (entries, rest) ← entries? (depth + 1) n [] rest
      some (.table .inline entries, rest)
    | _ => do
      let (found, rest) := scalarChars cs
      let t ← scalar? found
      some (t, rest)

/-- The items of an array up to its closing bracket. -/
def items? (depth : Nat) : Nat → List Char → Option (List Toml × List Char)
  | 0, _ => none
  | n + 1, cs =>
    match skipLines cs.length cs with
    | ']' :: rest => some ([], rest)
    | cs => do
      let (t, rest) ← value? depth n cs
      match skipLines rest.length rest with
      | ',' :: rest => do
        let (ts, rest) ← items? depth n rest
        some (t :: ts, rest)
      | ']' :: rest => some ([t], rest)
      | _ => none

/-- The entries of a table in braces up to the closing one. -/
def entries? (depth : Nat) : Nat → Entries → List Char → Option (Entries × List Char)
  | 0, _, _ => none
  | n + 1, found, cs =>
    match skipLines cs.length cs with
    | '\x7d' :: rest => some (found, rest)
    | cs => do
      let (found, rest) ← entry? depth n found cs
      match skipLines rest.length rest with
      | ',' :: rest => entries? depth n found rest
      | '\x7d' :: rest => some (found, rest)
      | _ => none

/-- One key with its value, put into entries. -/
def entry? (depth : Nat) : Nat → Entries → List Char → Option (Entries × List Char)
  | 0, _, _ => none
  | n + 1, found, cs => do
    let (path, rest) ← key? cs.length cs
    let ('=' :: rest) := rest | none
    let (t, rest) ← value? depth n (skipBlanks rest)
    let key ← path.getLast?
    let (_, found) ← putDotted path.dropLast key t .inline found
    some (found, rest)
end

/-- What is left after blanks, a comment and the end of a line. -/
def closeLine? (cs : List Char) : Option (List Char) :=
  lineEnd? (skipComment (skipBlanks cs))

/-- A document as it is read: its entries and the table that keys are put into. -/
structure Draft where
  root : Entries
  current : List String

/-- The document with a header: the last part of its path is opened in the table before it. -/
def Draft.enter (d : Draft) (path : List String) (add : String → Addition) : Option Draft := do
  let key ← path.getLast?
  let (_, root) ← addAt .implied (add key) path.dropLast .header d.root
  some ⟨root, path⟩

/-- The document with a key and its value in the current table. -/
def Draft.put (d : Draft) (path : List String) (value : Toml) : Option Draft := do
  let key ← path.getLast?
  let (_, root) ← addAt .implied (putDotted path.dropLast key value) d.current .header d.root
  some { d with root }

/-- The lines of a document. The count bounds their number. -/
def lines? : Nat → Draft → List Char → Option Draft
  | 0, _, _ => none
  | n + 1, d, cs =>
    match skipLines cs.length cs with
    | [] => some d
    | '[' :: '[' :: rest => do
      let (path, rest) ← key? rest.length rest
      let (']' :: ']' :: rest) := rest | none
      let rest ← closeLine? rest
      let d ← d.enter path openItem
      lines? n d rest
    | '[' :: rest => do
      let (path, rest) ← key? rest.length rest
      let (']' :: rest) := rest | none
      let rest ← closeLine? rest
      let d ← d.enter path openTable
      lines? n d rest
    | cs => do
      let (path, rest) ← key? cs.length cs
      let ('=' :: rest) := rest | none
      let (t, rest) ← value? 0 (2 * cs.length + 2) (skipBlanks rest)
      let rest ← closeLine? rest
      let d ← d.put path t
      lines? n d rest

/-- The entries of a document, nothing if the text is none. -/
def parse (s : String) : Option Entries :=
  let cs := Source.Lexer.dropOrderMark s.toList
  (lines? (cs.length + 1) ⟨[], []⟩ cs).map Draft.root

end Switchboard.Toml
