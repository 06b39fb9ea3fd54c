import Switchboard.Json
import Switchboard.Double.Shortest

/-! Writing JSON, compact or with one entry on a line. -/

namespace Switchboard.Json

/-- Two digits of a control character's code. -/
def controlCode (n : Nat) : List Char :=
  ['\\', 'u', '0', '0', if n < 16 then '0' else '1'] ++ (Nat.toDigits 16 (n % 16))

/-- The written form of one character between quotes. -/
def escape (c : Char) : List Char :=
  match c with
  | '"' => ['\\', '"']
  | '\\' => ['\\', '\\']
  | '\n' => ['\\', 'n']
  | '\r' => ['\\', 'r']
  | '\t' => ['\\', 't']
  | '\x08' => ['\\', 'b']
  | '\x0c' => ['\\', 'f']
  | c => if c.toNat < 32 then controlCode c.toNat else [c]

/-- A text between quotes. -/
def quote (s : String) : List Char :=
  '"' :: s.toList.flatMap escape ++ ['"']

mutual
/-- The written form without any blank. -/
def printChars : Json → List Char
  | .null => "null".toList
  | .bool b => (if b then "true" else "false").toList
  | .int n => (toString n).toList
  | .double d => d.written.toList
  | .string s => quote s
  | .array items => '[' :: printItems items ++ [']']
  | .object entries => '\x7b' :: printEntries entries ++ ['\x7d']

/-- The written form of items with a comma between two. -/
def printItems : List Json → List Char
  | [] => []
  | [j] => j.printChars
  | j :: rest => j.printChars ++ ',' :: printItems rest

/-- The written form of entries with a comma between two. -/
def printEntries : List (String × Json) → List Char
  | [] => []
  | [(k, j)] => quote k ++ ':' :: j.printChars
  | (k, j) :: rest => quote k ++ ':' :: j.printChars ++ ',' :: printEntries rest
end

/-- The written form without any blank. -/
def print (j : Json) : String :=
  String.ofList j.printChars

/-- A line end and the blanks that a line at a depth begins with. -/
def indent (depth : Nat) : List Char :=
  '\n' :: List.replicate (2 * depth) ' '

mutual
/-- The written form at a depth, one entry on a line. -/
def prettyChars (depth : Nat) : Json → List Char
  | .array [] => "[]".toList
  | .array items => '[' :: prettyItems (depth + 1) items ++ indent depth ++ [']']
  | .object [] => ['\x7b', '\x7d']
  | .object entries => '\x7b' :: prettyEntries (depth + 1) entries ++ indent depth ++ ['\x7d']
  | j => j.printChars

/-- Items, each on a line. -/
def prettyItems (depth : Nat) : List Json → List Char
  | [] => []
  | [j] => indent depth ++ prettyChars depth j
  | j :: rest => indent depth ++ prettyChars depth j ++ ',' :: prettyItems depth rest

/-- Entries, each on a line. -/
def prettyEntries (depth : Nat) : List (String × Json) → List Char
  | [] => []
  | [(k, j)] => indent depth ++ quote k ++ ": ".toList ++ prettyChars depth j
  | (k, j) :: rest =>
    indent depth ++ quote k ++ ": ".toList ++ prettyChars depth j ++ ',' :: prettyEntries depth rest
end

/-- The written form with one entry on a line, two blanks deeper at each level. -/
def pretty (j : Json) : String :=
  String.ofList (prettyChars 0 j)

end Switchboard.Json
