import Switchboard.Text.Printable

/-! Texts between double quotes. A quote, a backslash, a line end and every character that does not
show are escaped; the two ways of quoting differ in how they write the null character. -/

namespace Switchboard.Text.Quoted

/-- A character by its code point in braces. -/
def byCode (c : Char) : List Char :=
  ['\\', 'u', '{'] ++ Nat.toDigits 16 c.toNat ++ ['}']

/-- The written form of one character, the null character aside. -/
def escape (c : Char) : List Char :=
  match c with
  | '"' => ['\\', '"']
  | '\\' => ['\\', '\\']
  | '\n' => ['\\', 'n']
  | '\r' => ['\\', 'r']
  | '\t' => ['\\', 't']
  | c => if Printable.isPlain c then [c] else byCode c

/-- Whether a character would be read as a further digit of an octal escape. -/
def isOctal (c : Char) : Bool :=
  '0' ≤ c && c ≤ '7'

/-- The inside of a string literal of source text. The null character is `\0`, or `\x00` before
what could be read as another digit. -/
def sourceBody : List Char → List Char
  | [] => []
  | '\x00' :: rest =>
    (if rest.head?.any isOctal then ['\\', 'x', '0', '0'] else ['\\', '0']) ++ sourceBody rest
  | c :: rest => escape c ++ sourceBody rest

/-- A text as a string literal of source text. -/
def source (s : String) : String :=
  String.ofList ('"' :: sourceBody s.toList ++ ['"'])

/-- The inside of a text as messages show it. The null character is `\0`. -/
def messageBody : List Char → List Char
  | [] => []
  | '\x00' :: rest => ['\\', '0'] ++ messageBody rest
  | c :: rest => escape c ++ messageBody rest

/-- A text as messages show it. -/
def message (s : String) : String :=
  String.ofList ('"' :: messageBody s.toList ++ ['"'])

end Switchboard.Text.Quoted
