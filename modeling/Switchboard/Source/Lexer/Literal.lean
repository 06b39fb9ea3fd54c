import Switchboard.Text.Identifier

/-! Literals of source text. Each function gives what is left of a text after the literal that it
begins with, or nothing if it does not begin with one. -/

namespace Switchboard.Source.Lexer

open Text

/-- The name that a text begins with, and what is left. -/
def name? : List Char → Option (List Char × List Char)
  | [] => none
  | c :: rest =>
    if Identifier.isStart c then
      some (c :: rest.takeWhile Identifier.isContinue, rest.dropWhile Identifier.isContinue)
    else none

/-- What is left after a suffix, which may be missing. -/
def afterSuffix (cs : List Char) : List Char :=
  match name? cs with
  | some (_, rest) => rest
  | none => cs

def isHex (c : Char) : Bool :=
  c.isDigit || ('a' ≤ c && c ≤ 'f') || ('A' ≤ c && c ≤ 'F')

def hexValue (c : Char) : Nat :=
  if c.isDigit then c.toNat - 48
  else if 'a' ≤ c && c ≤ 'f' then c.toNat - 87
  else c.toNat - 55

/-- What may stand between the quotes of a literal. -/
inductive Content
  | text
  | bytes
  | terminated
deriving DecidableEq, Repr

/-- The code point between braces, of one to six digits among which underscores may stand, and what
is left. -/
def codePoint (value digits : Nat) : List Char → Option (Nat × List Char)
  | [] => none
  | '}' :: rest => if digits == 0 then none else some (value, rest)
  | '_' :: rest => if digits == 0 then none else codePoint value digits rest
  | c :: rest =>
    if isHex c && digits < 6 then codePoint (value * 16 + hexValue c) (digits + 1) rest else none

/-- Whether a number is the code point of a character. -/
def isScalar (n : Nat) : Bool :=
  n < 0xd800 || (0xdfff < n && n < 0x110000)

/-- What is left after an escape whose backslash has been read. -/
def afterEscape (content : Content) : List Char → Option (List Char)
  | 'x' :: a :: b :: rest =>
    let fits := match content with
      | .text => '0' ≤ a && a ≤ '7' && isHex b
      | .bytes => isHex a && isHex b
      | .terminated => isHex a && isHex b && !(a == '0' && b == '0')
    if fits then some rest else none
  | 'u' :: '{' :: rest =>
    match codePoint 0 0 rest with
    | some (n, rest) =>
      if content != .bytes && isScalar n && !(content == .terminated && n == 0) then some rest
      else none
    | none => none
  | '0' :: rest => if content == .terminated then none else some rest
  | c :: rest => if ['n', 'r', 't', '\\', '\'', '"'].contains c then some rest else none
  | [] => none

/-- What is left after the line end and the blanks by which a backslash continues a line. -/
def afterContinuation : List Char → Option (List Char)
  | '\r' :: '\n' :: rest => afterContinuation rest
  | '\r' :: _ => none
  | c :: rest =>
    if c == ' ' || c == '\t' || c == '\n' then afterContinuation rest else some (c :: rest)
  | [] => none

/-- What is left after the closing quote of a text with escapes. The count bounds the characters
read. -/
def afterQuoted (content : Content) : Nat → List Char → Option (List Char)
  | 0, _ => none
  | _, [] => none
  | _ + 1, '"' :: rest => some (afterSuffix rest)
  | fuel + 1, '\r' :: '\n' :: rest => afterQuoted content fuel rest
  | _ + 1, '\r' :: _ => none
  | fuel + 1, '\\' :: rest =>
    let next := match rest with
      | '\n' :: _ | '\r' :: _ => afterContinuation rest
      | _ => afterEscape content rest
    match next with
    | some rest => afterQuoted content fuel rest
    | none => none
  | fuel + 1, c :: rest =>
    let fits := match content with
      | .text => true
      | .bytes => c.toNat < 128
      | .terminated => c != '\x00'
    if fits then afterQuoted content fuel rest else none

/-- Whether a text begins with a number of hash marks. -/
def hashes : Nat → List Char → Option (List Char)
  | 0, cs => some cs
  | n + 1, '#' :: rest => hashes n rest
  | _ + 1, _ => none

/-- What is left after the quote and hash marks that close a text without escapes. -/
def afterRaw (content : Content) (count : Nat) : List Char → Option (List Char)
  | [] => none
  | '\r' :: '\n' :: rest => afterRaw content count rest
  | '\r' :: _ => none
  | c :: rest =>
    let fits := match content with
      | .text => true
      | .bytes => c.toNat < 128
      | .terminated => c != '\x00'
    match c == '"', hashes count rest with
    | true, some rest => some (afterSuffix rest)
    | _, _ => if fits then afterRaw content count rest else none

/-- What is left after a text without escapes whose `r` has been read. -/
def raw? (content : Content) (cs : List Char) : Option (List Char) :=
  let count := (cs.takeWhile (· == '#')).length
  match cs.drop count with
  | '"' :: rest => if count ≤ 255 then afterRaw content count rest else none
  | _ => none

/-- What is left after a quoted literal of any kind. -/
def quoted? : List Char → Option (List Char)
  | '"' :: rest => afterQuoted .text (rest.length + 1) rest
  | 'r' :: rest => raw? .text rest
  | 'b' :: '"' :: rest => afterQuoted .bytes (rest.length + 1) rest
  | 'b' :: 'r' :: rest => raw? .bytes rest
  | 'c' :: '"' :: rest => afterQuoted .terminated (rest.length + 1) rest
  | 'c' :: 'r' :: rest => raw? .terminated rest
  | _ => none

/-- What is left after the closing quote of a character. -/
def afterTick : List Char → Option (List Char)
  | '\'' :: rest => some (afterSuffix rest)
  | _ => none

/-- What is left after a character or a byte between single quotes. -/
def character? : List Char → Option (List Char)
  | '\'' :: '\\' :: rest => (afterEscape .text rest).bind afterTick
  | '\'' :: _ :: rest => afterTick rest
  | 'b' :: '\'' :: '\\' :: rest => (afterEscape .bytes rest).bind afterTick
  | 'b' :: '\'' :: c :: rest => if c.toNat < 128 then afterTick rest else none
  | _ => none

/-- Whether a character may stand among the digits of a decimal number. -/
def isDigitOrGap (c : Char) : Bool :=
  c.isDigit || c == '_'

/-- What is left after an exponent whose letter has been read, or `before` if it has no digit. -/
def afterExponent (before : Option (List Char)) (signed valued : Bool) :
    List Char → Option (List Char)
  | [] => if valued then some [] else before
  | c :: rest =>
    if c == '+' || c == '-' then
      if valued then some (c :: rest)
      else if signed then before
      else afterExponent before true valued rest
    else if c.isDigit then afterExponent before signed true rest
    else if c == '_' then afterExponent before signed valued rest
    else if valued then some (c :: rest)
    else before

/-- What is left after the digits of a number with a point or an exponent. -/
def afterFloatDigits : List Char → Option (List Char)
  | [] => none
  | c :: rest =>
    if !c.isDigit then none
    else match rest.dropWhile isDigitOrGap with
      | '.' :: rest =>
        if rest.head?.any (fun d => d == '.' || Identifier.isStart d) then none
        else
          let rest := rest.dropWhile isDigitOrGap
          match rest with
          | 'e' :: later | 'E' :: later => afterExponent (some rest) false false later
          | _ => some rest
      | 'e' :: rest | 'E' :: rest => afterExponent none false false rest
      | _ => none

/-- What is left after the digits of a whole number in a base. -/
def afterDigits (base : Nat) (empty : Bool) : List Char → Option (List Char)
  | [] => if empty then none else some []
  | c :: rest =>
    if c.isDigit then
      if base ≤ hexValue c then none else afterDigits base false rest
    else if isHex c && hexValue c < base then afterDigits base false rest
    else if c == '_' then
      if empty && base == 10 then none else afterDigits base empty rest
    else if empty then none
    else some (c :: rest)

/-- What is left after the digits of a whole number, its base given by a prefix. -/
def afterIntDigits : List Char → Option (List Char)
  | '0' :: 'x' :: rest => afterDigits 16 true rest
  | '0' :: 'o' :: rest => afterDigits 8 true rest
  | '0' :: 'b' :: rest => afterDigits 2 true rest
  | cs => afterDigits 10 true cs

/-- A number with the suffix that may follow its digits; no identifier may go on after it. -/
def number? (digits : List Char → Option (List Char)) (cs : List Char) : Option (List Char) :=
  match digits cs with
  | none => none
  | some rest =>
    let rest := afterSuffix rest
    if rest.head?.any Identifier.isContinue then none else some rest

def literal? (cs : List Char) : Option (List Char) :=
  quoted? cs <|> character? cs <|> number? afterFloatDigits cs <|> number? afterIntDigits cs

end Switchboard.Source.Lexer
