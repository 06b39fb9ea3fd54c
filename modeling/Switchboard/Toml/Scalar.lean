import Switchboard.Toml
import Switchboard.Json.Tree

/-! Words, numbers, dates and texts of TOML. Each function gives what a text begins with and what is
left of it, or nothing. -/

namespace Switchboard.Toml

open Json.Scan (hexValue)

/-- Whether a character may stand in a comment or a text: no control character but the tab. -/
def isPlain (c : Char) : Bool :=
  c == '\t' || (0x20 ≤ c.toNat && c.toNat != 0x7f)

/-- Whether a character may stand in a key without quotes. -/
def isBare (c : Char) : Bool :=
  c.isAlphanum || c == '_' || c == '-'

def hexNumber (cs : List Char) : Option Nat :=
  cs.foldlM (fun n c => do return n * 16 + (← hexValue c)) 0

/-- The character whose code so many hexadecimal digits give. -/
def codeChar (count : Nat) (cs : List Char) : Option (Char × List Char) := do
  let digits := cs.take count
  if digits.length ≠ count then none
  let n ← hexNumber digits
  if n < 0xd800 || (0xdfff < n && n < 0x110000) then some (.ofNat n, cs.drop count) else none

/-- The character of an escape whose backslash has been read. -/
def escaped : List Char → Option (Char × List Char)
  | 'b' :: rest => some ('\x08', rest)
  | 't' :: rest => some ('\t', rest)
  | 'n' :: rest => some ('\n', rest)
  | 'f' :: rest => some ('\x0c', rest)
  | 'r' :: rest => some ('\r', rest)
  | 'e' :: rest => some ('\x1b', rest)
  | '"' :: rest => some ('"', rest)
  | '\\' :: rest => some ('\\', rest)
  | 'x' :: rest => codeChar 2 rest
  | 'u' :: rest => codeChar 4 rest
  | 'U' :: rest => codeChar 8 rest
  | _ => none

/-- A text of one line after its opening quote. The count bounds its length. -/
def lineText (quote : Char) : Nat → List Char → Option (List Char × List Char)
  | 0, _ | _, [] => none
  | n + 1, c :: rest =>
    if c == quote then some ([], rest)
    else if c == '\\' && quote == '"' then do
      let (c, rest) ← escaped rest
      let (found, rest) ← lineText quote n rest
      some (c :: found, rest)
    else if isPlain c then do
      let (found, rest) ← lineText quote n rest
      some (c :: found, rest)
    else none

/-- What is left after blanks and line ends. -/
def afterLines : List Char → List Char
  | '\r' :: '\n' :: rest => afterLines rest
  | c :: rest => if c == ' ' || c == '\t' || c == '\n' then afterLines rest else c :: rest
  | [] => []

/-- What is left after a backslash at the end of a line and the blank lines that follow. -/
def afterContinuation? (cs : List Char) : Option (List Char) :=
  match cs.dropWhile fun c => c == ' ' || c == '\t' with
  | '\n' :: rest => some (afterLines rest)
  | '\r' :: '\n' :: rest => some (afterLines rest)
  | _ => none

/-- A text of several lines after its opening quotes. Of five quotes at its end two belong to it. -/
def blockText (quote : Char) : Nat → List Char → Option (List Char × List Char)
  | 0, _ | _, [] => none
  | n + 1, c :: rest =>
    let go (c : Char) (rest : List Char) : Option (List Char × List Char) := do
      let (found, rest) ← blockText quote n rest
      some (c :: found, rest)
    if c == quote then
      let count := (rest.takeWhile (· == quote)).length + 1
      if count < 3 then go c rest
      else if count ≤ 5 then some (List.replicate (count - 3) quote, rest.drop (count - 1))
      else none
    else if c == '\\' && quote == '"' then
      match afterContinuation? rest with
      | some rest => blockText quote n rest
      | none => do
        let (c, rest) ← escaped rest
        go c rest
    else if c == '\r' then
      match rest with
      | '\n' :: _ => go c rest
      | _ => none
    else if isPlain c || c == '\n' then go c rest
    else none

def text? (cs : List Char) : Option (String × List Char) :=
  let block (quote : Char) (rest : List Char) : Option (List Char × List Char) :=
    let rest := match rest with
      | '\n' :: rest => rest
      | '\r' :: '\n' :: rest => rest
      | _ => rest
    blockText quote (rest.length + 1) rest
  let found := match cs with
    | '"' :: '"' :: '"' :: rest => block '"' rest
    | '\'' :: '\'' :: '\'' :: rest => block '\'' rest
    | '"' :: rest => lineText '"' (rest.length + 1) rest
    | '\'' :: rest => lineText '\'' (rest.length + 1) rest
    | _ => none
  found.map fun (found, rest) => (String.ofList found, rest)

/-- Digits of a base with single underscores between them, the underscores dropped. -/
def digits? (isDigit : Char → Bool) : List Char → Option (List Char)
  | [] => none
  | [c] => if isDigit c then some [c] else none
  | c :: '_' :: rest => if isDigit c then (digits? isDigit rest).map (c :: ·) else none
  | c :: rest => if isDigit c then (digits? isDigit rest).map (c :: ·) else none

def valueOf (base : Nat) (cs : List Char) : Nat :=
  cs.foldl (fun n c => n * base + (hexValue c).getD 0) 0

def fits (n : Int) : Bool :=
  decide (Bounds.signedLeast ≤ n) && decide (n ≤ Bounds.signedGreatest)

def whole (negative : Bool) (n : Nat) : Option Toml :=
  let n : Int := if negative then -n else n
  if fits n then some (.int n) else none

/-- A sign and what follows it. -/
def signOf : List Char → Bool × Bool × List Char
  | '+' :: rest => (true, false, rest)
  | '-' :: rest => (true, true, rest)
  | cs => (false, false, cs)

/-- The digits before a point or an exponent: no zero stands before others. -/
def wholeDigits? (cs : List Char) : Option (List Char) :=
  match digits? Char.isDigit cs with
  | some ('0' :: _ :: _) => none
  | found => found

/-- A number with a fraction or an exponent, after its sign. -/
def float? (negative : Bool) (cs : List Char) : Option Toml := do
  let isMark (c : Char) : Bool := c == 'e' || c == 'E'
  let mantissa := cs.takeWhile fun c => !isMark c
  let power : Int ← match cs.dropWhile fun c => !isMark c with
    | [] => some 0
    | _ :: rest =>
      let (_, isNegative, rest) := signOf rest
      (digits? Char.isDigit rest).map fun found =>
        let n : Int := valueOf 10 found
        if isNegative then -n else n
  let before ← wholeDigits? (mantissa.takeWhile (· != '.'))
  let after ← match mantissa.dropWhile (· != '.') with
    | [] => some []
    | _ :: rest => digits? Char.isDigit rest
  let significand := valueOf 10 (before ++ after)
  let exponent := power - after.length
  if significand = 0 then some (.float (.finite (.zero negative)))
  else if 400 < exponent + (before ++ after).length then none
  else if exponent + (before ++ after).length < -400 then some (.float (.finite (.zero negative)))
  else do
    let d ← Double.ofDecimal negative significand exponent
    some (.float (.finite d))

def number? (cs : List Char) : Option Toml :=
  let (signed, negative, rest) := signOf cs
  match rest with
  | ['i', 'n', 'f'] => some (.float (.infinite negative))
  | ['n', 'a', 'n'] => some (.float .notANumber)
  | '0' :: 'x' :: rest =>
    if signed then none else (digits? (fun c => (hexValue c).isSome) rest).bind fun found =>
      whole false (valueOf 16 found)
  | '0' :: 'o' :: rest =>
    if signed then none else (digits? (fun c => '0' ≤ c && c ≤ '7') rest).bind fun found =>
      whole false (valueOf 8 found)
  | '0' :: 'b' :: rest =>
    if signed then none else (digits? (fun c => c == '0' || c == '1') rest).bind fun found =>
      whole false (valueOf 2 found)
  | rest =>
    if rest.any fun c => c == '.' || c == 'e' || c == 'E' then float? negative rest
    else (wholeDigits? rest).bind fun found => whole negative (valueOf 10 found)

def fixed? (count : Nat) (cs : List Char) : Option (Nat × List Char) :=
  let found := cs.take count
  if found.length = count ∧ found.all Char.isDigit then some (valueOf 10 found, cs.drop count)
  else none

def daysIn (year month : Nat) : Nat :=
  if month == 2 then (if year % 4 == 0 && (year % 100 != 0 || year % 400 == 0) then 29 else 28)
  else if [4, 6, 9, 11].contains month then 30 else 31

/-- What is left after a day. -/
def day? (cs : List Char) : Option (List Char) := do
  let (year, rest) ← fixed? 4 cs
  let ('-' :: rest) := rest | none
  let (month, rest) ← fixed? 2 rest
  let ('-' :: rest) := rest | none
  let (day, rest) ← fixed? 2 rest
  if 1 ≤ month ∧ month ≤ 12 ∧ 1 ≤ day ∧ day ≤ daysIn year month then some rest else none

/-- What is left after a time of the day, the seconds of which may be missing. -/
def time? (cs : List Char) : Option (List Char) := do
  let (hour, rest) ← fixed? 2 cs
  let (':' :: rest) := rest | none
  let (minute, rest) ← fixed? 2 rest
  if 23 < hour ∨ 59 < minute then none
  match rest with
  | ':' :: rest =>
    let (second, rest) ← fixed? 2 rest
    if 60 < second then none
    match rest with
    | '.' :: rest =>
      if rest.head?.any Char.isDigit then some (rest.dropWhile Char.isDigit) else none
    | _ => some rest
  | _ => some rest

/-- Whether a text is the distance of a time from the common one. -/
def isOffset (cs : List Char) : Bool :=
  match cs with
  | [] | ['Z'] | ['z'] => true
  | s :: rest =>
    (s == '+' || s == '-') && (do
      let (hour, rest) ← fixed? 2 rest
      let (':' :: rest) := rest | none
      let (minute, rest) ← fixed? 2 rest
      return hour ≤ 23 && minute ≤ 59 && rest.isEmpty : Option Bool) == some true

/-- Whether a text is a date, a time or both. -/
def isDate (cs : List Char) : Bool :=
  match day? cs with
  | some [] => true
  | some (d :: rest) =>
    (d == 'T' || d == 't' || d == ' ') && (time? rest).any isOffset
  | none => (time? cs).any List.isEmpty

/-- A word, a number or a date that makes up all of a text. -/
def scalar? (cs : List Char) : Option Toml :=
  if cs == "true".toList then some (.bool true)
  else if cs == "false".toList then some (.bool false)
  else if isDate cs then some .date
  else number? cs

end Switchboard.Toml
