import Switchboard.Proofs.Quoting
import Switchboard.Source.Token

/-! The outline of source text: the items of a file, the functions and the fields between braces,
and the arms of a match. Each is a part of a sequence that ends at the first token of some kind
outside of angle brackets. -/

namespace Switchboard.Source.Outline

/-- A place in angle brackets: how deep it is, and whether the mark before it was the first of an
arrow, whose second mark is no bracket. -/
structure Angles where
  depth : Nat := 0
  arrow : Bool := false
deriving DecidableEq, Repr

/-- The place after a token. -/
def Angles.after (a : Angles) : Token → Angles
  | .mark '<' _ => ⟨a.depth + 1, false⟩
  | .mark '>' _ => if a.arrow then ⟨a.depth, false⟩ else ⟨a.depth - 1, false⟩
  | .mark '-' .joint | .mark '=' .joint => ⟨a.depth, true⟩
  | _ => ⟨a.depth, false⟩

/-- A part of a sequence and the token that ends it. -/
abbrev Part := List Token × Token

/-- The parts of a sequence and what is left after the last. `head` holds what was read of a part
that is not ended yet, in reverse. -/
def split (ends : Token → Bool) : Angles → List Token → List Token → List Part × List Token
  | _, head, [] => ([], head.reverse)
  | a, head, t :: rest =>
    if a.depth = 0 && ends t then
      let (found, left) := split ends {} [] rest
      ((head.reverse, t) :: found, left)
    else split ends (a.after t) (t :: head) rest

/-- The parts of a sequence that is all parts. -/
def parts? (ends : Token → Bool) (ts : List Token) : Option (List Part) :=
  match split ends {} [] ts with
  | (found, []) => some found
  | _ => none

def isKey (text : String) : Token → Bool
  | .word w => w.is text
  | _ => false

/-- The one item of a list that has no other. -/
def only? : List α → Option α
  | [a] => some a
  | _ => none

/-! Items -/

def endsItem : Token → Bool
  | .mark ';' _ | .group .brace _ => true
  | _ => false

/-- What follows the attributes in front. -/
def afterAttributes : List Token → List Token
  | .mark '#' _ :: .group .bracket _ :: rest => afterAttributes rest
  | ts => ts

/-- An item: the fields of a type, the functions of a type, or those by which it implements a trait.
-/
inductive Entry
  | struct (name : Word) (fields : List Token)
  | methods (type : Word) (functions : List Token)
  | implementation (trait : List Token) (type : Word) (functions : List Token)

/-- The item that a part is. A struct that is ended by a semicolon has no fields. -/
def entry? (part : Part) : Option Entry :=
  match afterAttributes part.1, part.2 with
  | [.word visibility, .word kind, .word name], last =>
    if visibility.is "pub" && kind.is "struct" then
      match last with
      | .group _ fields => some (.struct name fields)
      | _ => some (.struct name [])
    else none
  | .word kind :: rest, .group _ functions =>
    if kind.is "impl" then
      match rest.reverse with
      | [.word type] => some (.methods type functions)
      | .word type :: .word link :: trait =>
        if link.is "for" then some (.implementation trait.reverse type functions) else none
      | _ => none
    else none
  | _, _ => none

def entries? (ts : List Token) : Option (List Entry) :=
  (parts? endsItem ts).bind (List.mapM entry?)

namespace Entry

def struct? : Entry → Option (Word × List Token)
  | .struct name fields => some (name, fields)
  | _ => none

def methods? (type : Word) : Entry → Option (List Token)
  | .methods other functions => if other = type then some functions else none
  | _ => none

def words (ts : List Token) : List Word :=
  ts.filterMap fun
    | .word w => some w
    | _ => none

/-- The functions by which a type implements a trait with these names. -/
def implementation? (trait : List Word) (type : Word) : Entry → Option (List Token)
  | .implementation found other functions =>
    if words found = trait && other = type then some functions else none
  | _ => none

end Entry

/-! Functions and fields -/

/-- A function: what stands between its name and its body is its signature. -/
structure Function where
  name : Word
  signature : List Token
  body : List Token

/-- The function that a part is. -/
def function? : Part → Option Function
  | (head, .group _ body) =>
    match head.dropWhile fun t => !isKey "fn" t with
    | _ :: .word name :: signature => some ⟨name, signature, body⟩
    | _ => none
  | _ => none

def functions? (body : List Token) : Option (List Function) :=
  (parts? endsItem body).bind (List.mapM function?)

def isComma : Token → Bool
  | .mark ',' _ => true
  | _ => false

/-- A name and what follows its colon. -/
def field? : Part → Option (Word × List Token)
  | (.word name :: .mark ':' _ :: value, _) => some (name, value)
  | _ => none

/-- The fields between braces, a comma after each. -/
def fields? (body : List Token) : Option (List (Word × List Token)) :=
  (parts? isComma body).bind (List.mapM field?)

/-! Arms -/

/-- What an arm stands for: some texts, or all that no arm before it stands for. -/
inductive Pattern
  | keys (names : List String)
  | wildcard
deriving DecidableEq, Repr

structure Arm where
  pattern : Pattern
  body : List Token
deriving Repr

/-- Whether a token ends an arm: a comma, or the body if that is in braces. -/
def endsArm : Token → Bool
  | .mark ',' _ | .group .brace _ => true
  | _ => false

/-- What stands before and after the first arrow. -/
def arrow? : List Token → Option (List Token × List Token)
  | .mark '=' .joint :: .mark '>' _ :: rest => some ([], rest)
  | t :: rest => (arrow? rest).map fun (before, after) => (t :: before, after)
  | [] => none

/-- The texts that string literals with bars between them stand for. -/
def alternatives? : List Token → Option (List String)
  | [.literal key] => (stringValue? key).map fun name => [name]
  | .literal key :: .mark '|' _ :: rest =>
    match stringValue? key, alternatives? rest with
    | some name, some names => some (name :: names)
    | _, _ => none
  | _ => none

/-- The pattern that a sequence is. -/
def pattern? : List Token → Option Pattern
  | [.word w] => if w.is "_" then some .wildcard else none
  | ts => (alternatives? ts).map .keys

/-- The arm that a part is. -/
def arm? (part : Part) : Option Arm :=
  match arrow? part.1, part.2 with
  | some (before, []), .group d body =>
    (pattern? before).map fun pattern => ⟨pattern, [.group d body]⟩
  | some (before, t :: after), .mark _ _ =>
    (pattern? before).map fun pattern => ⟨pattern, t :: after⟩
  | _, _ => none

/-- The arms of a body that is one match on a variable. -/
def matchOn? (scrutinee : String) : List Token → Option (List Arm)
  | [.word w, .word subject, .group .brace body] =>
    if w.is "match" && subject.is scrutinee then (parts? endsArm body).bind (List.mapM arm?)
    else none
  | _ => none

/-- Whether a pattern stands for a text. -/
def Pattern.covers : Pattern → String → Bool
  | .keys names, name => names.contains name
  | .wildcard, _ => true

/-- The body of the first arm that stands for a text. -/
def chosen? (arms : List Arm) (name : String) : Option (List Token) :=
  (arms.find? fun a => a.pattern.covers name).map Arm.body

end Switchboard.Source.Outline
