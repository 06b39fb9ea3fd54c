import Switchboard.Text.Blank

/-! Schema paths: the names of types, the modules they are in included. White space at the ends and
two colons in front are not part of a name. -/

namespace Switchboard

/-- The full name of a type. Types with equal texts are the same type. -/
structure SchemaPath where
  text : String
deriving DecidableEq, Repr, Inhabited

namespace SchemaPath

@[simp] theorem text_inj {p q : SchemaPath} : p.text = q.text ↔ p = q := by
  cases p
  cases q
  simp

/-- A text without two colons at its beginning. -/
def dropRoot : List Char → List Char
  | ':' :: ':' :: rest => rest
  | cs => cs

/-- The characters of the path that a text names. -/
def normal (cs : List Char) : List Char := dropRoot (Text.trimChars cs)

/-- The path that a text names: white space is taken from both ends, then two colons from the front.
-/
def of (s : String) : SchemaPath := ⟨String.ofList (normal s.toList)⟩

/-- What stands before and after the last two colons in a row. -/
def splitLast : List Char → Option (List Char × List Char)
  | [] => none
  | c :: rest =>
    match splitLast rest with
    | some (before, after) => some (c :: before, after)
    | none =>
      match c, rest with
      | ':', ':' :: after => some ([], after)
      | _, _ => none

/-- The text after the last two colons, or all of it. -/
def ident (p : SchemaPath) : String :=
  match splitLast p.text.toList with
  | some (_, after) => String.ofList after
  | none => p.text

/-- The text before the last two colons, if there are any. -/
def module? (p : SchemaPath) : Option String :=
  (splitLast p.text.toList).map fun (before, _) => String.ofList before

/-- The path of a name in a module. -/
def within (module name : String) : SchemaPath :=
  .of (if module.isEmpty then name else module ++ "::" ++ name)

end SchemaPath

end Switchboard
