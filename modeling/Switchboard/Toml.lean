import Switchboard.SortedMap
import Switchboard.Double

/-! TOML values, and how headers and dotted keys add to a document. A table that a header or a brace
has closed is not added to by dotted keys, and nothing is defined twice. -/

namespace Switchboard

/-- A number with a fraction or an exponent, or one of the words for what is no number. -/
inductive TomlFloat
  | finite (d : Double)
  | infinite (negative : Bool)
  | notANumber
deriving DecidableEq, Repr

/-- How a table came about. -/
inductive TableKind
  | implied
  | header
  | dotted
  | inline
deriving DecidableEq, Repr

/-- A TOML value. -/
inductive Toml
  | string (s : String)
  | int (n : Int)
  | float (f : TomlFloat)
  | bool (b : Bool)
  /-- A date, a time or both. -/
  | date
  | array (items : List Toml)
  | table (kind : TableKind) (entries : List (String × Toml))
  /-- An array of tables that headers add to, the latest first. -/
  | tables (latest : List (String × Toml)) (earlier : List (List (String × Toml)))
deriving Repr, Inhabited

namespace Toml

abbrev Entries := SortedMap Toml

/-- What is added at the end of a path, to a table that came about in some way. -/
abbrev Addition := TableKind → Entries → Option (TableKind × Entries)

/-- A document with an addition at the end of a path. The tables on the way are made where they are
missing; a dotted key passes only through tables that no header of their own has made. -/
def addAt (made : TableKind) (add : Addition) :
    List String → TableKind → Entries → Option (TableKind × Entries)
  | [], kind, entries => add kind entries
  | key :: path, kind, entries => do
    let inner ← match entries.get? key with
      | none => do
        let (k, e) ← addAt made add path made []
        some (Toml.table k e)
      | some (.table k e) =>
        if k == .inline || (made == .dotted && k == .header) then none
        else do
          let (k, e) ← addAt made add path k e
          some (.table k e)
      | some (.tables latest earlier) => do
        let (_, e) ← addAt made add path .header latest
        some (.tables e earlier)
      | some _ => none
    some (kind, entries.insert key inner)

/-- The addition of a value under a key that is not there yet. After dots the table must be one that
dotted keys have made, otherwise it must not. -/
def put (dotted : Bool) (key : String) (value : Toml) : Addition
  | kind, entries =>
    if (kind == .dotted) == dotted && !entries.has key then some (kind, entries.insert key value)
    else none

/-- Entries with a value under a dotted key. -/
def putDotted (path : List String) (key : String) (value : Toml) : Addition :=
  addAt .dotted (put (!path.isEmpty) key value) path

/-- The addition of a table by its header. -/
def openTable (key : String) : Addition
  | kind, entries =>
    match entries.get? key with
    | none => some (kind, entries.insert key (.table .header []))
    | some (.table .implied inner) => some (kind, entries.insert key (.table .header inner))
    | some _ => none

/-- The addition of one more table to an array of tables. -/
def openItem (key : String) : Addition
  | kind, entries =>
    match entries.get? key with
    | none => some (kind, entries.insert key (.tables [] []))
    | some (.tables latest earlier) =>
      some (kind, entries.insert key (.tables [] (latest :: earlier)))
    | some _ => none

end Toml

end Switchboard
