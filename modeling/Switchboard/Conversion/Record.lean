import Switchboard.Conversion.Error
import Switchboard.Json.Reader

/-! Records: the fields of one object as JSON values. A reader takes fields from a record one at a
time, a builder puts them into one. -/

namespace Switchboard

abbrev Record := SortedMap Json

/-- A record from which fields are taken, and the type that it is for. -/
structure Fields where
  type : String
  record : Record

namespace Fields

/-- The value of a field. One that is missing reads as null, so that what may be left out can be. -/
def value (f : Fields) (field : String) : Json :=
  (SortedMap.get? field f.record).getD .null

/-- The converted value of a field, which is taken from the record even if it cannot be converted.
-/
def take (f : Fields) (read : Json.Reader α) (field : String) :
    Except ConversionError α × Fields :=
  let rest := { f with record := SortedMap.erase field f.record }
  match read.ofValue (f.value field) with
  | .ok a => (.ok a, rest)
  | .error reason => (.error (.field f.type field reason), rest)

/-- What is made of a field that is taken and of those after it. An error ends it. -/
def andThen (f : Fields) (read : Json.Reader α) (field : String)
    (next : α → Fields → Except ConversionError β) : Except ConversionError β :=
  match f.take read field with
  | (.ok a, f) => next a f
  | (.error e, _) => .error e

end Fields

/-- A value that is to be put into a record. -/
inductive Storable
  | json (j : Json)
  | whole (n : Int)
  /-- A number of double precision, nothing for one that is infinite or no number. -/
  | double (d : Option Double)
  | nothing
  /-- A map with one key, which is a number. -/
  | byNumber (key : Int) (value : Json)
  /-- A map with one key, which is a list. -/
  | byList
  /-- A value of a type that has no JSON form for it. -/
  | refused (reason : Mismatch)

/-- The value as JSON, if it has such a form. -/
def Storable.toJson : Storable → Except Mismatch Json
  | .json j => .ok j
  | .whole n => if Json.keepsInt n then .ok (.int n) else .error (.other "number out of range")
  | .double (some d) => .ok (.double d)
  | .double none | .nothing => .ok .null
  | .byNumber key value => .ok (.object [(toString key, value)])
  | .byList => .error (.other "key must be a string")
  | .refused reason => .error reason

/-- A record into which fields are put, and the type that it is for. -/
structure RecordBuilder where
  type : String
  record : Record := []

namespace RecordBuilder

/-- The record with a value in a field. Nothing changes if the value has no JSON form. -/
def put (b : RecordBuilder) (field : String) (value : Storable) :
    Except ConversionError Unit × RecordBuilder :=
  match value.toJson with
  | .ok j => (.ok (), { b with record := SortedMap.insert field j b.record })
  | .error reason => (.error (.field b.type field reason), b)

/-- The record with values in fields, one after the other, up to the first that has no JSON form. -/
def putAll (b : RecordBuilder) : List (String × Storable) → Except ConversionError Record
  | [] => .ok b.record
  | (field, value) :: rest =>
    match b.put field value with
    | (.ok _, b) => b.putAll rest
    | (.error e, _) => .error e

end RecordBuilder

end Switchboard
