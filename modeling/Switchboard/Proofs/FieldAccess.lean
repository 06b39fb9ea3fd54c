import Mathlib.Data.List.Basic
import Switchboard.Conversion.Record
import Switchboard.Proofs.SortedMap

/-! Fields taken from a record and values put into one, in any order and failing or not. What has
been asked for is gone from the record that is read. A record that is written has what was put into
it last, and a value that was refused leaves no trace. -/

namespace Switchboard

namespace SortedMap

variable {α : Type}

/-- What is not under some keys. -/
def without (keys : List String) (m : SortedMap α) : SortedMap α :=
  m.filter fun e => e.1 ∉ keys

variable {m : SortedMap α} {key : String}

private theorem without_nil (m : SortedMap α) : without [] m = m := by
  simp [without]

private theorem get?_without (keys : List String) (m : SortedMap α) (k : String) :
    get? k (without keys m) = if k ∈ keys then none else get? k m := by
  induction m with
  | nil => simp [without, get?]
  | cons e m ih =>
    obtain ⟨l, a⟩ := e
    rw [without] at ih ⊢
    by_cases hl : l ∈ keys
    · rw [List.filter_cons_of_neg (by simpa using hl), ih, get?]
      by_cases he : l = k
      · rw [if_pos (he ▸ hl), if_pos (he ▸ hl)]
      · rw [if_neg he]
    · rw [List.filter_cons_of_pos (by simpa using hl), get?, get?, ih]
      by_cases he : l = k
      · rw [if_pos he, if_pos he, if_neg (he ▸ hl)]
      · rw [if_neg he, if_neg he]

private theorem erase_eq_without (h : Ascending m) (key : String) :
    erase key m = without [key] m := by
  induction m with
  | nil => rfl
  | cons e m ih =>
    obtain ⟨l, a⟩ := e
    obtain ⟨hl, hm⟩ := ascending_cons.mp h
    rw [erase, ih hm, without, without]
    split
    · next he =>
      -- the keys behind are greater, so none of them is erased
      have hne : ∀ e ∈ m, e.1 ≠ l := fun e hm he =>
        String.lt_irrefl l (he ▸ hl e.1 (List.mem_map_of_mem hm))
      rw [List.filter_cons_of_neg (by simp [he])]
      refine (List.filter_eq_self.mpr fun e hm => ?_).symm
      simpa [← he] using hne e hm
    · next hne => rw [List.filter_cons_of_pos (by simp [hne])]

private theorem ascending_without (h : Ascending m) (keys : List String) :
    Ascending (without keys m) :=
  List.Pairwise.sublist (List.filter_sublist.map Prod.fst) h

private theorem erase_without (h : Ascending m) (keys : List String) (key : String) :
    erase key (without keys m) = without (keys ++ [key]) m := by
  rw [erase_eq_without (ascending_without h keys), without, without, without, List.filter_filter]
  refine List.filter_congr fun e _ => ?_
  simp [not_or, Bool.and_comm]

end SortedMap

open SortedMap (Ascending without)

/-! ## Taking -/

namespace Fields

/-- A field that is to be taken as a value of some type. -/
structure Take where
  {α : Type}
  read : Json.Reader α
  field : String

abbrev Take.Reply (t : Take) : Type := Except ConversionError t.α

/-- Fields taken one after the other, with what comes of each. One that fails does not end it. -/
def takeEach (f : Fields) : List Take → List ((t : Take) × t.Reply) × Fields
  | [] => ([], f)
  | t :: rest =>
    match f.take t.read t.field with
    | (reply, f) =>
      match f.takeEach rest with
      | (replies, f) => (⟨t, reply⟩ :: replies, f)

/-- What comes of a value of a record for a type when it is taken. -/
def Take.reply (t : Take) (type : String) (j : Json) : t.Reply :=
  match t.read.ofValue j with
  | .ok a => .ok a
  | .error reason => .error (.field type t.field reason)

/-- The value of a field of a record from which others have been taken. A field that has been taken
once is missing. -/
def valueAfter (r : Record) (before : List String) (field : String) : Json :=
  if field ∈ before then .null else (SortedMap.get? field r).getD .null

variable {type : String} {r : Record}

private theorem value_without (keys : List String) (field : String) :
    value ⟨type, without keys r⟩ field = valueAfter r keys field := by
  rw [value, valueAfter, SortedMap.get?_without]
  split <;> rfl

private theorem take_eq (f : Fields) (t : Take) :
    f.take t.read t.field =
      (t.reply f.type (f.value t.field),
        { f with record := SortedMap.erase t.field f.record }) := by
  rw [take, Take.reply]
  cases t.read.ofValue (f.value t.field) <;> rfl

/-- One more field, whatever has been taken before. -/
theorem take_without (h : Ascending r) (before : List String) (t : Take) :
    take ⟨type, without before r⟩ t.read t.field =
      (t.reply type (valueAfter r before t.field), ⟨type, without (before ++ [t.field]) r⟩) := by
  rw [take_eq, value_without, SortedMap.erase_without h]

private theorem takeEach_without (h : Ascending r) (before : List String) (takes : List Take) :
    takeEach ⟨type, without before r⟩ takes =
      (takes.mapIdx fun i t =>
          ⟨t, t.reply type (valueAfter r (before ++ (takes.take i).map Take.field) t.field)⟩,
        ⟨type, without (before ++ takes.map Take.field) r⟩) := by
  -- what has been taken grows with each take, be it in vain
  induction takes generalizing before with
  | nil => simp [takeEach]
  | cons t rest ih =>
    rw [takeEach, take_without h]
    dsimp only
    rw [ih]
    simp [List.mapIdx_cons]

end Fields

/-! ## Putting -/

namespace RecordBuilder

/-- Values put into fields one after the other, with what comes of each. One that fails does not end
it. -/
def putEach (b : RecordBuilder) :
    List (String × Storable) → List (Except ConversionError Unit) × RecordBuilder
  | [] => ([], b)
  | (field, value) :: rest =>
    match b.put field value with
    | (reply, b) =>
      match b.putEach rest with
      | (replies, b) => (reply :: replies, b)

/-- What comes of a value when it is put into a field of a record for a type. -/
def reply (type field : String) (value : Storable) : Except ConversionError Unit :=
  match value.toJson with
  | .ok _ => .ok ()
  | .error reason => .error (.field type field reason)

/-- The last JSON form among those of the values that are put into a field. -/
def lastPut? (puts : List (String × Storable)) (field : String) : Option Json :=
  (puts.filterMap fun p => if p.1 = field then p.2.toJson.toOption else none).getLast?

private theorem lastPut?_cons (p : String × Storable) (puts : List (String × Storable))
    (field : String) :
    lastPut? (p :: puts) field =
      (lastPut? puts field).or (if p.1 = field then p.2.toJson.toOption else none) := by
  rw [lastPut?, lastPut?, List.filterMap_cons]
  split
  · next hn => rw [hn, Option.or_none]
  · next j hj =>
    rw [hj, List.getLast?_cons]
    cases List.getLast? _ <;> rfl

variable (b : RecordBuilder) (puts : List (String × Storable))

private theorem put_eq (field : String) (value : Storable) :
    b.put field value = (reply b.type field value,
      match value.toJson with
      | .ok j => { b with record := SortedMap.insert field j b.record }
      | .error _ => b) := by
  rw [put, reply]
  cases value.toJson <;> rfl

private theorem putEach_cons (field : String) (value : Storable) :
    b.putEach ((field, value) :: puts) =
      (reply b.type field value :: ((b.put field value).2.putEach puts).1,
        ((b.put field value).2.putEach puts).2) := by
  rw [putEach, put_eq]

private theorem type_put (field : String) (value : Storable) :
    (b.put field value).2.type = b.type := by
  rw [put_eq]
  cases value.toJson <;> rfl

/-- A value that has no JSON form changes nothing. -/
theorem put_of_error {value : Storable} {reason : Mismatch} (h : value.toJson = .error reason)
    (field : String) : (b.put field value).2 = b := by
  rw [put_eq, h]

/-- One more value is in its field, if it has a JSON form, and in no other. -/
theorem get?_put (field : String) (value : Storable) (k : String) :
    SortedMap.get? k (b.put field value).2.record =
      (if field = k then value.toJson.toOption else none).or (SortedMap.get? k b.record) := by
  rw [put_eq]
  cases value.toJson with
  | error reason => simp [Except.toOption]
  | ok j =>
    rw [SortedMap.get?_insert]
    by_cases hk : k = field
    · simp [hk, Except.toOption]
    · simp [hk, Ne.symm hk]

variable {b}

private theorem ascending_put (h : Ascending b.record) (field : String) (value : Storable) :
    Ascending (b.put field value).2.record := by
  rw [put_eq]
  cases value.toJson with
  | error reason => exact h
  | ok j => exact SortedMap.ascending_insert h

private theorem ascending_putEach (h : Ascending b.record) :
    Ascending (b.putEach puts).2.record := by
  induction puts generalizing b with
  | nil => exact h
  | cons p rest ih =>
    rw [putEach_cons]
    exact ih (ascending_put h p.1 p.2)

variable (b)

private theorem replies_putEach : (b.putEach puts).1 = puts.map fun p => reply b.type p.1 p.2 := by
  induction puts generalizing b with
  | nil => rfl
  | cons p rest ih => rw [putEach_cons, ih, type_put, List.map_cons]

private theorem get?_putEach (k : String) :
    SortedMap.get? k (b.putEach puts).2.record =
      (lastPut? puts k).or (SortedMap.get? k b.record) := by
  induction puts generalizing b with
  | nil => rfl
  | cons p rest ih => rw [putEach_cons, ih, get?_put, lastPut?_cons, Option.or_assoc]

/-- Values that are refused may as well not be put. -/
theorem putEach_filter :
    (b.putEach (puts.filter fun p => p.2.toJson.isOk)).2 = (b.putEach puts).2 := by
  induction puts generalizing b with
  | nil => rfl
  | cons p rest ih =>
    obtain ⟨field, value⟩ := p
    rw [putEach_cons]
    cases hv : value.toJson with
    | error reason =>
      rw [List.filter_cons_of_neg (by simp [hv, Except.isOk, Except.toBool]), ih,
        put_of_error b hv]
    | ok j =>
      rw [List.filter_cons_of_pos (by simp [hv, Except.isOk, Except.toBool]), putEach_cons, ih]

end RecordBuilder

/-- Each take of a field gives what the value of the field in the record is converted to if it is
the first of that field, and what null is converted to if not or if there is no such field, whether
others failed or not. An error names the type and the field. Left of the record is what has not been
asked for. In turn, a record into which values are put has in each field the value that was last put
there and has a JSON form, and no other fields. Values without a JSON form are refused with an error
that names the type and the field, and leave no trace. -/
theorem takes_and_puts (type : String) {r : Record} (h : Ascending r)
    (takes : List Fields.Take) (puts : List (String × Storable)) :
    (Fields.takeEach ⟨type, r⟩ takes).1 =
      takes.mapIdx (fun i t =>
        ⟨t, t.reply type
          (Fields.valueAfter r ((takes.take i).map Fields.Take.field) t.field)⟩) ∧
    (Fields.takeEach ⟨type, r⟩ takes).2 =
      ⟨type, r.filter fun e => e.1 ∉ takes.map Fields.Take.field⟩ ∧
    (RecordBuilder.putEach { type } puts).1 =
      puts.map (fun p => RecordBuilder.reply type p.1 p.2) ∧
    Ascending (RecordBuilder.putEach { type } puts).2.record ∧
    (∀ k, SortedMap.get? k (RecordBuilder.putEach { type } puts).2.record =
      RecordBuilder.lastPut? puts k) ∧
    (RecordBuilder.putEach { type } (puts.filter fun p => p.2.toJson.isOk)).2 =
      (RecordBuilder.putEach { type } puts).2 := by
  have htakes := @Fields.takeEach_without type r h [] takes
  simp only [SortedMap.without_nil, List.nil_append] at htakes
  refine ⟨congrArg Prod.fst htakes, congrArg Prod.snd htakes, RecordBuilder.replies_putEach _ puts,
    RecordBuilder.ascending_putEach puts SortedMap.ascending_nil, fun k => ?_,
    RecordBuilder.putEach_filter _ puts⟩
  rw [RecordBuilder.get?_putEach]
  exact Option.or_none

/-- A field that could not be read as a text is gone when it is asked for again, and a value that is
refused does not take the place of another. -/
theorem takes_and_puts_again :
    let r : Record := [("age", .int 3), ("name", .string "rex"), ("tag", .bool true)]
    let takes : List Fields.Take := [⟨.string, "age"⟩, ⟨.any, "age"⟩, ⟨.string, "name"⟩]
    let puts : List (String × Storable) :=
      [("x", .nothing), ("x", .json (.int 1)), ("y", .byList), ("x", .byList)]
    Ascending r ∧
    (Fields.takeEach ⟨"Pet", r⟩ takes).1 =
      [⟨⟨.string, "age"⟩, .error (.field "Pet" "age" (.wrongType (.int 3) "a string"))⟩,
        ⟨⟨.any, "age"⟩, .ok .null⟩, ⟨⟨.string, "name"⟩, .ok "rex"⟩] ∧
    (Fields.takeEach ⟨"Pet", r⟩ takes).2.record = [("tag", .bool true)] ∧
    SortedMap.get? "x" (RecordBuilder.putEach { type := "Pet" } puts).2.record = some (.int 1) ∧
    SortedMap.get? "y" (RecordBuilder.putEach { type := "Pet" } puts).2.record = none := by
  intro r takes puts
  have hr : Ascending r := by
    simp only [SortedMap.Ascending, r, SortedMap.keys]
    decide
  obtain ⟨hreplies, hrest, -, -, hput, -⟩ := takes_and_puts "Pet" hr takes puts
  exact ⟨hr, hreplies.trans rfl, (congrArg Fields.record hrest).trans rfl, (hput "x").trans rfl,
    (hput "y").trans rfl⟩

end Switchboard
