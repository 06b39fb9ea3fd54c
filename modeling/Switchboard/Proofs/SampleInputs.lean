import Switchboard.Proofs.Outline
import Switchboard.Proofs.Traversal
import Switchboard.Sample.Inputs
import Switchboard.Sample.Model

/-! What the texts of the sample schema say. The model has the groups of the schema, and the source
declares every struct with its fields and their types, so the source knows all constructors. -/

namespace Switchboard.Sample

open Source (Item Token)
open Source.Outline

/-- The structs that are claimed. -/
def structs : List Struct := members.flatMap Member.structs

theorem mem_structs {m : Member} {s : Struct} (h : s ∈ m.structs) : s ∈ structs :=
  List.mem_flatMap.mpr ⟨m, by cases m <;> simp [members], h⟩

/-! ## Declarations -/

/-- The type that tokens name, if fields have that type. -/
def FieldType.of? : List Token → Option FieldType
  | [.word name] =>
    if name.is "String" then some .string
    else if name.is "u8" then some .byte
    else if name.is "i64" then some .integer
    else if name.is "bool" then some .bool
    else if name.is "Address" then some .address
    else none
  | [.word outer, .mark '<' _, .word inner, .mark '>' _] =>
    if inner.is "String" then
      if outer.is "Option" then some .optional
      else if outer.is "Vec" then some .strings
      else none
    else none
  | _ => none

/-- How a struct is declared: its fields in order, each with its type. -/
structure Declaration where
  name : String
  shape : Shape
  fields : List Field
deriving DecidableEq

namespace Declaration

/-- What stands between commas. Nothing needs to follow the last comma. -/
def listed (body : List Token) : List (List Token) :=
  let (parts, left) := split isComma {} [] body
  parts.map Prod.fst ++ if left.isEmpty then [] else [left]

/-- A field that is told by its name. -/
def named? : List Token → Option Field
  | .word visibility :: .word name :: .mark ':' _ :: type =>
    if visibility.is "pub" then (FieldType.of? type).map (⟨name.text, ·⟩) else none
  | _ => none

/-- A field that is told by its place. -/
def placed? : Nat × List Token → Option Field
  | (place, .word visibility :: type) =>
    if visibility.is "pub" then (FieldType.of? type).map (⟨toString place, ·⟩) else none
  | _ => none

/-- The declaration that an item is. Attributes are passed over. -/
def of? (part : Part) : Option Declaration :=
  match afterAttributes part.1, part.2 with
  | .word visibility :: .word kind :: .word name :: fields, last =>
    if visibility.is "pub" && kind.is "struct" then
      match fields, last with
      | [], .group .brace body => ((listed body).mapM named?).map (⟨name.text, .named, ·⟩)
      | [.group .paren body], .mark ';' _ =>
        ((listed body).zipIdx.mapM fun (tokens, place) => placed? (place, tokens)).map
          (⟨name.text, .places, ·⟩)
      | [], .mark ';' _ => some ⟨name.text, .bare, []⟩
      | _, _ => none
    else none
  | _, _ => none

end Declaration

/-- The declarations among the items of a source. -/
def declarations (ts : List Token) : List Declaration :=
  (split endsItem {} [] ts).1.filterMap Declaration.of?

def Struct.declaration (s : Struct) : Declaration := ⟨s.name, s.shape, s.fields⟩

/-- Addresses, which are read from records as one value. -/
def Address.declaration : Declaration := ⟨"Address", .named, [⟨"city", .string⟩, ⟨"zip", .string⟩]⟩

/-! ## Reading

The texts are written out, so all that is read of them is computed, after the literals that they are
made of have been made lists of characters. -/

/-- The source declares the claimed structs, and addresses. -/
private def declaredStructs : List Declaration :=
  [Struct.pet.declaration, Struct.owner.declaration, Struct.tag.declaration,
    Struct.person.declaration, Address.declaration, Struct.pair.declaration,
    Struct.keyword.declaration, Struct.marker.declaration]

set_option maxRecDepth 100000 in
private theorem declarations_sourceText :
    (Source.scan sourceText).map declarations = some declaredStructs := by
  unfold Source.scan sourceText
  simp only [String.toList_append, List.append_assoc]
  repeat rw [String.toList_ofList]
  decide +kernel

/-- The source declares every claimed struct. -/
theorem exists_declared :
    ∃ ts, Source.scan sourceText = some ts ∧ ∀ s ∈ structs, s.declaration ∈ declarations ts := by
  have hall : ∀ s ∈ structs, s.declaration ∈ declaredStructs := by decide +kernel
  obtain ⟨ts, hts, hd⟩ := Option.map_eq_some_iff.mp declarations_sourceText
  exact ⟨ts, hts, hd ▸ hall⟩

/-- What the source makes known of the claimed structs. -/
private def answers (items : List Item) : List (Option Constructor) :=
  structs.map fun s =>
    ((Catalogue.define [] (Catalogue.allDefinitions root items)).introspector ⟨s.path⟩).toOption

set_option maxRecDepth 100000 in
private theorem answers_sourceText :
    (Source.items? sourceText).map answers = some (structs.map fun s => some s.constructor) := by
  unfold Source.items? sourceText
  simp only [String.toList_append, List.append_assoc]
  repeat rw [String.toList_ofList]
  decide +kernel

/-- The source knows the constructor of every struct. -/
theorem exists_sources : ∃ sources, Catalogue.addSource [] root sourceText = .ok sources ∧
    ∀ s ∈ structs, sources.introspector ⟨s.path⟩ = .ok s.constructor := by
  obtain ⟨items, hitems, ha⟩ := Option.map_eq_some_iff.mp answers_sourceText
  refine ⟨_, by rw [Catalogue.addSource, hitems], fun s hs => ?_⟩
  exact Traversal.eq_ok_of_toOption (List.map_inj_left.mp ha s hs)

/-- Whether a text is that of a value, told from its tree. -/
private def isTextOf {α : Type} [DecidableEq α] (read : Json.Reader α) (a : α) (cs : List Char) :
    Bool :=
  match Json.Scan.value (3 * cs.length + 3) cs with
  | (_, .error _) => false
  | (t, .ok rest) =>
    (Json.Scan.token rest).isEmpty &&
      match read .text t with
      | .ok b => decide (b = a)
      | .error _ => false

private theorem ofText_of_isTextOf {α : Type} [DecidableEq α] {read : Json.Reader α} {a : α}
    {text : String} (h : isTextOf read a text.toList = true) : read.ofText text = .ok a := by
  unfold isTextOf at h
  split at h
  case h_1 => cases h
  case h_2 t rest hv =>
    obtain ⟨hrest, hread⟩ := Bool.and_eq_true_iff.mp h
    split at hread
    case h_2 => cases hread
    case h_1 b hb =>
      obtain rfl := of_decide_eq_true hread
      simp only [Json.Reader.ofText, Json.Document.ofText, hv, hrest]
      rw [hb]
      rfl

set_option maxRecDepth 100000 in
/-- The model has the groups of the schema and no types of its own. -/
theorem ofText_modelText : Model.ofText modelText = .ok ⟨groups, []⟩ := by
  apply ofText_of_isTextOf
  unfold modelText
  simp only [String.toList_append, List.append_assoc]
  repeat rw [String.toList_ofList]
  decide +kernel

set_option maxRecDepth 100000 in
/-- The settings are the standard ones. -/
theorem ofText_settingsText : Config.ofText settingsText = .ok {} := by
  have h : (Config.ofText settingsText).toOption = some {} := by
    unfold Config.ofText Toml.parse settingsText
    simp only [String.toList_append, List.append_assoc]
    repeat rw [String.toList_ofList]
    decide +kernel
  exact Traversal.eq_ok_of_toOption h

/-- All that is read of the texts. -/
theorem exists_inputs : ∃ i, inputs = .ok i ∧ i.model = ⟨groups, []⟩ ∧ i.config = {} ∧
    ∀ s ∈ structs, i.sources.introspector ⟨s.path⟩ = .ok s.constructor := by
  obtain ⟨sources, hs, hknown⟩ := exists_sources
  refine ⟨⟨⟨groups, []⟩, sources, {}⟩, ?_, rfl, rfl, hknown⟩
  rw [inputs, ofText_modelText, hs, ofText_settingsText]
  rfl

end Switchboard.Sample
