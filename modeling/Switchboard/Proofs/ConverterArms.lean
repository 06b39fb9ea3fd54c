import Switchboard.Emission.Converter
import Switchboard.Proofs.OutlineLaws

/-! The arms of a converter. The body of an arm that makes an object says which field is taken for
which member, and that of an arm that writes one says which member is put under which field. -/

namespace Switchboard.Emission

open Source (Token Word)
open Source.Outline

/-- What stands between two sequences. -/
def between? (front back ts : List Token) : Option (List Token) :=
  (ts.dropPrefix? front).bind fun rest => rest.dropSuffix? back

def arguments? (function : String) (ts : List Token) : Option (List Token) :=
  match ts.dropPrefix? (code function) with
  | some [.group .paren body] => some body
  | _ => none

/-- The member that is written so. A place is written by its digits. -/
def member? : List Token → Option Member
  | [.word name] => some (.field name)
  | [.literal text] =>
    let index := Nat.ofDigitChars 10 text.toList 0
    if toString index = text then some (.place index) else none
  | _ => none

/-- How an object is made: its type, and its members in the order in which they are filled, each with
the field that is taken for it. -/
structure Assembly where
  type : List Token
  members : List (Member × String)
deriving DecidableEq, Repr

/-- How an object is written: its type, and the fields in the order in which they are put, each with
the member that is put under it. -/
structure Disassembly where
  type : List Token
  entries : List (String × Member)
deriving DecidableEq, Repr

namespace Assembly

/-- The field that a value is taken from. -/
def taken? (ts : List Token) : Option String :=
  match between? (code "fields . take") (code "?") ts with
  | some [.group .paren [.literal key]] => Source.stringValue? key
  | _ => none

/-- The members that are filled by their names. -/
def named? (body : List Token) : Option (List (Member × String)) :=
  (fields? body).bind (List.mapM fun (name, value) => (taken? value).map (.field name, ·))

/-- The members that are filled in their places. -/
def places? (body : List Token) : Option (List (Member × String)) :=
  ((parts? isComma body).bind (List.mapM fun part => taken? part.1)).map fun keys =>
    keys.zipIdx.map fun (key, index) => (.place index, key)

/-- An object that is made of its members. -/
def object? (ts : List Token) : Option Assembly :=
  match ts.reverse with
  | .group .brace body :: type => (named? body).map (⟨type.reverse, ·⟩)
  | .group .paren body :: type => (places? body).map (⟨type.reverse, ·⟩)
  | _ => none

def boxed? (ts : List Token) : Option Assembly :=
  ((arguments? ":: std :: result :: Result :: Ok" ts).bind
    (arguments? ":: std :: boxed :: Box :: new")).bind object?

def begun : List Token :=
  call "let mut fields = :: typemux :: core :: Fields :: new" (code "type_name , record") ++ code ";"

/-- The body of an arm that makes an object. -/
def of? (body : List Token) : Option Assembly :=
  match body with
  | [.group .brace ts] => (ts.dropPrefix? begun).bind boxed?
  | ts => boxed? ts

end Assembly

namespace Disassembly

/-- The type of an object that is asked to be of a type. -/
def downcast? (front : String) (back ts : List Token) : Option (List Token) :=
  between? (code front ++ code ":: typemux :: core :: downcast_payload :: <")
    (code ">" ++ paren (code "object , type_name") ++ back) ts

/-- The field that a member is put under. -/
def put? (part : Part) : Option (String × Member) :=
  match between? (code "record . put") (code "?") part.1 with
  | some [.group .paren (.literal key :: rest)] => do
    let key ← Source.stringValue? key
    let member ← (rest.dropPrefix? (code ", & object .")).bind member?
    return (key, member)
  | _ => none

def isSemicolon : Token → Bool
  | .mark ';' _ => true
  | _ => false

def begun : List Token :=
  call "let mut record = :: typemux :: core :: RecordBuilder :: new" (code "type_name")

def finished : List Token := call ":: std :: result :: Result :: Ok" (call "record . finish" [])

/-- What gives back a record without fields if the object is of its type. -/
def empty : List Token := call ". map" (call "| _ | :: typemux :: core :: Record :: new" [])

/-- The statements by which a record is made, and the result. -/
def statements? : List Part × List Token → Option Disassembly
  | (object :: record :: puts, result) =>
    if record.1 = begun ∧ result = finished then do
      return ⟨← downcast? "let object =" (code "?") object.1, ← puts.mapM put?⟩
    else none
  | _ => none

/-- The body of an arm that writes an object. If it has no statements, the record has no fields. -/
def of? (body : List Token) : Option Disassembly :=
  match body with
  | [.group .brace ts] => statements? (split isSemicolon {} [] ts)
  | ts => (downcast? "" empty ts).map (⟨·, []⟩)

end Disassembly

/-! What is emitted is read as it was meant. -/

private theorem dropPrefix?_append (front ts : List Token) :
    (front ++ ts).dropPrefix? front = some ts :=
  List.dropPrefix?_eq_some_iff.mpr ⟨front, rfl, beq_self_eq_true front⟩

private theorem between?_append (front back ts : List Token) :
    between? front back (front ++ ts ++ back) = some ts := by
  rw [between?, List.append_assoc, dropPrefix?_append, Option.bind_some]
  exact List.dropSuffix?_eq_some_iff.mpr ⟨back, rfl, beq_self_eq_true back⟩

private theorem arguments?_call (function : String) (body : List Token) :
    arguments? function (call function body) = some body := by
  rw [arguments?, call, dropPrefix?_append]
  rfl

private theorem member?_tokens (m : Member) : member? m.tokens = some m := by
  cases m with
  | field name => rfl
  | place index => simp [Member.tokens, member?]

namespace ConverterArm

private theorem taken?_taken (key : String) : Assembly.taken? (taken key) = some key := by
  have h := between?_append (code "fields . take") (code "?") (paren [.string key])
  rw [Assembly.taken?, taken, h]
  exact Source.stringValue?_source key

def putPart (entry : String × Member) : Part :=
  (code "record . put" ++ paren ([.string entry.1] ++ code ", & object ." ++ entry.2.tokens) ++
    code "?", .mark ';' .alone)

private theorem put?_putPart (entry : String × Member) :
    Disassembly.put? (putPart entry) = some entry := by
  obtain ⟨key, m⟩ := entry
  have h := between?_append (code "record . put") (code "?")
    (paren ([.string key] ++ code ", & object ." ++ m.tokens))
  have hm := dropPrefix?_append (code ", & object .") m.tokens
  rw [Disassembly.put?, putPart, h, List.append_assoc, List.singleton_append]
  generalize code ", & object ." ++ m.tokens = rest at hm
  change (Source.stringValue? (Text.Quoted.source key)).bind _ = _
  rw [Source.stringValue?_source, Option.bind_some, hm, Option.bind_some, member?_tokens]
  rfl

/-- Fields with members that can be filled in the same way: all by name, or all by place. -/
inductive Fills : (named : Bool) → List (String × Member) → Prop
  | named (pairs : List (String × Word)) : Fills true (pairs.map fun p => (p.1, .field p.2))
  | places (keys : List String) : Fills false (keys.zipIdx.map fun p => (p.1, .place p.2))

private theorem named?_taken (pairs : List (String × Word)) :
    Assembly.named? ((pairs.map fun p => (p.1, Member.field p.2)).flatMap fun e =>
        e.2.tokens ++ code ":" ++ taken e.1 ++ code ",") =
      some (pairs.map fun p => (.field p.2, p.1)) := by
  let part (e : String × Member) : Part := (e.2.tokens ++ code ":" ++ taken e.1, .mark ',' .alone)
  have hj := flatMap_eq_joined (fun e : String × Member => e.2.tokens ++ code ":" ++ taken e.1 ++
    code ",") part (fun _ => rfl) (pairs.map fun p => (p.1, Member.field p.2))
  have hf : fields? (joined ((pairs.map fun p => (p.1, Member.field p.2)).map part)) =
      some (pairs.map fun p => (p.2, taken p.1)) := by
    refine bind_parts?_joined ?_
    rw [List.map_map, List.forall₂_map_left_iff, List.forall₂_map_right_iff]
    exact List.forall₂_same.mpr fun _ _ => ⟨⟨fun _ _ => rfl, rfl⟩, rfl⟩
  rw [hj, Assembly.named?, hf, Option.bind_some]
  refine Traversal.mapM_eq_some ?_
  rw [List.forall₂_map_left_iff, List.forall₂_map_right_iff]
  exact List.forall₂_same.mpr fun p _ => by simp only [taken?_taken, Option.map_some]

private theorem places?_taken (entries : List (String × Member)) :
    Assembly.places? (entries.flatMap fun e => taken e.1 ++ code ",") =
      some ((entries.map Prod.fst).zipIdx.map fun (key, index) => (.place index, key)) := by
  have hj := flatMap_eq_joined (fun e : String × Member => taken e.1 ++ code ",")
    (fun e => (taken e.1, .mark ',' .alone)) (fun _ => rfl) entries
  have hk : (parts? isComma (joined (entries.map fun e => (taken e.1, .mark ',' .alone)))).bind
      (List.mapM fun part => Assembly.taken? part.1) = some (entries.map Prod.fst) := by
    refine bind_parts?_joined ?_
    rw [List.forall₂_map_left_iff, List.forall₂_map_right_iff]
    exact List.forall₂_same.mpr fun e _ => ⟨⟨fun _ _ => rfl, rfl⟩, taken?_taken e.1⟩
  rw [hj, Assembly.places?, hk, Option.map_some]

private theorem object?_brace (type body : List Token) :
    Assembly.object? (type ++ brace body) = (Assembly.named? body).map (⟨type, ·⟩) := by
  simp [Assembly.object?, brace]

private theorem object?_paren (type body : List Token) :
    Assembly.object? (type ++ paren body) = (Assembly.places? body).map (⟨type, ·⟩) := by
  simp [Assembly.object?, paren]

private theorem object?_construct (a : ConverterArm) {entries : List (String × Member)}
    (h : Fills a.named entries) :
    Assembly.object? (a.construct entries) = some ⟨a.type, entries.map Prod.swap⟩ := by
  unfold construct
  generalize a.named = named at h
  cases h with
  | named pairs =>
    rw [if_pos rfl, object?_brace, named?_taken, Option.map_some, List.map_map]
    rfl
  | places keys =>
    rw [if_neg Bool.false_ne_true, object?_paren, places?_taken, Option.map_some, List.map_map,
      List.map_map, Function.comp_def, List.zipIdx_map_fst]
    rfl

private theorem boxed?_boxed (object : List Token) :
    Assembly.boxed? (boxed object) = Assembly.object? object := by
  rw [Assembly.boxed?, boxed, arguments?_call, Option.bind_some, arguments?_call, Option.bind_some]

def decodeBody (a : ConverterArm) : List Token :=
  match a.fields with
  | some fields => brace (Assembly.begun ++ boxed (a.construct fields))
  | none => boxed (a.type ++ brace [])

def encodeBody (a : ConverterArm) : List Token :=
  match a.fields with
  | some fields =>
    brace (code "let object =" ++ a.downcast ++ code "? ;" ++ Disassembly.begun ++ code ";" ++
      fields.flatMap put ++ Disassembly.finished)
  | none => a.downcast ++ Disassembly.empty

private theorem assembly?_brace (ts : List Token) :
    Assembly.of? (brace ts) = (ts.dropPrefix? Assembly.begun).bind Assembly.boxed? := rfl

private theorem assembly?_boxed (object : List Token) :
    Assembly.of? (boxed object) = Assembly.object? object := by
  rw [← boxed?_boxed]
  rfl

theorem assembly?_decodeBody (a : ConverterArm) (h : Fills a.named (a.fields.getD [])) :
    Assembly.of? a.decodeBody = some ⟨a.type, (a.fields.getD []).map Prod.swap⟩ := by
  unfold decodeBody
  cases hf : a.fields with
  | some fields =>
    rw [hf] at h
    rw [assembly?_brace, dropPrefix?_append, Option.bind_some, boxed?_boxed]
    exact a.object?_construct h
  | none =>
    rw [assembly?_boxed, object?_brace]
    rfl

/-! Statements as parts -/

def objectPart (a : ConverterArm) : Part :=
  (code "let object =" ++ a.downcast ++ code "?", .mark ';' .alone)

def recordPart : Part := (Disassembly.begun, .mark ';' .alone)

private theorem downcast?_downcast (a : ConverterArm) (front : String) (back : List Token) :
    Disassembly.downcast? front back (code front ++ a.downcast ++ back) = some a.type := by
  have h := between?_append (code front ++ code ":: typemux :: core :: downcast_payload :: <")
    (code ">" ++ paren (code "object , type_name") ++ back) a.type
  rw [Disassembly.downcast?, ← h, downcast]
  simp only [List.append_assoc]

private theorem isPart_put (entry : String × Member) :
    IsPart Disassembly.isSemicolon (putPart entry) := ⟨fun _ _ => rfl, rfl⟩

private theorem passes_downcast (a : ConverterArm) (h : Balanced a.type) {ends : Token → Bool}
    (hopen : Passes ends {} ⟨1, false⟩ (code ":: typemux :: core :: downcast_payload :: <"))
    (hobject : Passes ends {} {} (paren (code "object , type_name"))) :
    Passes ends {} {} a.downcast := by
  have hclose : Passes ends ⟨1, false⟩ {} (code ">") := fun _ _ => rfl
  -- the type stands in angle brackets, where nothing ends a part
  exact passes_append (passes_append (passes_append hopen (h.bracketed _ 0)) hclose) hobject

private theorem isPart_object (a : ConverterArm) (h : Balanced a.type) :
    IsPart Disassembly.isSemicolon a.objectPart where
  passes := by
    have hfront : Passes Disassembly.isSemicolon {} {} (code "let object =") := fun _ _ => rfl
    have htry : Passes Disassembly.isSemicolon {} {} (code "?") := fun _ _ => rfl
    have hdowncast : Passes Disassembly.isSemicolon {} {} a.downcast :=
      a.passes_downcast h (fun _ _ => rfl) fun _ _ => rfl
    exact passes_append (passes_append hfront hdowncast) htry
  ended := rfl

private theorem isPart_record : IsPart Disassembly.isSemicolon recordPart := ⟨fun _ _ => rfl, rfl⟩

private theorem split_statements (a : ConverterArm) (h : Balanced a.type)
    (fields : List (String × Member)) :
    split Disassembly.isSemicolon {} [] (code "let object =" ++ a.downcast ++ code "? ;" ++
        Disassembly.begun ++ code ";" ++ fields.flatMap put ++ Disassembly.finished) =
      (a.objectPart :: recordPart :: fields.map putPart, Disassembly.finished) := by
  have htry : code "? ;" = code "?" ++ [.mark ';' .alone] := rfl
  have hend : code ";" = [.mark ';' .alone] := rfl
  have hput (e : String × Member) : put e = (putPart e).1 ++ [(putPart e).2] := by
    rw [put, htry, ← List.append_assoc]
    rfl
  have hj : code "let object =" ++ a.downcast ++ code "? ;" ++ Disassembly.begun ++ code ";" ++
        fields.flatMap put =
      joined (a.objectPart :: recordPart :: fields.map putPart) := by
    rw [flatMap_eq_joined put putPart hput, joined_cons, joined_cons, htry, hend, objectPart,
      recordPart]
    simp only [List.append_assoc, List.cons_append, List.nil_append]
  have hparts : ∀ part ∈ a.objectPart :: recordPart :: fields.map putPart,
      IsPart Disassembly.isSemicolon part := by
    rw [List.forall_mem_cons, List.forall_mem_cons, List.forall_mem_map]
    exact ⟨a.isPart_object h, isPart_record, fun entry _ => isPart_put entry⟩
  have hlast : split Disassembly.isSemicolon {} [] Disassembly.finished =
      ([], Disassembly.finished) := rfl
  rw [hj, split_joined hparts, hlast, List.append_nil]

private theorem disassembly?_brace (ts : List Token) :
    Disassembly.of? (brace ts) = Disassembly.statements? (split Disassembly.isSemicolon {} [] ts) :=
  rfl

private theorem disassembly?_downcast (a : ConverterArm) (ts : List Token) :
    Disassembly.of? (a.downcast ++ ts) =
      (Disassembly.downcast? "" Disassembly.empty (a.downcast ++ ts)).map (⟨·, []⟩) := rfl

theorem disassembly?_encodeBody (a : ConverterArm) (h : Balanced a.type) :
    Disassembly.of? a.encodeBody = some ⟨a.type, a.fields.getD []⟩ := by
  unfold encodeBody
  cases hf : a.fields with
  | some fields =>
    have hputs : (fields.map putPart).mapM Disassembly.put? = some fields := by
      refine Traversal.mapM_eq_some ?_
      rw [List.forall₂_map_left_iff]
      exact List.forall₂_same.mpr fun e _ => put?_putPart e
    rw [disassembly?_brace, a.split_statements h fields, Disassembly.statements?,
      if_pos ⟨rfl, rfl⟩, objectPart, downcast?_downcast, hputs]
    rfl
  | none =>
    have hd : Disassembly.downcast? "" Disassembly.empty (a.downcast ++ Disassembly.empty) =
        some a.type := a.downcast?_downcast "" Disassembly.empty
    rw [disassembly?_downcast, hd]
    rfl

theorem exists_decodePart (a : ConverterArm) :
    ∃ part : Part, a.decode = part.1 ++ [part.2] ∧ IsPart endsArm part ∧
      arm? part = some ⟨.keys [a.key], a.decodeBody⟩ := by
  unfold decode decodeBody
  cases a.fields with
  | some fields =>
    exact ⟨(a.keyTokens, .group .brace _), rfl, ⟨fun _ _ => rfl, rfl⟩,
      arm?_group (List.cons_ne_nil a.key []) .brace _⟩
  | none =>
    refine ⟨(a.keyTokens ++ boxed (a.type ++ brace []), .mark ',' .alone), rfl,
      ⟨fun _ _ => rfl, rfl⟩, ?_⟩
    exact arm?_comma (List.cons_ne_nil a.key []) _ _ ',' .alone

theorem exists_encodePart (a : ConverterArm) (h : Balanced a.type) :
    ∃ part : Part, a.encode = part.1 ++ [part.2] ∧ IsPart endsArm part ∧
      arm? part = some ⟨.keys [a.key], a.encodeBody⟩ := by
  unfold encode encodeBody
  cases a.fields with
  | some fields =>
    exact ⟨(a.keyTokens, .group .brace _), rfl, ⟨fun _ _ => rfl, rfl⟩,
      arm?_group (List.cons_ne_nil a.key []) .brace _⟩
  | none =>
    have hkey : Passes endsArm {} {} a.keyTokens := fun _ _ => rfl
    have hdowncast : Passes endsArm {} {} a.downcast :=
      a.passes_downcast h (fun _ _ => rfl) fun _ _ => rfl
    have hempty : Passes endsArm {} {} Disassembly.empty := fun _ _ => rfl
    refine ⟨(a.keyTokens ++ (a.downcast ++ Disassembly.empty), .mark ',' .alone), ?_,
      ⟨passes_append hkey (passes_append hdowncast hempty), rfl⟩, ?_⟩
    · rw [← List.append_assoc]
      rfl
    · exact arm?_comma (List.cons_ne_nil a.key []) _ _ ',' .alone

def decodeArm (a : ConverterArm) : Arm := ⟨.keys [a.key], a.decodeBody⟩

def encodeArm (a : ConverterArm) : Arm := ⟨.keys [a.key], a.encodeBody⟩

end ConverterArm

end Switchboard.Emission
