import Mathlib.Data.Finset.Card
import Switchboard.Introspection.Catalogue
import Switchboard.Proofs.Recognition
import Switchboard.Proofs.SortedMap

/-! What a catalogue knows after any calls: of the definitions that have a path, those of all sources
that were read in the order in which they were met, the last one. A call that fails is as good as
none. -/

namespace Switchboard

open Source (Definition Item Word)

namespace Source

/-! ## Definitions of items -/

mutual
/-- The definitions of an item in order, each under the names of the modules that it is in, the
outermost first, and its own. -/
def Item.declared : Item → List (List Word × Definition)
  | .defines name d => [([name], d)]
  | .module name items => (declaredAll items).map fun e => (name :: e.1, e.2)
  | .other => []

/-- The definitions of items in order. -/
def Item.declaredAll : List Item → List (List Word × Definition)
  | [] => []
  | item :: items => item.declared ++ declaredAll items
end

/-- The shape of a struct without generic parameters. -/
def Definition.shape? : Definition → Option Constructor
  | .named fields => some (.named (fields.map Word.text))
  | .tuple arity => some (.tuple arity)
  | .unit => some .unit
  | .genericStruct | .enumeration | .union => none

/-- What a definition is. -/
def Definition.kind : Definition → String
  | .named _ | .tuple _ | .unit => "struct"
  | .genericStruct => "generic struct"
  | .enumeration => "enum"
  | .union => "union"

namespace Declaration

open Parse

variable {g : Grammar} {c d : Cursor} {item : Item}

/-- How an item begins after its visibility if it defines something or holds items that may: with
what it is and its name, and a module has its items in braces. -/
def Heads (ts : List Token) : Item → Prop
  | .defines w _ => w.isKeyword = false ∧ ∃ v rest, ts = .word v :: .word w :: rest ∧
      ["struct", "enum", "union"].any v.is = true
  | .module w _ => (w.isKeyword = false ∨ w.is "try" = true) ∧ ∃ v body rest,
      without ["unsafe"] ts = .word v :: .word w :: .group .brace body :: rest ∧ v.is "mod" = true
  | .other => True

private theorem eq_other_of_defining {p : Parse Unit} (h : defining p c = some (item, d)) :
    item = .other := by
  obtain ⟨_, _, h⟩ := Option.bind_eq_some_iff.mp h
  cases h
  rfl

/-- What defines a name begins with what it is and the name. -/
theorem heads_of_key {k : String} (hk : k ∈ ["struct", "enum", "union"]) {f : Word → Parse Item}
    (hf : ∀ w c, f w c = some (item, d) → ∃ e, item = .defines w e)
    (h : (do key k; let w ← ident; f w) c = some (item, d)) :
    ∃ w e, item = .defines w e ∧ Heads c.ahead item := by
  obtain ⟨⟨_, c₁⟩, hkey, h⟩ := Option.bind_eq_some_iff.mp h
  obtain ⟨⟨w, c₂⟩, hw, h⟩ := Option.bind_eq_some_iff.mp h
  obtain ⟨e, rfl⟩ := hf w c₂ h
  obtain ⟨v, hv, his⟩ := ahead_of_key hkey
  obtain ⟨hc, hplain⟩ := ahead_of_ident hw
  refine ⟨w, e, rfl, hplain, v, c₂.ahead, ?_, List.any_eq_true.mpr ⟨k, hk, his⟩⟩
  rw [hv, hc]

private theorem heads_structItem (h : structItem g c = some (item, d)) :
    ∃ w e, item = .defines w e ∧ Heads c.ahead item := by
  refine heads_of_key (by simp) (fun w c h => ?_) h
  obtain ⟨⟨parameters, _⟩, _, h⟩ := Option.bind_eq_some_iff.mp h
  obtain ⟨⟨body, _⟩, _, h⟩ := Option.bind_eq_some_iff.mp h
  cases h
  exact ⟨_, rfl⟩

private theorem eq_of_returned {α β γ : Type} {p : Parse α} {q : Parse β} {r : Parse γ}
    {found : Item}
    (h : (do let _ ← p; let _ ← q; let _ ← r; return found : Parse Item) c = some (item, d)) :
    item = found := by
  obtain ⟨_, _, h⟩ := Option.bind_eq_some_iff.mp h
  obtain ⟨_, _, h⟩ := Option.bind_eq_some_iff.mp h
  obtain ⟨_, _, h⟩ := Option.bind_eq_some_iff.mp h
  cases h
  rfl

private theorem heads_enumeration (h : enumeration g c = some (item, d)) :
    ∃ w e, item = .defines w e ∧ Heads c.ahead item :=
  heads_of_key (by simp) (fun _ _ h => ⟨_, eq_of_returned h⟩) h

private theorem heads_unionItem (h : unionItem g c = some (item, d)) :
    ∃ w e, item = .defines w e ∧ Heads c.ahead item :=
  heads_of_key (by simp) (fun _ _ h => ⟨_, eq_of_returned h⟩) h

private theorem without_of_key? {k : String} {found : Bool} (h : key? k c = some (found, d)) :
    without [k] c.ahead = d.ahead := by
  rw [without, List.any_cons, List.any_nil, Bool.or_false]
  rcases ahead_of_key? h with ⟨-, hkey⟩ | ⟨-, rfl, hn⟩
  · obtain ⟨v, hv, his⟩ := ahead_of_key hkey
    rw [hv, if_pos (by simpa [Ahead.key, Ahead.word?] using his)]
    rfl
  · rw [if_neg (by simp [hn])]

/-- The items of a file, or of a module between its braces. -/
def itemsRule (g : Grammar) : Parse (List Item) := do
  Path.innerAttributes g
  untilEnd do
    Path.outerAttributes g
    g.item

/-- What follows the name of a module: a semicolon if its items are in another file, or they. -/
theorem exists_of_moduleBody {w : Word} (h : (do
      if ← mark? ";" then return .other
      else
        let items ← members g do
          Path.outerAttributes g
          g.item
        return .module w items : Parse Item) c = some (item, d)) :
    item = .other ∨ ∃ items body printed, item = .module w items ∧
      c.ahead = .group .brace body :: d.ahead ∧ inside (itemsRule g) body = some (items, printed) := by
  obtain ⟨⟨found, f⟩, hf, hbody⟩ := Option.bind_eq_some_iff.mp h
  rcases ahead_of_mark? hf with ⟨rfl, -⟩ | ⟨rfl, rfl, -⟩
  · cases hbody
    exact .inl rfl
  · obtain ⟨⟨items, e⟩, hi, hitem⟩ := Option.bind_eq_some_iff.mp hbody
    cases hitem
    obtain ⟨body, printed, hb, hin⟩ := ahead_of_group hi
    exact .inr ⟨items, body, printed, rfl, hb, hin⟩

/-- A module that is read has no items here, or its name and its items in braces come next. A name
that is a keyword is that of a block that may fail. -/
theorem exists_of_moduleItem (h : moduleItem g c = some (item, d)) :
    item = .other ∨ ∃ v w items body printed, item = .module w items ∧ v.is "mod" = true ∧
      (w.isKeyword = false ∨ w.is "try" = true) ∧
      without ["unsafe"] c.ahead = .word v :: .word w :: .group .brace body :: d.ahead ∧
      inside (itemsRule g) body = some (items, printed) := by
  obtain ⟨⟨_, c₁⟩, hsafe, h⟩ := Option.bind_eq_some_iff.mp h
  obtain ⟨⟨_, c₂⟩, hkey, h⟩ := Option.bind_eq_some_iff.mp h
  obtain ⟨v, hv, his⟩ := ahead_of_key hkey
  obtain ⟨w, c₃, hname, hc, h⟩ : ∃ (w : Word) (c₃ : Cursor),
      (w.isKeyword = false ∨ w.is "try" = true) ∧ c₂.ahead = .word w :: c₃.ahead ∧
      (item = .other ∨ ∃ items body printed, item = .module w items ∧
        c₃.ahead = .group .brace body :: d.ahead ∧
        inside (itemsRule g) body = some (items, printed)) := by
    change (if Ahead.key "try" c₂.ahead then _ else _ : Parse Item) c₂ = _ at h
    split at h
    · rename_i ht
      obtain ⟨⟨w, c₃⟩, hw, h⟩ := Option.bind_eq_some_iff.mp h
      have hc := ahead_of_anyWord hw
      refine ⟨w, c₃, .inr ?_, hc, exists_of_moduleBody h⟩
      simpa [hc, Ahead.key, Ahead.word?] using ht
    · obtain ⟨⟨w, c₃⟩, hw, h⟩ := Option.bind_eq_some_iff.mp h
      exact ⟨w, c₃, .inl (ahead_of_ident hw).2, (ahead_of_ident hw).1, exists_of_moduleBody h⟩
  refine h.imp_right ?_
  rintro ⟨items, body, printed, hitem, hb, hin⟩
  exact ⟨v, w, items, body, printed, hitem, his, hname, by rw [without_of_key? hsafe, hv, hc, hb],
    hin⟩

private theorem heads_moduleItem (h : moduleItem g c = some (item, d)) : Heads c.ahead item := by
  obtain rfl | ⟨v, w, items, body, printed, rfl, his, hname, hc, -⟩ := exists_of_moduleItem h
  · trivial
  · exact ⟨hname, v, body, d.ahead, hc, his⟩

/-- An item is a module, or defines something and begins so, or else defines nothing. -/
theorem cases_itemRule {visible : Bool} {e : Cursor} (hv : visibility c = some (visible, d))
    (h : itemRule g c = some (item, e)) :
    item = .other ∨ moduleItem g d = some (item, e) ∨
      ∃ w f, item = .defines w f ∧ Heads d.ahead item := by
  obtain ⟨⟨_, _⟩, hv', h⟩ := Option.bind_eq_some_iff.mp h
  rw [hv] at hv'
  cases hv'
  have hother {p : Parse Unit} {P : Prop} (h : defining p d = some (item, e)) : item = .other ∨ P :=
    .inl (eq_other_of_defining h)
  have hlast {b : Bool} {p : Parse Unit} {P : Prop}
      (h : (do require b; defining p : Parse Item) d = some (item, e)) : item = .other ∨ P := by
    obtain ⟨⟨_, f⟩, _, h⟩ := Option.bind_eq_some_iff.mp h
    exact .inl (eq_other_of_defining h)
  refine of_ite h hother fun h => of_ite h hother fun h => of_ite h hlast fun h => ?_
  refine of_ite h hother fun h => of_ite h hother fun h => of_ite h hother fun h => ?_
  refine of_ite h hother fun h => of_ite h hother fun h => of_ite h (.inr ∘ .inl) fun h => ?_
  refine of_ite h hother fun h => of_ite h (.inr ∘ .inr ∘ heads_structItem) fun h => ?_
  refine of_ite h (.inr ∘ .inr ∘ heads_enumeration) fun h => ?_
  refine of_ite h (.inr ∘ .inr ∘ heads_unionItem) fun h => ?_
  exact of_ite h hother fun h => of_ite h hother hlast

/-- An item that defines something, or holds items that may, begins as such. All else, such as a
function, an implementation or a module that is written in another file, defines nothing. -/
theorem heads_itemRule {visible : Bool} {e : Cursor} (hv : visibility c = some (visible, d))
    (h : itemRule g c = some (item, e)) : Heads d.ahead item := by
  obtain rfl | h | ⟨w, f, -, h⟩ := cases_itemRule hv h
  · trivial
  · exact heads_moduleItem h
  · exact h

end Declaration

end Source

namespace Catalogue

open SortedMap (get? insert keys Ascending)

/-! ## Definitions by their paths -/

/-- The path of what has a name in modules, the module of a source in front of them. -/
def pathOf (module : String) (names : List Word) : SchemaPath :=
  .of (names.foldl (fun outer w => if outer.isEmpty then w.text else outer ++ "::" ++ w.text) module)

mutual
theorem definitions_eq (module : String) : (item : Item) →
    definitions module item = item.declared.map fun e => (pathOf module e.1, e.2)
  | .defines name d => rfl
  | .module name items => by
    rw [definitions, allDefinitions_eq, Item.declared, List.map_map]
    rfl
  | .other => rfl

private theorem allDefinitions_eq (module : String) : (items : List Item) →
    allDefinitions module items = (Item.declaredAll items).map fun e => (pathOf module e.1, e.2)
  | [] => rfl
  | item :: items => by
    rw [allDefinitions, definitions_eq, allDefinitions_eq, Item.declaredAll, List.map_append]
end

/-- The last of the definitions that a path has. -/
def latest? (found : List (SchemaPath × Definition)) (p : SchemaPath) : Option Definition :=
  (found.reverse.find? fun e => e.1 = p).map Prod.snd

theorem latest?_cons (e : SchemaPath × Definition) (found : List (SchemaPath × Definition))
    (p : SchemaPath) :
    latest? (e :: found) p = (latest? found p).or (if e.1 = p then some e.2 else none) := by
  rw [latest?, List.reverse_cons, List.find?_append, Option.map_or, latest?]
  by_cases h : e.1 = p <;> simp [h]

/-- A path has its latest definition, or else the one that it had. -/
theorem get?_define (catalogue : Catalogue) (found : List (SchemaPath × Definition))
    (p : SchemaPath) :
    get? p.text (catalogue.define found) = (latest? found p).or (get? p.text catalogue) := by
  induction found generalizing catalogue with
  | nil => rfl
  | cons e found ih =>
    have hstep : catalogue.define (e :: found) = define (insert e.1.text e.2 catalogue) found := rfl
    rw [hstep, ih, latest?_cons, Option.or_assoc, SortedMap.get?_insert]
    congr 1
    by_cases h : e.1 = p
    · rw [if_pos h, if_pos (by rw [h]), Option.some_or]
    · rw [if_neg h, if_neg fun ht => h (SchemaPath.text_inj.mp ht.symm), Option.none_or]

private theorem define_append (catalogue : Catalogue)
    (found later : List (SchemaPath × Definition)) :
    catalogue.define (found ++ later) = (catalogue.define found).define later :=
  List.foldl_append

private theorem ascending_define {catalogue : Catalogue} {found : List (SchemaPath × Definition)}
    (h : Ascending catalogue) : Ascending (catalogue.define found) :=
  List.foldlRecOn found _ h fun _ hi _ _ => SortedMap.ascending_insert hi

theorem isSome_latest?_iff {found : List (SchemaPath × Definition)} {p : SchemaPath} :
    (latest? found p).isSome = true ↔ p ∈ found.map Prod.fst := by
  simp [latest?]

/-- As many types are known as paths are defined. -/
theorem length_define (found : List (SchemaPath × Definition)) :
    (define [] found).length = (found.map Prod.fst).toFinset.card := by
  have hn : ((keys (define [] found)).map SchemaPath.mk).Nodup :=
    (ascending_define SortedMap.ascending_nil).nodup.map fun _ _ h => congrArg SchemaPath.text h
  have hm (p : SchemaPath) :
      p ∈ (keys (define [] found)).map SchemaPath.mk ↔ p ∈ found.map Prod.fst := by
    have ht : p ∈ (keys (define [] found)).map SchemaPath.mk ↔ p.text ∈ keys (define [] found) :=
      ⟨fun h => by obtain ⟨k, hk, rfl⟩ := List.mem_map.mp h; exact hk, List.mem_map_of_mem⟩
    rw [ht, ← SortedMap.isSome_get?_iff, get?_define, ← isSome_latest?_iff, get?, Option.or_none]
  calc (define [] found).length
      = ((keys (define [] found)).map SchemaPath.mk).length := by
        rw [keys, List.length_map, List.length_map]
    _ = ((keys (define [] found)).map SchemaPath.mk).toFinset.card :=
        (List.toFinset_card_of_nodup hn).symm
    _ = (found.map Prod.fst).toFinset.card := by rw [List.toFinset.ext hm]

/-! ## Calls -/

/-- A call that adds a source: the text of its root module, or a file with it. -/
inductive Call
  | source (module text : String)
  | file (t : FileTree) (here : Place) (module name : String)

namespace Call

/-- The module that the source of a call is the root of. -/
def module : Call → String
  | .source module _ => module
  | .file _ _ module _ => module

/-- The items of the source of a call, if it can be read and is source text. -/
def items? : Call → Option (List Item)
  | .source _ text => Source.items? text
  | .file t here _ name =>
    match FileAction.contents t here name with
    | .ok text => Source.items? text
    | .error _ => none

/-- The definitions that a call finds in order, each with its path. -/
def found (call : Call) : List (SchemaPath × Definition) :=
  match call.items? with
  | some items => (Item.declaredAll items).map fun e => (pathOf call.module e.1, e.2)
  | none => []

/-- What a call answers: the catalogue with the source, or why there is none. -/
def answer (catalogue : Catalogue) : Call → Except IntrospectionError Catalogue
  | .source module text => catalogue.addSource module text
  | .file t here module name => catalogue.addFile t here module name

/-- The catalogue after a call. One that fails leaves it as it is. -/
def after (catalogue : Catalogue) (call : Call) : Catalogue :=
  match call.answer catalogue with
  | .ok next => next
  | .error _ => catalogue

theorem addSource_eq (catalogue : Catalogue) (module text : String) :
    catalogue.addSource module text = match Source.items? text with
      | some items => .ok (catalogue.define
          ((Item.declaredAll items).map fun e => (pathOf module e.1, e.2)))
      | none => .error (.malformed module) := by
  rw [addSource]
  cases Source.items? text with
  | none => rfl
  | some items => simp only [allDefinitions_eq]

/-- A call succeeds just if its source can be read and is source text. -/
theorem answer_eq_ok_iff {call : Call} {catalogue next : Catalogue} :
    call.answer catalogue = .ok next ↔
      call.items?.isSome = true ∧ next = catalogue.define call.found := by
  have hs (text : String) (m : String) : catalogue.addSource m text = .ok next ↔
      (Source.items? text).isSome = true ∧ next = catalogue.define (found (.source m text)) := by
    rw [addSource_eq, found, items?]
    cases Source.items? text with
    | none => simp
    | some items => simp [eq_comm, module]
  cases call with
  | source m text => exact hs text m
  | file t here m name =>
    rw [answer, addFile, found, items?]
    cases FileAction.contents t here name with
    | error reason => simp
    | ok text => exact hs text m

private theorem answer_eq_error_iff {call : Call} {catalogue : Catalogue} :
    (∃ e, call.answer catalogue = .error e) ↔ call.items? = none := by
  cases h : call.answer catalogue with
  | ok next => simp [Option.ne_none_iff_isSome.mpr (answer_eq_ok_iff.mp h).1]
  | error e =>
    refine ⟨fun _ => Option.not_isSome_iff_eq_none.mp fun hs => ?_, fun _ => ⟨e, rfl⟩⟩
    rw [answer_eq_ok_iff.mpr ⟨hs, rfl⟩] at h
    cases h

/-- After a call what it finds is known, and that is nothing if it fails. -/
theorem after_eq (catalogue : Catalogue) (call : Call) :
    call.after catalogue = catalogue.define call.found := by
  unfold after
  cases h : call.answer catalogue with
  | ok next => exact (answer_eq_ok_iff.mp h).2
  | error e =>
    rw [found, answer_eq_error_iff.mp ⟨e, h⟩]
    rfl

end Call

/-- What is known after calls in turn, when nothing was known before. -/
def afterAll (calls : List Call) : Catalogue := calls.foldl Call.after []

private theorem foldl_after (catalogue : Catalogue) (calls : List Call) :
    calls.foldl Call.after catalogue = catalogue.define (calls.flatMap Call.found) := by
  induction calls generalizing catalogue with
  | nil => rfl
  | cons call calls ih => rw [List.foldl_cons, ih, Call.after_eq, List.flatMap_cons, define_append]

/-- Calls that fail add nothing to what the others find. -/
theorem flatMap_found_filter (calls : List Call) :
    (calls.filter fun call => call.items?.isSome).flatMap Call.found = calls.flatMap Call.found := by
  induction calls with
  | nil => rfl
  | cons call calls ih =>
    rw [List.flatMap_cons, ← ih, List.filter_cons]
    cases h : call.items? with
    | none => simp [Call.found, h]
    | some items => simp [List.flatMap_cons]

theorem introspector_eq (catalogue : Catalogue) (p : SchemaPath) :
    catalogue.introspector p = match get? p.text catalogue with
      | some d => match d.shape? with
        | some shape => .ok shape
        | none => .error (.unsupported p (d.kind ++ " has no single constructor"))
      | none => .error (.unknownType p) := by
  rw [introspector]
  cases get? p.text catalogue with
  | none => rfl
  | some d => cases d <;> rfl

/-- After any calls a path has the last definition of those that were found for it, in the order of
the calls and of the items of each. If it is a struct without generic parameters its shape is known,
if it is another definition that is said, and without one the path is unknown. As many types are
known as paths are defined. Calls fail just if their sources cannot be read, and without them the
same is known. Items that do not begin as definitions, or as modules with their items in braces,
define nothing. -/
theorem knows_latest (calls : List Call) :
    (∀ p, (afterAll calls).introspector p = match latest? (calls.flatMap Call.found) p with
      | some d => match d.shape? with
        | some shape => .ok shape
        | none => .error (.unsupported p (d.kind ++ " has no single constructor"))
      | none => .error (.unknownType p)) ∧
    (afterAll calls).length = ((calls.flatMap Call.found).map Prod.fst).toFinset.card ∧
    (∀ catalogue call, (∃ e, Call.answer catalogue call = .error e) ↔ call.items? = none) ∧
    afterAll calls = afterAll (calls.filter fun call => call.items?.isSome) ∧
    ∀ g c d e visible item, Source.Declaration.visibility c = some (visible, d) →
      Source.Declaration.itemRule g c = some (item, e) → Source.Declaration.Heads d.ahead item := by
  have hall (calls : List Call) : afterAll calls = define [] (calls.flatMap Call.found) :=
    foldl_after [] calls
  refine ⟨fun p => ?_, ?_, fun _ _ => Call.answer_eq_error_iff, ?_, fun _ _ _ _ _ _ => ?_⟩
  · rw [introspector_eq, hall, get?_define, get?, Option.or_none]
  · rw [hall, length_define]
  · rw [hall, hall, flatMap_found_filter]
  · exact Source.Declaration.heads_itemRule

end Catalogue

end Switchboard
