import Switchboard.Proofs.DispatcherSource
import Switchboard.Proofs.DispatcherText
import Switchboard.Proofs.Mounting
import Switchboard.Proofs.PrintedText

/-! Every generated file is a source file: a converter if its types are paths without arguments, the
dispatcher if its namespace is one, and the index always. -/

namespace Switchboard

open Source Source.Parse
open Source (Token Word)

/-! ## Files -/

namespace Emission

variable {n : Nat} {ts rest : List Token}

/-- All items of a file. -/
abbrev fileRule (g : Grammar) : Parse (List Item) := do
  Path.innerAttributes g
  untilEnd (Declaration.attributed g)

/-- A generated text is read as its tokens are. -/
theorem items?_contents (hl : Legible ts) (hne : ts ≠ []) :
    Source.items? (contents ts) = (recognise fileRule ts).map Prod.fst := by
  obtain ⟨cs, hcs⟩ : ∃ cs, (contents ts).toList = '/' :: '/' :: cs := by
    simp [contents, header]
  have hscan := Source.scanChars_contents hl hne
  have hfile : Source.items? (contents ts) = (Lexer.scanChars (contents ts).toList).bind fun ts =>
      (recognise fileRule ts).bind fun found => some found.1 := by
    -- no mark and no line for an interpreter stands in front of the header
    rw [Source.items?, hcs]
    rfl
  rw [hfile, hscan, Option.bind_some, Option.map_eq_bind]
  rfl

/-- A generated text is a source file if its tokens can be read again and are items in a row. -/
theorem isSome_items?_contents (hl : Legible ts) (hne : ts ≠ [])
    (hi : Expression.beginsInner ts = false)
    (hs : ∀ n, Sequenced (Declaration.attributed (.upTo (n + 16))) ts) :
    (Source.items? (contents ts)).isSome = true := by
  rw [items?_contents hl hne, Option.isSome_map]
  obtain ⟨t, us, rfl⟩ := List.exists_cons_of_ne_nil hne
  -- there is a token, so the count of nested rules is large enough
  obtain ⟨n, hn⟩ : ∃ n, 8 * Token.sizeAll (t :: us) + 8 = n + 16 := by
    have ht : 1 ≤ t.size := by cases t <;> simp [Token.size]
    refine ⟨8 * (t.size + Token.sizeAll us) - 8, ?_⟩
    rw [Token.sizeAll]
    omega
  obtain ⟨items, hitems⟩ := (hs n).accepts
  have hread : Reads (fileRule (.upTo (n + 16))) (t :: us) items [] :=
    .next (Expression.reads_innerAttributes_stop hi) hitems
  obtain ⟨behind, hrun⟩ := hread.exists_eq []
  rw [recognise, hn]
  simp [whole, inside, hrun]

/-! ## The index -/

variable (base : IncludeBase)

private theorem accepts_include (path : String) (rest : List Token) :
    Accepts (Declaration.attributed (.upTo (n + 14))) (includeFile base path ++ rest) rest := by
  unfold includeFile Token.string
  cases base with
  | outDir =>
    generalize Text.Quoted.source ("/" ++ path) = text
    exact ⟨.other, fun _ => by cbv⟩
  | relative =>
    generalize Text.Quoted.source path = text
    exact ⟨.other, fun _ => by cbv⟩

private theorem legible_include (path : String) : Legible (includeFile base path) := by
  cases base with
  | outDir =>
    refine .append (.append ?_ (legible_group _ (.append ?_ (legible_group _ (.append (.append
      (.append ?_ (legible_group _ (legible_string _))) ?_) (legible_string _)))))) ?_
    all_goals exact legible_code (by rfl)
  | relative =>
    exact .append (.append (legible_code (by rfl)) (legible_group _ (legible_string path)))
      (legible_code (by rfl))

/-- A module that includes a file is read as an item. -/
theorem accepts_mount {w : Word} (hw : w.IsName) (path : String) (rest : List Token) :
    Accepts (Declaration.attributed (.upTo (n + 15))) (mountFile base w path ++ rest) rest := by
  have hinclude := accepts_include (n := n) base path []
  rw [List.append_nil] at hinclude
  have hne : includeFile base path ≠ [] := by cases base <;> exact List.cons_ne_nil _ _
  have hi : Expression.beginsInner (includeFile base path) = false := by cases base <;> rfl
  exact Declaration.accepts_attributed (Expression.reads_outerAttributes_stop rfl)
    (Declaration.accepts_item_module hw.free
      (.cons hinclude (List.length_pos_iff.mpr hne) .nil) hi)

/-- An index of modules with proper names is a source file. -/
theorem isSome_items?_index {mounts : List (Word × String)} (hw : ∀ x ∈ mounts, x.1.IsName)
    (path : String) : (Source.items? (contents (code "pub mod mapper" ++
      brace (mounts.flatMap fun x => mountFile base x.1 x.2) ++ includeFile base path))).isSome =
        true := by
  have hmounts : Legible (mounts.flatMap fun x => mountFile base x.1 x.2) :=
    legible_flatMap fun x hx => .append (.append (legible_code (by rfl)) (legible_word (hw x hx)))
      (legible_group _ (legible_include base x.2))
  have hl : Legible (code "pub mod mapper" ++
      brace (mounts.flatMap fun x => mountFile base x.1 x.2) ++ includeFile base path) :=
    .append (.append (legible_code (by rfl)) (legible_group _ hmounts)) (legible_include base path)
  refine isSome_items?_contents hl (List.cons_ne_nil _ _) rfl fun n => ?_
  -- no module begins with an attribute about what holds it
  have hbody : Expression.beginsInner ((mounts.flatMap fun x => mountFile base x.1 x.2) ++ []) =
      false ∧ Sequenced (Declaration.attributed (.upTo (n + 15)))
        ((mounts.flatMap fun x => mountFile base x.1 x.2) ++ []) :=
    Sequenced.of_flatMap (I := fun ts => Expression.beginsInner ts = false) (fun x hx rest _ =>
      ⟨rfl, List.cons_ne_nil _ _, accepts_mount base (hw x hx) x.2 rest⟩) rfl .nil
  rw [List.append_nil] at hbody
  have hmapper (rest : List Token) : Accepts (Grammar.upTo (n + 16) .item) (code "pub mod mapper" ++
      (brace (mounts.flatMap fun x => mountFile base x.1 x.2) ++ rest)) rest :=
    Declaration.accepts_item_module (by decide) hbody.2 hbody.1
  have hinclude : Accepts (Declaration.attributed (.upTo (n + 16))) (includeFile base path ++ [])
      [] := accepts_include base path []
  have hne : includeFile base path ≠ [] := by cases base <;> exact List.cons_ne_nil _ _
  rw [List.append_nil] at hinclude
  rw [List.append_assoc]
  refine .cons (Declaration.accepts_attributed (Expression.reads_outerAttributes_stop rfl)
    (hmapper _)) ?_ (.cons hinclude (List.length_pos_iff.mpr hne) .nil)
  simp only [brace, List.length_append, List.length_cons]
  omega

/-! ## Converters and dispatchers -/

/-- A converter of types whose texts are names joined by colons is a source file. -/
theorem isSome_items?_converter {ask : Introspector} {i : Nat} {g : Group} {owned : List SchemaPath}
    (hp : ∀ p ∈ owned, isNamePath p.text = true)
    (h : fieldMapper (ArityFilter.fileOf ask i g owned) = .ok ts) :
    (Source.items? (contents ts)).isSome = true := by
  obtain ⟨type, mapped, fieldless, htype, hm, hl, rfl⟩ := fieldMapper_eq_ok h
  have hw := isName_of_identifier? htype
  have harms : ∀ a ∈ mapped ++ fieldless, a.IsReadable := by
    intro a ha
    rcases List.mem_append.mp ha with ha | ha
    · obtain ⟨⟨p, c⟩, hmem, hok⟩ := Traversal.exists_of_mem_left hm.flip ha
      obtain ⟨howned, -, -⟩ := (ArityFilter.mem_mappedOf p c _).mp hmem
      exact isReadable_mappedArm hok (hp p (List.mem_eraseDups.mp howned))
    · obtain ⟨p, hmem, hok⟩ := Traversal.exists_of_mem_left hl.flip ha
      have howned := List.mem_of_mem_filter hmem
      exact isReadable_fieldlessArm hok (hp p (List.mem_eraseDups.mp howned))
  exact isSome_items?_contents (legible_converter _ hw fun a ha => (harms a ha).isLegible)
    (List.cons_ne_nil _ _) rfl fun n => sequenced_converter _ hw harms

/-- The arms for a table that is made from who owns what have keys, and methods of accessors. -/
theorem mem_routeArms {groups : List Group} {accessors : List Accessor} {t : DispatchTable}
    (hc : t.cases = DispatchTables.casesOf (Ownership.resolve groups) (List.range groups.length))
    {r : RouteArm} (hr : r ∈ routeArms accessors t) :
    r.keys ≠ [] ∧ ∃ a ∈ accessors, r.method = a.method := by
  obtain ⟨k, hk, hkr⟩ := List.mem_filterMap.mp hr
  obtain ⟨a, ha, rfl⟩ := Option.map_eq_some_iff.mp hkr
  exact ⟨(mem_casesOf (hc ▸ hk)).2.1, a, List.mem_of_getElem? ha, rfl⟩

variable {m : Model} {ask : Introspector} {c : Config} {p : Plan}

/-- The dispatcher of a plan is a source file if its namespace is written of names and colons, or if
it has nothing to name in it. -/
theorem isSome_items?_dispatcher (h : (Plan.make m ask c).2 = .ok p)
    (hn : m.groups = [] ∨ isNamePath c.mount = true) (hts : dispatcher p c = .ok ts) :
    (Source.items? (contents ts)).isSome = true := by
  obtain ⟨type, mount, accessors, htype, hmount, ha, rfl⟩ := dispatcher_eq_ok_iff.mp hts
  obtain ⟨tables, rfl, hcd, hce, -, -⟩ := Plan.exists_tables_of_make h
  have hw := isName_of_identifier? htype
  have haccessors : ∀ a ∈ accessors, a.IsReadable := by
    intro a hmem
    obtain ⟨g, _, hok⟩ := Traversal.exists_of_mem_left ha.flip hmem
    exact isReadable_accessor hok
  have harms (t : DispatchTable) (hc : t.cases =
      DispatchTables.casesOf (Ownership.resolve m.groups) (List.range m.groups.length)) :
      ∀ r ∈ routeArms accessors t, r.keys ≠ [] ∧ r.method.IsName := by
    intro r hr
    obtain ⟨hkeys, a, hmem, hmethod⟩ := mem_routeArms hc hr
    exact ⟨hkeys, hmethod ▸ (haccessors a hmem).method⟩
  have hd := harms tables.decode hcd
  have he := harms tables.encode hce
  -- without accessors the text does not depend on the namespace
  obtain ⟨q, hq⟩ : ∃ q : NamePath, ∀ decode encode, dispatcherType type mount accessors decode encode =
      dispatcherType type q.tokens accessors decode encode := by
    rcases hn with hn | hn
    · obtain rfl : accessors = [] := List.forall₂_nil_left_iff.mp (hn ▸ ha)
      exact ⟨corePath, fun _ _ => rfl⟩
    · obtain ⟨q, rfl⟩ := exists_namePath hn hmount
      exact ⟨q, fun _ _ => rfl⟩
  rw [hq]
  exact isSome_items?_contents
    (legible_dispatcherType hw q haccessors (fun r hr => (hd r hr).2) fun r hr => (he r hr).2)
    (List.cons_ne_nil _ _) rfl fun n => sequenced_dispatcherType q hw haccessors hd he

end Emission

/-! ## The files of a model -/

namespace Generation

open Emission

variable {emit : Emitter} {m : Model} {ask : Introspector} {c : Config} {s : FileSet}

/-- What a converter file holds is what is emitted for what its group owns. -/
theorem exists_tokens_of_run (h : run emit m ask c = .ok s) {i : Nat} {f : GeneratedFile}
    (hf : s.converters[i]? = some f) :
    ∃ g ts, m.groups[i]? = some g ∧
      emit (ArityFilter.fileOf ask i g ((Ownership.resolve m.groups).ownedBy i)) = .ok ts ∧
      f.contents = contents ts := by
  obtain ⟨p, _, hp, hconverters, -, -⟩ := exists_plan_of_run h
  obtain ⟨_, tables, _, rfl⟩ := Plan.make_eq_ok hp
  obtain ⟨file, hfile, hok⟩ :=
    Traversal.exists_of_getElem? (Traversal.mapM_eq_ok_iff.mp hconverters).flip hf
  rw [Plan.getElem?_filesOf] at hfile
  obtain ⟨g, hg, rfl⟩ := Option.map_eq_some_iff.mp hfile
  simp only [converterFile, Traversal.bind_eq_ok_iff, Traversal.pure_eq_ok_iff] at hok
  obtain ⟨ts, hts, rfl⟩ := hok
  exact ⟨g, ts, hg, hts, rfl⟩

/-- Of the files that are generated a converter is a source file if the types of its group are
written of names and colons, the dispatcher is one if its namespace is, and every index is one. -/
theorem run_readable (h : run fieldMapper m ask c = .ok s) :
    (∀ i f, s.converters[i]? = some f →
      (∀ p ∈ (Ownership.resolve m.groups).ownedBy i, isNamePath p.text = true) →
      (Source.items? f.contents).isSome = true) ∧
    (m.groups = [] ∨ isNamePath c.mount = true →
      (Source.items? s.dispatcher.contents).isSome = true) ∧
    ∀ base text, s.index? base = some text → (Source.items? text).isSome = true := by
  obtain ⟨p, ts, hp, hts, hs⟩ := exists_dispatcher_of_run h
  refine ⟨fun i f hf hplain => ?_, fun hn => ?_, fun base text ht => ?_⟩
  · obtain ⟨g, ts, _, hts, hcontents⟩ := exists_tokens_of_run h hf
    rw [hcontents]
    exact isSome_items?_converter hplain hts
  · rw [hs]
    exact isSome_items?_dispatcher hp hn hts
  · rw [index?_of_run h ht]
    refine isSome_items?_index base (fun mount hmount => ?_) _
    obtain ⟨g, hg, rfl⟩ := List.mem_map.mp hmount
    have hbare := (isSome_index?_iff h base).mp (by rw [ht]; rfl) g hg
    have hcomplaints := ((Model.isValid_iff m).mp (Plan.accepted_of_make hp).2).1 g hg
    exact isName_of_identifier? (Group.identifier?_of_bare hcomplaints hbare)

/-- A model in which one group has a type with arguments, and another one plain types that are
written with a gap, with places and with nothing in them. -/
def generic : Model where
  groups := [⟨"a", none, [⟨"X<u8>"⟩]⟩, ⟨"b", none, [⟨"x :: Y"⟩, ⟨"X<u8>"⟩, ⟨"T"⟩, ⟨"U"⟩]⟩]
  types := [("T", .tuple 2), ("U", .unit), ("X<u8>", .named ["x"]), ("x :: Y", .named ["type", "y"])]

private theorem exists_run_generic :
    ∃ s, run fieldMapper generic generic.types.introspector {} = .ok s :=
  Traversal.exists_of_isOk (by decide +kernel)

theorem run_readable_generic :
    ∃ s f text, run fieldMapper generic generic.types.introspector {} = .ok s ∧
      s.converters[1]? = some f ∧ (Source.items? f.contents).isSome = true ∧
      (Source.items? s.dispatcher.contents).isSome = true ∧
      s.index? .relative = some text ∧ (Source.items? text).isSome = true := by
  obtain ⟨s, hs⟩ := exists_run_generic
  obtain ⟨hconverters, hdispatcher, hindex⟩ := run_readable hs
  obtain ⟨f, hf, -⟩ := Traversal.exists_of_getElem? (converters_of_run hs)
    (show generic.groups[1]? = some ⟨"b", none, [⟨"x :: Y"⟩, ⟨"X<u8>"⟩, ⟨"T"⟩, ⟨"U"⟩]⟩ from rfl)
  have howned : (Ownership.resolve generic.groups).ownedBy 1 = [⟨"x :: Y"⟩, ⟨"T"⟩, ⟨"U"⟩] := by
    decide +kernel
  have hnames : ∀ p ∈ (Ownership.resolve generic.groups).ownedBy 1, isNamePath p.text = true := by
    rw [howned]
    decide +kernel
  obtain ⟨text, ht⟩ := Option.isSome_iff_exists.mp
    ((isSome_index?_iff hs .relative).mpr (by decide +kernel))
  exact ⟨s, f, text, hs, hf, hconverters 1 f hf hnames, hdispatcher (.inr (by decide +kernel)), ht,
    hindex .relative text ht⟩

/-- The arm of a type with arguments. -/
def genericArm : ConverterArm := ⟨"X<u8>", code "X < u8 >", true, some [("x", .field (.plain "x"))]⟩

/-- A converter file that is no source file: what is made from a type with arguments is no
expression. -/
theorem run_unreadable :
    ∃ s f, run fieldMapper generic generic.types.introspector {} = .ok s ∧ f ∈ s.converters ∧
      Source.items? f.contents = none := by
  obtain ⟨s, hs⟩ := exists_run_generic
  obtain ⟨f, hf, -⟩ := Traversal.exists_of_getElem? (converters_of_run hs)
    (show generic.groups[0]? = some ⟨"a", none, [⟨"X<u8>"⟩]⟩ from rfl)
  obtain ⟨g, ts, hg, hts, hcontents⟩ := exists_tokens_of_run hs hf
  cases hg
  have htokens : fieldMapper (ArityFilter.fileOf generic.types.introspector 0 ⟨"a", none, [⟨"X<u8>"⟩]⟩
      ((Ownership.resolve generic.groups).ownedBy 0)) =
      .ok (converter "a" (.plain "AMapper") [genericArm]) := by
    have hfile : ArityFilter.fileOf generic.types.introspector 0 ⟨"a", none, [⟨"X<u8>"⟩]⟩
        ((Ownership.resolve generic.groups).ownedBy 0) =
        ⟨0, "a", "AMapper", "a", [⟨⟨"X<u8>"⟩, .named ["x"]⟩], []⟩ := by decide +kernel
    have hname : word "mapper type" "AMapper" = .ok (.plain "AMapper") := by decide +kernel
    have hpath : path "type path" "X<u8>" = .ok (code "X < u8 >") := by decide +kernel
    have hmembers : members (.named ["x"]) = .ok [.field (.plain "x")] := by decide +kernel
    have harm : mappedArm ⟨⟨"X<u8>"⟩, .named ["x"]⟩ = .ok genericArm := by
      rw [mappedArm, hpath, hmembers]
      rfl
    have harms : converterArms ⟨0, "a", "AMapper", "a", [⟨⟨"X<u8>"⟩, .named ["x"]⟩], []⟩ =
        .ok [genericArm] := by
      rw [converterArms, List.mapM_cons, harm]
      rfl
    rw [hfile, fieldMapper, hname, harms]
    rfl
  obtain rfl := Except.ok.inj (hts.symm.trans htokens)
  have hlegible : Legible (converter "a" (.plain "AMapper") [genericArm]) := by
    refine legible_converter _ ⟨by decide, by decide⟩ (List.forall_mem_singleton.mpr ⟨?_, ?_⟩)
    · exact legible_code (by rfl)
    · rintro _ ⟨⟩
      exact List.forall_mem_singleton.mpr (.field ⟨by decide, by decide⟩)
  have hrecognised : (recognise fileRule (converter "a" (.plain "AMapper") [genericArm])).isNone =
      true := by
    simp only [converter, doc, derive, allow, mustUse, attr, call, objectMapper, chooseArm,
      unmatchedArm, genericArm, List.flatMap_cons, List.flatMap_nil, ConverterArm.decode,
      ConverterArm.encode, ConverterArm.keyTokens, ConverterArm.construct, ConverterArm.downcast,
      ConverterArm.put, ConverterArm.taken, ConverterArm.boxed, paren, bracket, brace, if_true]
    repeat rw [code_ofList]
    decide +kernel
  refine ⟨s, f, hs, List.mem_of_getElem? hf, ?_⟩
  rw [hcontents, items?_contents hlegible (List.cons_ne_nil _ _),
    Option.isNone_iff_eq_none.mp hrecognised, Option.map_none]

end Generation

end Switchboard
