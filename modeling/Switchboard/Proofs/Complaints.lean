import Switchboard.Proofs.Validation

/-! What validation tells. A model is accepted just if its names are as they must be, and otherwise
every problem is told once, at its place. -/

namespace Switchboard

namespace ErrorTree

variable {α β : Type}

/-! ## Messages of a tree -/

private theorem flattenAt_append_leaf (above : String) (t : ErrorTree α) (ms : List α) :
    ((t.append (.node ms [])).flattenAt above).Perm
      (t.flattenAt above ++ ms.map (above, ·)) := by
  obtain ⟨messages, children⟩ := t
  simp only [append, appendChildren, flattenAt, ErrorTree.messages, ErrorTree.children,
    List.map_append, List.append_assoc]
  exact List.perm_append_comm.append_left _

/-- If a tree under a key has some messages more than the one that was there, so have all trees
together. -/
theorem flattenChildren_insert (above : String) {key : String} {t : ErrorTree α}
    {children : SortedMap (ErrorTree α)} {more : List (String × α)}
    (ha : SortedMap.Ascending children)
    (ht : (t.flattenAt (route above key)).Perm
      (((children.get? key).getD empty).flattenAt (route above key) ++ more)) :
    (flattenChildren above (SortedMap.insert key t children)).Perm
      (flattenChildren above children ++ more) := by
  induction children with
  | nil => simpa [SortedMap.insert, flattenChildren, SortedMap.get?, empty, flattenAt] using ht
  | cons p rest ih =>
    obtain ⟨k, u⟩ := p
    obtain ⟨hk, hrest⟩ := SortedMap.ascending_cons.mp ha
    rw [SortedMap.get?] at ht
    simp only [SortedMap.insert]
    split
    case isTrue he =>
      subst he
      rw [if_pos rfl, Option.getD_some] at ht
      simp only [flattenChildren]
      refine (ht.append_right _).trans ?_
      rw [List.append_assoc, List.append_assoc]
      exact List.perm_append_comm.append_left _
    case isFalse hne =>
      rw [if_neg hne] at ht
      split
      case isTrue hlt =>
        have hn : SortedMap.get? key rest = none :=
          SortedMap.get?_eq_none_of_not_mem fun hm => String.lt_asymm hlt (hk key hm)
        rw [hn, Option.getD_none, empty, flattenAt, flattenChildren] at ht
        rw [flattenChildren]
        exact (ht.append_right _).trans List.perm_append_comm
      case isFalse =>
        simp only [flattenChildren, List.append_assoc]
        exact (ih hrest ht).append_left _

/-- Messages that are put under a key are told with the others, at the key. -/
theorem flatten_mergeAt {t : ErrorTree α} (h : t.children.Ascending) (key : String)
    (ms : List α) :
    (t.mergeAt key (.node ms [])).flatten.Perm (t.flatten ++ ms.map (key, ·)) := by
  cases ms with
  | nil => simp [mergeAt, appendChildren, isEmpty, allEmpty]
  | cons m rest =>
    obtain ⟨messages, children⟩ := t
    have hr : route "" key = key := rfl
    have hp := flattenChildren_insert "" h (flattenAt_append_leaf (route "" key)
      ((SortedMap.get? key children).getD empty) (m :: rest))
    rw [hr] at hp
    simp only [mergeAt, appendChildren, isEmpty, List.isEmpty_cons, Bool.false_and,
      Bool.false_eq_true, if_false, setChild, flatten, flattenAt, child, List.append_assoc]
    exact hp.append_left _

private theorem ascending_mergeAt {t : ErrorTree α} (h : t.children.Ascending) (key : String)
    (ms : List α) : (t.mergeAt key (.node ms [])).children.Ascending := by
  simp only [mergeAt, appendChildren]
  split
  · exact h
  · exact SortedMap.ascending_insert h

private theorem flatten_add (t : ErrorTree α) (m : α) :
    (t.add m).flatten.Perm (t.flatten ++ [("", m)]) := by
  obtain ⟨messages, children⟩ := t
  simp only [add, flatten, flattenAt, ErrorTree.messages, ErrorTree.children, List.map_append,
    List.append_assoc]
  exact List.perm_append_comm.append_left _

private theorem flatten_foldl_mergeAt (key : β → String) (messages : β → List α) (bs : List β)
    {t : ErrorTree α} (h : t.children.Ascending) :
    let u := bs.foldl (fun t b => t.mergeAt (key b) (.node (messages b) [])) t
    u.flatten.Perm (t.flatten ++ bs.flatMap fun b => (messages b).map (key b, ·)) ∧
      u.children.Ascending := by
  induction bs generalizing t with
  | nil => simpa using h
  | cons b rest ih =>
    obtain ⟨hp, ha⟩ := ih (ascending_mergeAt h (key b) (messages b))
    refine ⟨hp.trans ?_, ha⟩
    rw [List.flatMap_cons, ← List.append_assoc]
    exact (flatten_mergeAt h (key b) (messages b)).append_right _

private theorem flatten_foldl_add (ms : List α) (t : ErrorTree α) :
    (ms.foldl (fun t m => t.add m) t).flatten.Perm (t.flatten ++ ms.map ("", ·)) := by
  induction ms generalizing t with
  | nil => simp
  | cons m rest ih =>
    refine (ih (t.add m)).trans (((flatten_add t m).append_right _).trans ?_)
    rw [List.append_assoc]
    rfl

private theorem children_foldl_add (ms : List α) (t : ErrorTree α) :
    (ms.foldl (fun t m => t.add m) t).children = t.children := by
  induction ms generalizing t with
  | nil => rfl
  | cons m rest ih => exact ih (t.add m)

end ErrorTree

/-! ## What there is to tell -/

/-- The items of a list, each with those that come before it. -/
def withEarlier {α : Type} (before : List α) : List α → List (List α × α)
  | [] => []
  | a :: rest => (before, a) :: withEarlier (before ++ [a]) rest

/-- What is wrong with the names that are made from a group and with its claims. -/
def Group.faults (g : Group) : List Complaint :=
  ([(Complaint.accessor, g.accessorName), (.moduleName, g.moduleName),
    (.converterName, g.converterName)].filterMap fun (complaint, name) =>
      (Naming.identifierFault? name).map complaint) ++
  g.claims.filterMap fun p => (Naming.pathFault? p.text).map .name

/-- The problems of a group with their routes. One with a blank name has no other. -/
def Group.problems (index : Nat) (g : Group) : List (String × Complaint) :=
  if g.isBlank then [(if g.name = "" then s!"groups[{index}]" else g.name, .blankName)]
  else g.faults.map (g.name, ·)

/-- Groups whose key an earlier one has already, each with the latest of those. -/
def keyClashes (key : GroupKey) (groups : List Group) : List Complaint :=
  (withEarlier [] groups).filterMap fun (before, g) =>
    (before.reverse.find? fun h => key.of h = key.of g).map fun h =>
      .duplicateGroup key (key.of g) h.name g.name

/-- What is wrong with the fields of a type. -/
def fieldFaults (fields : List String) : List Complaint :=
  (withEarlier [] fields).flatMap fun (before, field) =>
    ((Naming.fieldFault? field).map .name).toList ++
      if field ∈ before then [.duplicateField field] else []

/-- What is wrong with a type and with its fields, if those have names. -/
def typeFaults (p : SchemaPath) (c : Constructor) : List Complaint :=
  ((Naming.pathFault? p.text).map Complaint.name).toList ++
    match c with
    | .named fields => fieldFaults fields
    | .tuple _ | .unit => []

namespace Model

/-- Every problem of a model with its route: what is wrong with each group, with the keys of those
that are named, and with each type. -/
def problems (m : Model) : List (String × Complaint) :=
  (m.groups.zipIdx.flatMap fun (g, i) => g.problems i) ++
    ([GroupKey.name, .accessor, .moduleName].flatMap fun key =>
      (keyClashes key (m.groups.filter fun g => !g.isBlank)).map ("", ·)) ++
    m.types.entries.flatMap fun (p, c) => (typeFaults p c).map (p.text, ·)

/-- That all names of a model are as they must be. -/
structure WellNamed (m : Model) : Prop where
  named : ∀ g ∈ m.groups, ∃ c ∈ g.name.toList, Text.isBlank c = false
  identifiers : ∀ g ∈ m.groups, ∀ name ∈ [g.accessorName, g.moduleName, g.converterName],
    Naming.identifierFault? name = none
  claims : ∀ g ∈ m.groups, ∀ p ∈ g.claims, Naming.pathFault? p.text = none
  keys : ∀ key : GroupKey, (m.groups.map key.of).Nodup
  types : ∀ e ∈ m.types.entries, Naming.pathFault? e.1.text = none
  fields : ∀ e ∈ m.types.entries, ∀ fields, e.2 = .named fields →
    (∀ field ∈ fields, Naming.fieldFault? field = none) ∧ fields.Nodup

end Model

/-! ## What is told -/

private theorem Group.complaints_eq (g : Group) :
    g.complaints = if g.isBlank then [.blankName] else g.faults := by
  rw [complaints, faults]
  split
  · rfl
  · simp only [List.filterMap_cons, List.filterMap_nil]
    cases Naming.identifierFault? g.accessorName <;> cases Naming.identifierFault? g.moduleName <;>
      cases Naming.identifierFault? g.converterName <;> rfl

/-- A group with a name that is not blank has that name for its place. -/
theorem Group.map_complaints (g : Group) (i : Nat) :
    g.complaints.map (g.place i, ·) = g.problems i := by
  rw [complaints_eq, problems]
  cases hb : g.isBlank with
  | true =>
    by_cases hn : g.name = ""
    · simp [place, hn]
    · simp [place, hn]
  | false =>
    have hn : g.name ≠ "" := by
      intro hn
      simp [isBlank, Text.allBlank, hn] at hb
    simp [place, hn]

private theorem duplicates_eq (key : GroupKey) {seen : SortedMap String} {before : List Group}
    (h : ∀ value, SortedMap.get? value seen =
      (before.reverse.find? fun g => key.of g = value).map Group.name) (groups : List Group) :
    duplicates key seen groups = (withEarlier before groups).filterMap fun (before, g) =>
      (before.reverse.find? fun h => key.of h = key.of g).map fun h =>
        .duplicateGroup key (key.of g) h.name g.name := by
  induction groups generalizing seen before with
  | nil => rfl
  | cons g rest ih =>
    have hseen (value : String) : SortedMap.get? value (SortedMap.insert (key.of g) g.name seen) =
        ((before ++ [g]).reverse.find? fun h => key.of h = value).map Group.name := by
      rw [SortedMap.get?_insert, List.reverse_append, List.reverse_singleton,
        List.singleton_append, List.find?_cons]
      by_cases hv : key.of g = value
      · simp [hv]
      · simp [hv, Ne.symm hv, h]
    rw [duplicates, withEarlier, List.filterMap_cons, ih hseen, h]
    cases hf : before.reverse.find? fun h => key.of h = key.of g <;> simp [hf]

private theorem fieldComplaints_eq {seen before : List String}
    (h : ∀ field, field ∈ seen ↔ field ∈ before) (fields : List String) :
    fieldComplaints seen fields = (withEarlier before fields).flatMap fun (before, field) =>
      ((Naming.fieldFault? field).map .name).toList ++
        if field ∈ before then [.duplicateField field] else [] := by
  induction fields generalizing seen before with
  | nil => rfl
  | cons field rest ih =>
    have hseen (other : String) : other ∈ field :: seen ↔ other ∈ before ++ [field] := by
      simp [h, or_comm]
    rw [fieldComplaints, withEarlier, List.flatMap_cons, ih hseen]
    simp only [List.contains_iff_mem, h]

private theorem fieldComplaints_eq_fieldFaults (fields : List String) :
    fieldComplaints [] fields = fieldFaults fields := fieldComplaints_eq (fun _ => Iff.rfl) fields

private theorem typeComplaints_eq (p : SchemaPath) (c : Constructor) :
    typeComplaints p c = typeFaults p c := by
  unfold typeComplaints typeFaults
  cases c with
  | named fields => simp only [fieldComplaints_eq_fieldFaults]
  | tuple | unit => simp only

/-! ## What is accepted -/

private theorem Group.isBlank_eq_false_iff (g : Group) :
    g.isBlank = false ↔ ∃ c ∈ g.name.toList, Text.isBlank c = false := by
  simp [isBlank, Text.allBlank]

private theorem Group.faults_eq_nil_iff (g : Group) : g.faults = [] ↔
    (∀ name ∈ [g.accessorName, g.moduleName, g.converterName],
      Naming.identifierFault? name = none) ∧
    ∀ p ∈ g.claims, Naming.pathFault? p.text = none := by
  simp [faults, List.filterMap_eq_nil_iff]

private theorem Group.complaints_eq_nil_iff (g : Group) :
    g.complaints = [] ↔ g.isBlank = false ∧ g.faults = [] := by
  rw [complaints_eq]
  cases g.isBlank <;> simp

private theorem fieldComplaints_eq_nil_iff (seen fields : List String) :
    fieldComplaints seen fields = [] ↔
    (∀ field ∈ fields, Naming.fieldFault? field = none) ∧ fields.Nodup ∧
      ∀ field ∈ fields, field ∉ seen := by
  induction fields generalizing seen with
  | nil => simp [fieldComplaints]
  | cons field rest ih =>
    have hs : (if seen.contains field then [Complaint.duplicateField field] else []) = [] ↔
        field ∉ seen := by simp
    rw [fieldComplaints, List.append_eq_nil_iff, List.append_eq_nil_iff, Option.toList_eq_nil_iff,
      Option.map_eq_none_iff, ih, hs, List.forall_mem_cons, List.forall_mem_cons, List.nodup_cons]
    simp only [List.mem_cons, not_or]
    grind

private theorem typeComplaints_eq_nil_iff (p : SchemaPath) (c : Constructor) :
    typeComplaints p c = [] ↔ Naming.pathFault? p.text = none ∧ ∀ fields, c = .named fields →
      (∀ field ∈ fields, Naming.fieldFault? field = none) ∧ fields.Nodup := by
  unfold typeComplaints
  cases c with
  | named fields => simp [fieldComplaints_eq_nil_iff]
  | tuple | unit => simp

namespace Model

theorem isValid_iff_wellNamed (m : Model) : m.isValid = true ↔ m.WellNamed := by
  constructor
  · intro h
    obtain ⟨hg, -, ht⟩ := (isValid_iff m).mp h
    have hf (g : Group) (hm : g ∈ m.groups) := (Group.complaints_eq_nil_iff g).mp (hg g hm)
    have hi (g : Group) (hm : g ∈ m.groups) := (Group.faults_eq_nil_iff g).mp (hf g hm).2
    have hc (e : SchemaPath × Constructor) (hm : e ∈ m.types.entries) :=
      (typeComplaints_eq_nil_iff e.1 e.2).mp (ht e hm)
    exact {
      named := fun g hm => (Group.isBlank_eq_false_iff g).mp (hf g hm).1
      identifiers := fun g hm => (hi g hm).1
      claims := fun g hm => (hi g hm).2
      keys := nodup_keys h
      types := fun e hm => (hc e hm).1
      fields := fun e hm => (hc e hm).2 }
  · intro h
    have hb (g : Group) (hm : g ∈ m.groups) : g.isBlank = false :=
      (Group.isBlank_eq_false_iff g).mpr (h.named g hm)
    have hn : (m.groups.filter fun g => !g.isBlank) = m.groups :=
      List.filter_eq_self.mpr fun g hm => by rw [hb g hm, Bool.not_false]
    refine (isValid_iff m).mpr ⟨fun g hm => ?_, ?_, fun e hm => ?_⟩
    · rw [Group.complaints_eq_nil_iff, Group.faults_eq_nil_iff]
      exact ⟨hb g hm, h.identifiers g hm, h.claims g hm⟩
    · rw [keyComplaints, hn, List.flatMap_eq_nil_iff]
      intro key _
      exact (duplicates_eq_nil_iff key [] m.groups).mpr ⟨h.keys key, fun _ _ => rfl⟩
    · exact (typeComplaints_eq_nil_iff e.1 e.2).mpr ⟨h.types e hm, h.fields e hm⟩

private theorem keyComplaints_eq (groups : List Group) :
    keyComplaints groups = [GroupKey.name, .accessor, .moduleName].flatMap fun key =>
      keyClashes key (groups.filter fun g => !g.isBlank) := by
  have hd (key : GroupKey) (named : List Group) : duplicates key [] named = keyClashes key named :=
    @duplicates_eq key [] [] (fun _ => rfl) named
  simp only [keyComplaints, hd]

/-- The tree of errors tells every problem once. -/
theorem flatten_errors (m : Model) : m.errors.flatten.Perm m.problems := by
  obtain ⟨hg, ha⟩ := ErrorTree.flatten_foldl_mergeAt (fun x : Group × Nat => x.1.place x.2)
    (fun x => x.1.complaints) m.groups.zipIdx (t := .empty) SortedMap.ascending_nil
  have hk := ErrorTree.flatten_foldl_add (keyComplaints m.groups) (groupErrors m.groups)
  rw [← ErrorTree.children_foldl_add (keyComplaints m.groups)] at ha
  have ht := (ErrorTree.flatten_foldl_mergeAt (fun e : SchemaPath × Constructor => e.1.text)
    (fun e => typeComplaints e.1 e.2) m.types.entries ha).1
  rw [problems, ← List.map_flatMap, ← keyComplaints_eq]
  simp only [← Group.map_complaints, ← typeComplaints_eq]
  exact ht.trans ((hk.trans (hg.append_right _)).append_right _)

/-- Just the models whose names are as they must be are valid. Of any model every problem is told
once, with its route. -/
theorem errors_exact (m : Model) :
    (m.isValid = true ↔ m.WellNamed) ∧ m.errors.flatten.Perm m.problems :=
  ⟨m.isValid_iff_wellNamed, m.flatten_errors⟩

end Model

end Switchboard
