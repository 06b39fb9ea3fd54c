import Switchboard.Proofs.SortedMap
import Switchboard.ErrorTree

/-! Messages of an error tree. Seen as the messages at each place, a tree takes up what is put into
it, at the end of what is at that place, and nothing else changes. All of them are told in order,
each once. -/

namespace Switchboard.ErrorTree

variable {α : Type}

/-! ## Places -/

/-- The messages at a place. -/
def messagesAt (t : ErrorTree α) : List String → List α
  | [] => t.messages
  | key :: place => (t.child key).messagesAt place

/-- The messages that are at a place if a tree is put under a key. -/
def messagesUnder (t : ErrorTree α) (key : String) : List String → List α
  | [] => []
  | k :: place => if k = key then t.messagesAt place else []

/-- The tree at a place, if there is one. -/
def below? (t : ErrorTree α) : List String → Option (ErrorTree α)
  | [] => some t
  | key :: place => (t.children.get? key).bind (below? · place)

/-- Trees that can be made: one message or one tree is put in after the other. -/
inductive Built : ErrorTree α → Prop
  | empty : Built empty
  | add {t : ErrorTree α} (m : α) : Built t → Built (t.add m)
  | addAt {t : ErrorTree α} (key : String) (m : α) : Built t → Built (t.addAt key m)
  | mergeAt {t other : ErrorTree α} (key : String) :
    Built t → Built other → Built (t.mergeAt key other)

/-- Trees with ascending keys and a message in every tree below. -/
inductive Kept : ErrorTree α → Prop
  | node {messages : List α} {children : SortedMap (ErrorTree α)}
    (ascending : children.Ascending) (filled : ∀ e ∈ children, e.2.isEmpty = false)
    (kept : ∀ e ∈ children, Kept e.2) : Kept (.node messages children)

/-! ## Trees without a message -/

theorem allEmpty_iff {children : List (String × ErrorTree α)} :
    allEmpty children = true ↔ ∀ e ∈ children, e.2.isEmpty = true := by
  induction children with
  | nil => simp [allEmpty]
  | cons e rest ih => rw [allEmpty, Bool.and_eq_true, ih, List.forall_mem_cons]

private theorem child_setChild (t inner : ErrorTree α) (key k : String) :
    (t.setChild key inner).child k = if k = key then inner else t.child k := by
  rw [child, setChild, children, SortedMap.get?_insert]
  split <;> rfl

private theorem messagesAt_empty (place : List String) :
    (empty : ErrorTree α).messagesAt place = [] := by
  induction place with
  | nil => rfl
  | cons key place ih => exact ih

private theorem isEmpty_child {t : ErrorTree α} (h : t.isEmpty = true) (key : String) :
    (t.child key).isEmpty = true := by
  obtain ⟨messages, children⟩ := t
  rw [isEmpty, Bool.and_eq_true, allEmpty_iff] at h
  rw [child, ErrorTree.children]
  cases hk : SortedMap.get? key children with
  | none => rfl
  | some u => exact h.2 _ (SortedMap.mem_of_get? hk)

private theorem messagesAt_of_isEmpty {t : ErrorTree α} (h : t.isEmpty = true)
    (place : List String) :
    t.messagesAt place = [] := by
  induction place generalizing t with
  | nil =>
    obtain ⟨messages, children⟩ := t
    rw [isEmpty, Bool.and_eq_true, List.isEmpty_iff] at h
    exact h.1
  | cons key place ih => exact ih (isEmpty_child h key)

/-- If a tree is not empty, there is a message at some place. -/
theorem Kept.exists_messagesAt_ne_nil {t : ErrorTree α} (ht : t.Kept) (h : t.isEmpty = false) :
    ∃ place, t.messagesAt place ≠ [] := by
  induction ht with
  | @node messages children ascending filled kept ih =>
    cases children with
    | nil =>
      refine ⟨[], fun hm => ?_⟩
      rw [isEmpty, show messages = [] from hm] at h
      cases h
    | cons e rest =>
      obtain ⟨place, hp⟩ := ih e List.mem_cons_self (filled e List.mem_cons_self)
      refine ⟨e.1 :: place, ?_⟩
      rw [messagesAt, child, ErrorTree.children, SortedMap.get?, if_pos rfl]
      exact hp

private theorem Kept.isEmpty_iff {t : ErrorTree α} (ht : t.Kept) :
    t.isEmpty = true ↔ ∀ place, t.messagesAt place = [] := by
  refine ⟨messagesAt_of_isEmpty, fun h => ?_⟩
  rw [← Bool.not_eq_false]
  intro he
  obtain ⟨place, hp⟩ := ht.exists_messagesAt_ne_nil he
  exact hp (h place)

/-! ## Putting messages in -/

private theorem messagesAt_add (t : ErrorTree α) (m : α) (place : List String) :
    (t.add m).messagesAt place = t.messagesAt place ++ if place = [] then [m] else [] := by
  cases place with
  | nil => rfl
  | cons key place => exact (List.append_nil _).symm

private theorem messagesAt_addAt (t : ErrorTree α) (key : String) (m : α) (place : List String) :
    (t.addAt key m).messagesAt place = t.messagesAt place ++ if place = [key] then [m] else [] := by
  cases place with
  | nil => exact (List.append_nil _).symm
  | cons k place =>
    rw [messagesAt, addAt, child_setChild]
    by_cases hk : k = key
    · subst hk
      simp [messagesAt, messagesAt_add]
    · simp [messagesAt, hk]

/-- Whether a tree that is put after another one has its messages put after those at each place. -/
def Follows (other : ErrorTree α) : Prop :=
  ∀ (t : ErrorTree α) place,
    (t.append other).messagesAt place = t.messagesAt place ++ other.messagesAt place

private theorem mergeAt_eq (t : ErrorTree α) (key : String) (other : ErrorTree α) :
    t.mergeAt key other =
      if other.isEmpty then t else t.setChild key ((t.child key).append other) := rfl

private theorem Follows.messagesAt_mergeAt {other : ErrorTree α} (h : other.Follows)
    (t : ErrorTree α) (key : String) (place : List String) :
    (t.mergeAt key other).messagesAt place =
      t.messagesAt place ++ other.messagesUnder key place := by
  rw [mergeAt_eq]
  cases place with
  | nil => split <;> exact (List.append_nil _).symm
  | cons k place =>
    rw [messagesUnder]
    by_cases he : other.isEmpty = true
    · rw [if_pos he, messagesAt_of_isEmpty he]
      simp
    · rw [if_neg he, messagesAt, child_setChild]
      by_cases hk : k = key
      · rw [if_pos hk, if_pos hk, h, hk, messagesAt]
      · rw [if_neg hk, if_neg hk, List.append_nil, messagesAt]

private theorem messagesAt_appendChildren {children : SortedMap (ErrorTree α)}
    (ascending : children.Ascending) (h : ∀ e ∈ children, Follows e.2) (t : ErrorTree α)
    (place : List String) :
    (t.appendChildren children).messagesAt place =
      t.messagesAt place ++ (node [] children).messagesAt place := by
  induction children generalizing t with
  | nil =>
    rw [show (node [] [] : ErrorTree α) = empty from rfl, messagesAt_empty, List.append_nil]
    rfl
  | cons e rest ih =>
    obtain ⟨key, inner⟩ := e
    obtain ⟨hk, hrest⟩ := SortedMap.ascending_cons.mp ascending
    obtain ⟨hinner, hothers⟩ := List.forall_mem_cons.mp h
    have hstep : t.appendChildren ((key, inner) :: rest) =
        (t.mergeAt key inner).appendChildren rest := rfl
    rw [hstep, ih hrest hothers, hinner.messagesAt_mergeAt, List.append_assoc]
    congr 1
    cases place with
    | nil => rfl
    | cons k place =>
      simp only [messagesUnder, messagesAt, child, ErrorTree.children, SortedMap.get?]
      by_cases he : k = key
      · -- nothing else is under the least key
        subst he
        have hnone : SortedMap.get? k rest = none :=
          SortedMap.get?_eq_none_of_not_mem fun hm => String.lt_irrefl k (hk k hm)
        rw [if_pos rfl, if_pos rfl, hnone]
        exact (congrArg (inner.messagesAt place ++ ·) (messagesAt_empty place)).trans
          (List.append_nil _)
      · rw [if_neg he, if_neg (Ne.symm he)]
        rfl

private theorem Kept.follows {other : ErrorTree α} (h : other.Kept) : other.Follows := by
  induction h with
  | @node messages children ascending filled kept ih =>
    intro t place
    rw [append, messagesAt_appendChildren ascending ih]
    cases place with
    | nil => exact List.append_nil _
    | cons key place => rfl

/-! ## What every tree keeps -/

private theorem kept_empty : (empty : ErrorTree α).Kept :=
  .node SortedMap.ascending_nil nofun nofun

private theorem Kept.ascending {t : ErrorTree α} (h : t.Kept) : t.children.Ascending := by
  cases h with
  | node ascending => exact ascending

private theorem Kept.child {t : ErrorTree α} (h : t.Kept) (key : String) : (t.child key).Kept := by
  cases h with
  | @node messages children ascending filled kept =>
    rw [ErrorTree.child, ErrorTree.children]
    cases hk : SortedMap.get? key children with
    | none => exact kept_empty
    | some u => exact kept _ (SortedMap.mem_of_get? hk)

private theorem Kept.add {t : ErrorTree α} (h : t.Kept) (m : α) : (t.add m).Kept := by
  cases h with
  | node ascending filled kept => exact .node ascending filled kept

private theorem Kept.setChild {t inner : ErrorTree α} (h : t.Kept) (key : String) (hi : inner.Kept)
    (hf : inner.isEmpty = false) : (t.setChild key inner).Kept := by
  cases h with
  | node ascending filled kept =>
    refine .node (SortedMap.ascending_insert ascending) (fun e he => ?_) (fun e he => ?_)
    · rcases SortedMap.mem_insert he with rfl | he
      · exact hf
      · exact filled e he
    · rcases SortedMap.mem_insert he with rfl | he
      · exact hi
      · exact kept e he

theorem isEmpty_add (t : ErrorTree α) (m : α) : (t.add m).isEmpty = false := by
  simp [add, isEmpty]

private theorem Kept.addAt {t : ErrorTree α} (h : t.Kept) (key : String) (m : α) :
    (t.addAt key m).Kept :=
  h.setChild key ((h.child key).add m) (isEmpty_add _ m)

/-- A tree with more after its own is not empty if there is more. -/
theorem Kept.isEmpty_append {other : ErrorTree α} (h : other.Kept) (hf : other.isEmpty = false)
    (t : ErrorTree α) : (t.append other).isEmpty = false := by
  obtain ⟨place, hp⟩ := h.exists_messagesAt_ne_nil hf
  rw [← Bool.not_eq_true]
  intro he
  have hnone := messagesAt_of_isEmpty he place
  rw [h.follows] at hnone
  exact hp (List.append_eq_nil_iff.mp hnone).2

private theorem kept_appendChildren {children : SortedMap (ErrorTree α)}
    (filled : ∀ e ∈ children, e.2.isEmpty = false) (kept : ∀ e ∈ children, Kept e.2)
    (h : ∀ e ∈ children, ∀ t : ErrorTree α, t.Kept → (t.append e.2).Kept) {t : ErrorTree α}
    (ht : t.Kept) : (t.appendChildren children).Kept := by
  induction children generalizing t with
  | nil => exact ht
  | cons e rest ih =>
    obtain ⟨key, inner⟩ := e
    obtain ⟨hfilled, hfilled'⟩ := List.forall_mem_cons.mp filled
    obtain ⟨hkept, hkept'⟩ := List.forall_mem_cons.mp kept
    obtain ⟨hinner, hothers⟩ := List.forall_mem_cons.mp h
    rw [appendChildren, if_neg (by simp [hfilled])]
    exact ih hfilled' hkept' hothers
      (ht.setChild key (hinner _ (ht.child key)) (hkept.isEmpty_append hfilled _))

private theorem Kept.append {other : ErrorTree α} (h : other.Kept) {t : ErrorTree α} (ht : t.Kept) :
    (t.append other).Kept := by
  induction h generalizing t with
  | @node messages children ascending filled kept ih =>
    rw [ErrorTree.append]
    refine kept_appendChildren filled kept (fun e he t ht => ih e he ht) ?_
    cases ht with
    | node ascending filled kept => exact .node ascending filled kept

private theorem Kept.mergeAt {t other : ErrorTree α} (h : t.Kept) (key : String) (ho : other.Kept) :
    (t.mergeAt key other).Kept := by
  rw [mergeAt_eq]
  cases he : other.isEmpty with
  | true => exact h
  | false => exact h.setChild key (ho.append (h.child key)) (ho.isEmpty_append he _)

private theorem Built.kept {t : ErrorTree α} (h : t.Built) : t.Kept := by
  induction h with
  | empty => exact kept_empty
  | add m _ ih => exact ih.add m
  | addAt key m _ ih => exact ih.addAt key m
  | mergeAt key _ _ iht iho => exact iht.mergeAt key iho

private theorem Kept.below? {t : ErrorTree α} (h : t.Kept) {place : List String} {u : ErrorTree α}
    (hu : t.below? place = some u) : u.Kept := by
  induction place generalizing t with
  | nil => exact Option.some.inj hu ▸ h
  | cons key place ih =>
    cases h with
    | node ascending filled kept =>
      obtain ⟨inner, hi, hu⟩ := Option.bind_eq_some_iff.mp hu
      exact ih (kept _ (SortedMap.mem_of_get? hi)) hu

/-- No tree below is empty. -/
theorem Kept.isEmpty_below? {t : ErrorTree α} (h : t.Kept) {place : List String}
    {u : ErrorTree α} (hp : place ≠ []) (hu : t.below? place = some u) : u.isEmpty = false := by
  induction place generalizing t with
  | nil => exact absurd rfl hp
  | cons key place ih =>
    cases h with
    | node ascending filled kept =>
      obtain ⟨inner, hi, hu⟩ := Option.bind_eq_some_iff.mp hu
      have hm := SortedMap.mem_of_get? hi
      by_cases hne : place = []
      · subst hne
        exact Option.some.inj hu ▸ filled _ hm
      · exact ih (kept _ hm) hne hu

/-- Trees that have the same messages at every place are the same. -/
theorem Kept.ext {t u : ErrorTree α} (ht : t.Kept) (hu : u.Kept)
    (h : ∀ place, t.messagesAt place = u.messagesAt place) : t = u := by
  induction ht generalizing u with
  | @node messages children ascending filled kept ih =>
    cases hu with
    | @node messages' children' ascending' filled' kept' =>
      have hchild (key : String) (place : List String) :
          ((SortedMap.get? key children).getD empty).messagesAt place =
            ((SortedMap.get? key children').getD empty).messagesAt place := h (key :: place)
      congr 1
      · exact h []
      · refine SortedMap.ext ascending ascending' fun key => ?_
        cases hk : SortedMap.get? key children with
        | none =>
          cases hk' : SortedMap.get? key children' with
          | none => rfl
          | some b =>
            -- a tree that is not empty has a message that the other does not have
            have hm := SortedMap.mem_of_get? hk'
            obtain ⟨place, hp⟩ := (kept' _ hm).exists_messagesAt_ne_nil (filled' _ hm)
            have := hchild key place
            rw [hk, hk', Option.getD_none, messagesAt_empty] at this
            exact absurd this.symm hp
        | some a =>
          have hm := SortedMap.mem_of_get? hk
          cases hk' : SortedMap.get? key children' with
          | none =>
            obtain ⟨place, hp⟩ := (kept _ hm).exists_messagesAt_ne_nil (filled _ hm)
            have := hchild key place
            rw [hk, hk', Option.getD_none, messagesAt_empty] at this
            exact absurd this hp
          | some b =>
            refine congrArg some (ih _ hm (kept' _ (SortedMap.mem_of_get? hk')) fun place => ?_)
            have := hchild key place
            rwa [hk, hk'] at this

/-- Trees may be put under different keys in any order. -/
theorem Kept.mergeAt_comm {t other other' : ErrorTree α} (ht : t.Kept) (ho : other.Kept)
    (ho' : other'.Kept) {key key' : String} (h : key ≠ key') :
    (t.mergeAt key other).mergeAt key' other' = (t.mergeAt key' other').mergeAt key other := by
  refine ((ht.mergeAt key ho).mergeAt key' ho').ext ((ht.mergeAt key' ho').mergeAt key ho)
    fun place => ?_
  rw [ho'.follows.messagesAt_mergeAt, ho.follows.messagesAt_mergeAt,
    ho.follows.messagesAt_mergeAt, ho'.follows.messagesAt_mergeAt, List.append_assoc,
    List.append_assoc]
  congr 1
  cases place with
  | nil => rfl
  | cons k place =>
    rw [messagesUnder, messagesUnder]
    by_cases hk : k = key
    · rw [if_pos hk, if_neg (hk ▸ h), List.append_nil, List.nil_append]
    · rw [if_neg hk, List.append_nil, List.nil_append]

/-! ## Telling all messages -/

mutual
/-- Every message with its place: those of the tree itself, then those of the trees below by
ascending keys. -/
def placed : ErrorTree α → List (List String × α)
  | .node messages children => messages.map (([], ·)) ++ placedChildren children

/-- Every message of the trees under some keys, with its place. -/
def placedChildren : List (String × ErrorTree α) → List (List String × α)
  | [] => []
  | (key, t) :: rest => t.placed.map (fun (place, m) => (key :: place, m)) ++ placedChildren rest
end

/-- The route to a place: its keys with dots between them. Empty keys in front are left out. -/
def dotted (place : List String) : String :=
  ".".intercalate (place.dropWhile String.isEmpty)

/-- Whether a place comes no later than another one: a place comes before those below it, and those
below it come by ascending keys. -/
def Precedes : List String → List String → Prop
  | [], _ => True
  | _ :: _, [] => False
  | key :: place, key' :: place' => key < key' ∨ key = key' ∧ Precedes place place'

mutual
private theorem flattenAt_eq (above : String) : (t : ErrorTree α) →
    t.flattenAt above = t.placed.map fun e => (e.1.foldl route above, e.2)
  | .node messages children => by
    rw [flattenAt, placed, List.map_append, List.map_map, flattenChildren_eq]
    rfl

theorem flattenChildren_eq (above : String) : (children : List (String × ErrorTree α)) →
    flattenChildren above children =
      (placedChildren children).map fun e => (e.1.foldl route above, e.2)
  | [] => rfl
  | (key, t) :: rest => by
    rw [flattenChildren, placedChildren, List.map_append, List.map_map, flattenAt_eq,
      flattenChildren_eq]
    rfl
end

/-- Below a key that is not empty, every key comes after a dot. -/
theorem foldl_route {above : String} (h : above.isEmpty = false) (place : List String) :
    place.foldl route above = ".".intercalate (above :: place) := by
  induction place generalizing above with
  | nil => rw [List.foldl_nil, String.intercalate_singleton]
  | cons key place ih =>
    have hr : route above key = above ++ "." ++ key := by rw [route, if_neg (by simp [h])]
    have hne : (above ++ "." ++ key).isEmpty = false := by
      rw [← Bool.not_eq_true, String.isEmpty_iff, ← String.toList_inj]
      simp
    rw [List.foldl_cons, hr, ih hne, String.intercalate_cons_append, String.intercalate_cons_cons]

private theorem foldl_route_empty (place : List String) : place.foldl route "" = dotted place := by
  induction place with
  | nil => rfl
  | cons key place ih =>
    have hr : route "" key = key := rfl
    rw [List.foldl_cons, hr, dotted]
    cases hk : key.isEmpty with
    | true =>
      rw [List.dropWhile_cons_of_pos hk, String.isEmpty_iff.mp hk]
      exact ih
    | false =>
      rw [List.dropWhile_cons_of_neg (by simp [hk])]
      exact foldl_route hk place

private theorem flatten_eq (t : ErrorTree α) :
    t.flatten = t.placed.map fun e => (dotted e.1, e.2) := by
  rw [flatten, flattenAt_eq]
  simp only [foldl_route_empty]

private theorem mem_placedChildren {children : List (String × ErrorTree α)} {e : List String × α}
    (h : e ∈ placedChildren children) :
    ∃ key ∈ children.map Prod.fst, ∃ place, e.1 = key :: place := by
  induction children with
  | nil => cases h
  | cons c rest ih =>
    obtain ⟨key, t⟩ := c
    rw [placedChildren, List.mem_append, List.mem_map] at h
    rcases h with ⟨e', -, rfl⟩ | h
    · exact ⟨key, List.mem_cons_self, e'.1, rfl⟩
    · obtain ⟨key', hk, hp⟩ := ih h
      exact ⟨key', List.mem_cons_of_mem _ hk, hp⟩

/-- The messages at a place, as they come among all messages. -/
def told (listed : List (List String × α)) (place : List String) : List α :=
  (listed.filter (·.1 == place)).map Prod.snd

private theorem told_append (listed listed' : List (List String × α)) (place : List String) :
    told (listed ++ listed') place = told listed place ++ told listed' place := by
  rw [told, List.filter_append, List.map_append]
  rfl

private theorem told_eq_nil {listed : List (List String × α)} {place : List String}
    (h : ∀ e ∈ listed, e.1 ≠ place) : told listed place = [] := by
  rw [told, List.filter_eq_nil_iff.mpr fun e he => by simpa using h e he]
  rfl

private theorem told_placedChildren {children : SortedMap (ErrorTree α)} (h : children.Ascending)
    (key : String) (place : List String) :
    told (placedChildren children) (key :: place) =
      told ((children.get? key).getD empty).placed place := by
  induction children with
  | nil => rfl
  | cons c rest ih =>
    obtain ⟨k, t⟩ := c
    obtain ⟨hk, hrest⟩ := SortedMap.ascending_cons.mp h
    rw [placedChildren, told_append, SortedMap.get?]
    by_cases he : k = key
    · subst he
      have hnone : told (placedChildren rest) (k :: place) = [] := by
        refine told_eq_nil fun e hm heq => ?_
        obtain ⟨k', hk', place', hp⟩ := mem_placedChildren hm
        rw [hp, List.cons.injEq] at heq
        exact String.lt_irrefl k (heq.1 ▸ hk k' hk')
      rw [if_pos rfl, hnone, List.append_nil, Option.getD_some]
      simp only [told, List.filter_map, List.map_map]
      congr 1
      refine List.filter_congr fun e _ => ?_
      simp
    · rw [if_neg he, ← ih hrest, told_eq_nil, List.nil_append]
      intro e hm heq
      obtain ⟨e', -, rfl⟩ := List.mem_map.mp hm
      exact he (List.cons.inj heq).1

/-- Each message is told once, at its place. -/
theorem Kept.told_placed {t : ErrorTree α} (h : t.Kept) (place : List String) :
    told t.placed place = t.messagesAt place := by
  induction place generalizing t with
  | nil =>
    obtain ⟨messages, children⟩ := t
    have hbelow : told (placedChildren children) [] = [] := by
      refine told_eq_nil fun e hm heq => ?_
      obtain ⟨key, -, place, hp⟩ := mem_placedChildren hm
      rw [hp] at heq
      cases heq
    rw [placed, told_append, hbelow, List.append_nil]
    simp [told, messagesAt, ErrorTree.messages, List.filter_map, Function.comp_def]
  | cons key place ih =>
    have hc := ih (h.child key)
    obtain ⟨messages, children⟩ := t
    rw [placed, told_append, told_eq_nil, List.nil_append]
    · exact (told_placedChildren h.ascending key place).trans hc
    · intro e hm heq
      obtain ⟨m, -, rfl⟩ := List.mem_map.mp hm
      cases heq

/-- Messages are told place by place, those of a place before those below it. -/
theorem Kept.pairwise_placed {t : ErrorTree α} (h : t.Kept) :
    t.placed.Pairwise fun e e' => Precedes e.1 e'.1 := by
  induction h with
  | @node messages children ascending filled kept ih =>
    have hchildren : (placedChildren children).Pairwise fun e e' => Precedes e.1 e'.1 := by
      clear filled kept
      induction children with
      | nil => exact List.Pairwise.nil
      | cons c rest ihrest =>
        obtain ⟨key, t⟩ := c
        obtain ⟨hk, hrest⟩ := SortedMap.ascending_cons.mp ascending
        obtain ⟨ht, hothers⟩ := List.forall_mem_cons.mp ih
        rw [placedChildren, List.pairwise_append]
        refine ⟨List.pairwise_map.mpr (ht.imp fun hp => .inr ⟨rfl, hp⟩), ihrest hrest hothers, ?_⟩
        intro e he e' he'
        obtain ⟨e, -, rfl⟩ := List.mem_map.mp he
        obtain ⟨key', hk', place', hp'⟩ := mem_placedChildren he'
        rw [hp']
        exact .inl (hk key' hk')
    rw [placed, List.pairwise_append]
    refine ⟨List.pairwise_map.mpr (List.pairwise_of_forall fun _ _ => trivial), hchildren, ?_⟩
    intro e he e' _
    obtain ⟨m, -, rfl⟩ := List.mem_map.mp he
    trivial

private theorem Kept.isEmpty_iff_flatten {t : ErrorTree α} (h : t.Kept) :
    t.isEmpty = true ↔ t.flatten = [] := by
  rw [flatten_eq, List.map_eq_nil_iff, h.isEmpty_iff]
  constructor
  · intro hnone
    refine List.eq_nil_iff_forall_not_mem.mpr fun e he => ?_
    have hm : e.2 ∈ told t.placed e.1 :=
      List.mem_map_of_mem (List.mem_filter.mpr ⟨he, beq_self_eq_true e.1⟩)
    rw [h.told_placed, hnone] at hm
    cases hm
  · intro hnone place
    rw [← h.told_placed, hnone]
    rfl

private theorem result_eq_ok_iff {t : ErrorTree α} : t.result = .ok () ↔ t.isEmpty = true := by
  rw [result]
  split <;> simp_all

/-- A tree takes up what is put into it after what is at the same place, and changes nowhere else;
trees may be put under different keys in any order, and no tree below is ever empty. All messages
are told, each once, place by place, with the dotted route to its place; and there is no error just
if nothing is told. -/
theorem messages_conserved {t : ErrorTree α} (ht : t.Built) :
    (∀ m place, (t.add m).messagesAt place =
      t.messagesAt place ++ if place = [] then [m] else []) ∧
    (∀ key m place, (t.addAt key m).messagesAt place =
      t.messagesAt place ++ if place = [key] then [m] else []) ∧
    (∀ key other, Built other → ∀ place, (t.mergeAt key other).messagesAt place =
      t.messagesAt place ++ other.messagesUnder key place) ∧
    (∀ key key' other other', Built other → Built other' → key ≠ key' →
      (t.mergeAt key other).mergeAt key' other' = (t.mergeAt key' other').mergeAt key other) ∧
    (∀ place u, t.below? place = some u →
      u.children.Ascending ∧ (place ≠ [] → u.isEmpty = false)) ∧
    t.flatten = t.placed.map (fun e => (dotted e.1, e.2)) ∧
    (∀ place, told t.placed place = t.messagesAt place) ∧
    (t.placed.Pairwise fun e e' => Precedes e.1 e'.1) ∧
    (t.isEmpty = true ↔ t.flatten = []) ∧
    (t.isEmpty = true ↔ t.result = .ok ()) :=
  ⟨messagesAt_add t, messagesAt_addAt t, fun key _ ho => ho.kept.follows.messagesAt_mergeAt t key,
    fun _ _ _ _ ho ho' hk => ht.kept.mergeAt_comm ho.kept ho'.kept hk,
    fun _ _ hu => ⟨(ht.kept.below? hu).ascending, fun hp => ht.kept.isEmpty_below? hp hu⟩,
    flatten_eq t, ht.kept.told_placed, ht.kept.pairwise_placed,
    ht.kept.isEmpty_iff_flatten, result_eq_ok_iff.symm⟩

/-- Two messages under one key, the second below a key without a letter. -/
def nested : ErrorTree Nat :=
  ((empty : ErrorTree Nat).addAt "b" 1).mergeAt "b" ((empty : ErrorTree Nat).addAt "" 2)

theorem messages_conserved_nested :
    nested.Built ∧ (nested.mergeAt "b" nested).messagesAt ["b", "b"] = [1] ∧
      nested.flatten = [("b", 1), ("b.", 2)] := by
  have hb : nested.Built := .mergeAt "b" (.addAt "b" 1 .empty) (.addAt "" 2 .empty)
  obtain ⟨-, -, hm, -, -, hf, -⟩ := messages_conserved hb
  refine ⟨hb, ?_, ?_⟩
  · rw [hm "b" nested hb]
    decide
  · rw [hf]
    decide

end Switchboard.ErrorTree
