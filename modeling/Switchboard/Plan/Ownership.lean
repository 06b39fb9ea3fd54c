import Switchboard.Schema.Model

/-! Ownership: every claimed type belongs to the first group that claims it. -/

namespace Switchboard

/-- A claim that came after another one for the same type. It is told of and nothing else. -/
structure DroppedClaim where
  path : SchemaPath
  group : Nat
  owner : Nat
deriving DecidableEq, Repr

/-- Who owns what. -/
structure Ownership where
  /-- The owner of each type, by the text of its path. -/
  owners : SortedMap Nat
  owned : List (List SchemaPath)
  dropped : List DroppedClaim
deriving DecidableEq, Repr

namespace Ownership

/-- The claims of a group in order: the owners with them, those that are kept, and those that are
dropped. -/
def claim (group : Nat) (owners : SortedMap Nat) :
    List SchemaPath → SortedMap Nat × List SchemaPath × List DroppedClaim
  | [] => (owners, [], [])
  | p :: rest =>
    match SortedMap.get? p.text owners with
    | some owner =>
      let (owners, kept, dropped) := claim group owners rest
      (owners, kept, ⟨p, group, owner⟩ :: dropped)
    | none =>
      let (owners, kept, dropped) := claim group (SortedMap.insert p.text group owners) rest
      (owners, p :: kept, dropped)

/-- The claims of groups in order, the first of which has an index. -/
def resolveFrom (index : Nat) (owners : SortedMap Nat) : List Group → Ownership
  | [] => ⟨owners, [], []⟩
  | g :: rest =>
    let (owners, kept, dropped) := claim index owners g.claims
    let later := resolveFrom (index + 1) owners rest
    ⟨later.owners, kept :: later.owned, dropped ++ later.dropped⟩

/-- Who owns what, when groups claim in order. -/
def resolve (groups : List Group) : Ownership := resolveFrom 0 [] groups

def ownerOf (o : Ownership) (p : SchemaPath) : Option Nat := SortedMap.get? p.text o.owners

/-- The types of a group. One that is not there owns nothing. -/
def ownedBy (o : Ownership) (group : Nat) : List SchemaPath := (o.owned[group]?).getD []

def groupCount (o : Ownership) : Nat := o.owned.length

def size (o : Ownership) : Nat := o.owners.length

def isEmpty (o : Ownership) : Bool := o.owners.isEmpty

/-- Every type with its owner, group by group. -/
def pairs (o : Ownership) : List (SchemaPath × Nat) :=
  o.owned.zipIdx.flatMap fun (paths, group) => paths.map (·, group)

end Ownership

end Switchboard
