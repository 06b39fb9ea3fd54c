import Switchboard.SortedMap

/-! Error trees: messages found at many places, each kept at its place. A place is a list of keys.
-/

namespace Switchboard

/-- The messages at a place and, under ascending keys, the trees of the places below it. -/
inductive ErrorTree (α : Type)
  | node (messages : List α) (children : List (String × ErrorTree α))
deriving Repr, Inhabited

namespace ErrorTree

variable {α : Type}

def empty : ErrorTree α := .node [] []

def messages : ErrorTree α → List α
  | .node messages _ => messages

def children : ErrorTree α → SortedMap (ErrorTree α)
  | .node _ children => children

mutual
/-- Whether there is no message at any place. -/
def isEmpty : ErrorTree α → Bool
  | .node messages children => messages.isEmpty && allEmpty children

/-- Whether there is no message in any of some trees. -/
def allEmpty : List (String × ErrorTree α) → Bool
  | [] => true
  | (_, t) :: rest => t.isEmpty && allEmpty rest
end

/-- The tree itself as an error, unless there is no message at any place. -/
def result (t : ErrorTree α) : Except (ErrorTree α) Unit :=
  if t.isEmpty then .ok () else .error t

/-- The tree with one more message at its own place. -/
def add (t : ErrorTree α) (m : α) : ErrorTree α := .node (t.messages ++ [m]) t.children

/-- The tree below that has a key, which is empty if nothing is there. -/
def child (t : ErrorTree α) (key : String) : ErrorTree α :=
  (t.children.get? key).getD empty

/-- The tree with another one in place of the one under a key. -/
def setChild (t : ErrorTree α) (key : String) (inner : ErrorTree α) : ErrorTree α :=
  .node t.messages (SortedMap.insert key inner t.children)

/-- The tree with one more message under a key. -/
def addAt (t : ErrorTree α) (key : String) (m : α) : ErrorTree α :=
  t.setChild key ((t.child key).add m)

mutual
/-- A tree with all messages of another one after its own, place by place. -/
def append (t : ErrorTree α) : ErrorTree α → ErrorTree α
  | .node messages children => appendChildren (.node (t.messages ++ messages) t.children) children

/-- A tree with others after what is under their keys. Those without a message leave no trace. -/
def appendChildren (t : ErrorTree α) : List (String × ErrorTree α) → ErrorTree α
  | [] => t
  | (key, inner) :: rest =>
    appendChildren
      (if inner.isEmpty then t else t.setChild key ((t.child key).append inner)) rest
end

/-- The tree with all messages of another one under a key. One without a message leaves no trace. -/
def mergeAt (t : ErrorTree α) (key : String) (other : ErrorTree α) : ErrorTree α :=
  t.appendChildren [(key, other)]

/-- The route to a key below a route. -/
def route (above key : String) : String :=
  if above.isEmpty then key else above ++ "." ++ key

mutual
/-- Every message with its route, when the tree itself is at a route. -/
def flattenAt (above : String) : ErrorTree α → List (String × α)
  | .node messages children => messages.map (above, ·) ++ flattenChildren above children

/-- Every message of the trees below a route. -/
def flattenChildren (above : String) : List (String × ErrorTree α) → List (String × α)
  | [] => []
  | (key, t) :: rest => t.flattenAt (route above key) ++ flattenChildren above rest
end

/-- Every message with its route: those of a place in the order they came, then the places below by
ascending keys. -/
def flatten (t : ErrorTree α) : List (String × α) := t.flattenAt ""

/-- One message on a line of its own, its route in front. -/
def line (write : α → String) : String × α → String
  | (route, m) => if route.isEmpty then write m else route ++ ": " ++ write m

/-- All messages, a line for each. -/
def text (write : α → String) (t : ErrorTree α) : String :=
  "\n".intercalate (t.flatten.map (line write))

end ErrorTree

end Switchboard
