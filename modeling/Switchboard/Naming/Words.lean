import Switchboard.Text.Cluster
import Switchboard.Text.LetterCase

/-! Names as words. A word ends at a separator, which is dropped, and where the case or the kind of
character changes; of a run of capitals before a small letter the last begins the new word. -/

namespace Switchboard.Naming

open Text

/-- What a grapheme cluster is to a name. A digit is an ASCII digit. -/
inductive Role
  | separator | lower | upper | digit | other
deriving DecidableEq, Repr

/-- What a cluster is to a name. -/
def roleOf (cluster : List Char) : Role :=
  match cluster with
  | ['_'] | ['-'] | [' '] => .separator
  | [c] =>
    if c.isDigit then .digit
    else if LetterCase.isUpper [c] then .upper
    else if LetterCase.isLower [c] then .lower
    else .other
  | cs =>
    if LetterCase.isUpper cs then .upper
    else if LetterCase.isLower cs then .lower
    else .other

/-- Whether a word ends between two clusters, the second of which is followed by a third or by
nothing. -/
def parts (here next : Role) (after : Option Role) : Bool :=
  match here, next with
  | .lower, .upper | .lower, .digit | .upper, .digit | .digit, .lower | .digit, .upper => true
  | .upper, .upper => after == some .lower
  | _, _ => false

/-- The words of a sequence of clusters, `current` being the one begun, in reverse. -/
def wordsFrom (current : List Char) : List (List Char × Role) → List (List Char)
  | [] => [current.reverse]
  | (c, s) :: rest =>
    if s == .separator then current.reverse :: wordsFrom [] rest
    else
      let grown := c.reverse ++ current
      match rest with
      | (_, next) :: later =>
        if parts s next (later.head?.map Prod.snd) then grown.reverse :: wordsFrom [] rest
        else wordsFrom grown rest
      | [] => wordsFrom grown rest

/-- The words of a name, empty ones between neighbouring separators included. -/
def words (name : List Char) : List (List Char) :=
  wordsFrom [] ((Cluster.split name).map fun c => (c, roleOf c))

end Switchboard.Naming
