import Switchboard.Text.Cluster.Table

/-! Grapheme clusters: the units that a reader takes for one character. Splitting loses nothing. -/

namespace Switchboard.Text.Cluster

/-- The part that a character plays in a cluster. -/
inductive Part
  | carriageReturn | lineFeed | control | extend | joiner | spacing | prepend
  | regional | leading | vowel | trailing | syllable | closedSyllable | pictograph | other
deriving DecidableEq, Repr

/-- The part that a character plays. A precomposed syllable is closed unless it begins its row. -/
def partOf (c : Char) : Part :=
  let n := c.toNat
  if 0x20 ≤ n && n < 0x7f then .other
  else if n == 0xd then .carriageReturn
  else if n == 0xa then .lineFeed
  else if n == 0x200d then .joiner
  else if controls.has n then .control
  else if extenders.has n then .extend
  else if spacingMarks.has n then .spacing
  else if prepends.has n then .prepend
  else if 0x1f1e6 ≤ n && n ≤ 0x1f1ff then .regional
  else if (0x1100 ≤ n && n ≤ 0x115f) || (0xa960 ≤ n && n ≤ 0xa97c) then .leading
  else if (0x1160 ≤ n && n ≤ 0x11a7) || (0xd7b0 ≤ n && n ≤ 0xd7c6) then .vowel
  else if (0x11a8 ≤ n && n ≤ 0x11ff) || (0xd7cb ≤ n && n ≤ 0xd7fb) then .trailing
  else if 0xac00 ≤ n && n ≤ 0xd7a3 then
    if (n - 0xac00) % 28 == 0 then .syllable else .closedSyllable
  else if pictographs.has n then .pictograph
  else .other

/-- How far a chain that two further characters may join has come. -/
inductive Chain
  | none | opened | ready
deriving DecidableEq, Repr

/-- What a cluster remembers of the characters read so far. -/
structure Memory where
  /-- The part of the character before. -/
  last : Part
  /-- Whether an odd number of regional indicators stands right before. -/
  flag : Bool
  /-- A pictograph, then a joiner after it. -/
  emoji : Chain
  /-- A conjunct consonant, then a linker after it. -/
  conjunct : Chain

/-- What is remembered after one more character. -/
def Memory.next (m : Memory) (c : Char) (p : Part) : Memory where
  last := p
  flag := p == .regional && !m.flag
  emoji :=
    if p == .pictograph then .opened
    else if m.emoji == .opened && p == .extend then .opened
    else if m.emoji == .opened && p == .joiner then .ready
    else .none
  conjunct :=
    if conjunctConsonants.has c.toNat then .opened
    else if m.conjunct == .none then .none
    else if conjunctLinkers.has c.toNat then .ready
    else if p == .extend || p == .joiner then m.conjunct
    else .none

/-- What is remembered after a first character. -/
def Memory.start (c : Char) (p : Part) : Memory :=
  Memory.next ⟨.other, false, .none, .none⟩ c p

/-- Whether a character continues the cluster before it. -/
def Memory.joins (m : Memory) (c : Char) (p : Part) : Bool :=
  match m.last, p with
  | .carriageReturn, .lineFeed => true
  | .carriageReturn, _ | .lineFeed, _ | .control, _ => false
  | _, .carriageReturn | _, .lineFeed | _, .control => false
  | .leading, .leading | .leading, .vowel | .leading, .syllable | .leading, .closedSyllable => true
  | .syllable, .vowel | .syllable, .trailing | .vowel, .vowel | .vowel, .trailing => true
  | .closedSyllable, .trailing | .trailing, .trailing => true
  | _, .extend | _, .joiner | _, .spacing => true
  | .prepend, _ => true
  | _, .pictograph => m.emoji == .ready
  | _, .regional => m.flag
  | _, _ => m.conjunct == .ready && conjunctConsonants.has c.toNat

/-- The clusters of a text that goes on from `current`, a cluster held in reverse. -/
def splitFrom (m : Memory) (current : List Char) : List Char → List (List Char)
  | [] => [current.reverse]
  | c :: rest =>
    let p := partOf c
    if m.joins c p then splitFrom (m.next c p) (c :: current) rest
    else current.reverse :: splitFrom (m.next c p) [c] rest

def split : List Char → List (List Char)
  | [] => []
  | c :: rest => splitFrom (.start c (partOf c)) [c] rest

end Switchboard.Text.Cluster
