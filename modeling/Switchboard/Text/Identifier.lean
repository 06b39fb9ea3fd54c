import Switchboard.Text.Identifier.Table

/-! Characters of identifiers, of every script. The underscore may begin one. -/

namespace Switchboard.Text.Identifier

/-- Whether a character may begin an identifier. -/
def isStart (c : Char) : Bool :=
  if c.toNat < 128 then c.isAlpha || c == '_' else starts.has c.toNat

/-- Whether a character may stand in an identifier after its first. -/
def isContinue (c : Char) : Bool :=
  if c.toNat < 128 then c.isAlphanum || c == '_' else starts.has c.toNat || followers.has c.toNat

/-- What may begin an identifier may also stand later in one. -/
theorem isContinue_of_isStart {c : Char} (h : isStart c = true) : isContinue c = true := by
  unfold isStart at h
  unfold isContinue
  split at h <;> simp_all [Char.isAlphanum]
  rcases h with h | h <;> simp [h]

end Switchboard.Text.Identifier
