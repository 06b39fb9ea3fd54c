import Switchboard.Text.Printable.Table

/-! Characters that are shown as themselves between quotes. -/

namespace Switchboard.Text.Printable

/-- Whether a character shows and does not combine with the one before it. -/
def isPlain (c : Char) : Bool :=
  if c.toNat < 0x300 then !hidden.has c.toNat
  else !combining.has c.toNat && !hidden.has c.toNat

end Switchboard.Text.Printable
