/-! The least and greatest whole numbers of 64 bits. -/

namespace Switchboard.Bounds

/-- The least number with a sign. -/
def signedLeast : Int := -9223372036854775808

/-- The greatest number with a sign. -/
def signedGreatest : Int := 9223372036854775807

/-- The greatest number without a sign. -/
def unsignedGreatest : Int := 18446744073709551615

end Switchboard.Bounds
