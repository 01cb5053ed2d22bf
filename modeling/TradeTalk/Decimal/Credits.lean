import TradeTalk.Decimal.Basic
import TradeTalk.Decimal.Rounding

/-!
# `TradeTalk.Decimal.Credits` — amounts of money as they are shown

An amount is shown with exactly two fraction digits, rounded half away from zero. An amount that becomes zero by this
rounding is shown without a sign; one that is zero already keeps the sign it has.

## Contents
- **`Decimal.hundredths`**: the rounded magnitude in hundredths.
- **`Decimal.credits`**: the text.
-/

namespace TradeTalk.Decimal

/-- The magnitude of a decimal in hundredths, rounded half up. -/
def hundredths (d : Decimal) : Nat :=
  if d.scale ≤ 2 then d.mantissa * tenTo (2 - d.scale) else roundHalfUp d.mantissa (tenTo (d.scale - 2))

/-- An amount with two fraction digits. Only what is rounded to zero here loses its sign. -/
def credits (d : Decimal) : String :=
  String.ofList (sign (d.negative && (d.mantissa == 0 || d.hundredths != 0)) ++ positional 2 d.hundredths)

end TradeTalk.Decimal
