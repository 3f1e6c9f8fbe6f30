import LanguageRoster.Decimal.Shortest

/-!
# Numbers with infinities

Finite binary fractions, the two infinities, and the result that is no number.
-/

namespace LanguageRoster

set_option autoImplicit false

inductive Extended where
  | finite (x : Binary64)
  | infinite (negative : Bool)
  | notANumber
  deriving DecidableEq, Repr

namespace Extended

def isZero : Extended → Bool
  | .finite x => x.significand == 0
  | _ => false

def write (f : DecimalStyle) : Extended → Text
  | .finite x => f.write x
  | .infinite negative => (if negative then ['-'] else []) ++ ['i', 'n', 'f']
  | .notANumber => ['N', 'a', 'N']

end Extended

end LanguageRoster
