/-!
# Hexadecimal digits

Two digits for a number below 256, and the value of a digit in either case.

    hexDigit? (Nat.digitChar n) = some n  for n < 16                    (hexDigit?_digitChar)
-/

namespace MotorSketch.Text

def hexPair (n : Nat) : List Char := [Nat.digitChar (n / 16), Nat.digitChar (n % 16)]

def hexDigit? (c : Char) : Option Nat :=
  if '0' ≤ c ∧ c ≤ '9' then some (c.toNat - '0'.toNat)
  else if 'a' ≤ c ∧ c ≤ 'f' then some (c.toNat - 'a'.toNat + 10)
  else if 'A' ≤ c ∧ c ≤ 'F' then some (c.toNat - 'A'.toNat + 10)
  else none

theorem hexDigit?_digitChar : ∀ n, n < 16 → hexDigit? (Nat.digitChar n) = some n := by
  decide

end MotorSketch.Text
