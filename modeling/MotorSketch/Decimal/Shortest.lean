import MotorSketch.Decimal.Double

/-!
# Shortest decimals

The decimal of a double with the fewest digits among those that lie in its rounding interval,
and of these the nearest to it; an exact tie goes to the even digit.  `Style` says how such a
decimal is written.
-/

namespace MotorSketch.Decimal

/-! ## Algorithm -/

/-- The number `digits * 10 ^ exponent`. -/
structure Scientific where
  digits : Nat
  exponent : Int
  deriving DecidableEq

/-- A double with the ends of its rounding interval, all over the denominator `den`; the ends
belong to the interval when `closed` holds. -/
structure Interval where
  low : Nat
  value : Nat
  high : Nat
  den : Nat
  closed : Bool

/-- Half the distance to the neighbours on either side; below a power of two the neighbour is
only half as far. -/
def Interval.of (x : Double) : Interval :=
  let narrow : Nat := if x.significand = Nat.pow 2 52 ∧ -1074 < x.exponent then 1 else 2
  let num := Nat.pow 2 x.exponent.toNat
  ⟨(4 * x.significand - narrow) * num, 4 * x.significand * num, (4 * x.significand + 2) * num,
    4 * Nat.pow 2 (-x.exponent).toNat, x.significand % 2 = 0⟩

/-- Whether `n * 10 ^ exponent` lies in the interval. -/
def Interval.holds (i : Interval) (n : Nat) (exponent : Int) : Bool :=
  let p := n * Nat.pow 10 exponent.toNat * i.den
  let q := Nat.pow 10 (-exponent).toNat
  if i.closed then i.low * q ≤ p && p ≤ i.high * q else i.low * q < p && p < i.high * q

/-- The number of digits before the point, or minus the number of zeros behind it. -/
def magnitude (num den : Nat) : Int :=
  if den ≤ num then (Nat.toDigits 10 (num / den)).length
  else (1 : Int) - (Nat.toDigits 10 ((den - 1) / num)).length

/-- The nearest point of the grid of `10 ^ exponent` in the interval, if there is one. -/
def Interval.gridPoint? (i : Interval) (exponent : Int) : Option Nat :=
  let num := i.value * Nat.pow 10 (-exponent).toNat
  let den := i.den * Nat.pow 10 exponent.toNat
  let below := num / den
  let nearest := Double.roundHalfEven num den
  let other := if nearest = below then below + 1 else below
  if i.holds nearest exponent then some nearest
  else if i.holds other exponent then some other
  else none

/-- Tries one digit more at a time, `tries` times at most. -/
def Interval.shortestFrom (i : Interval) (exponent : Int) : Nat → Scientific
  | 0 => ⟨0, 0⟩
  | tries + 1 =>
    match i.gridPoint? exponent with
    | some n => ⟨n, exponent⟩
    | none => i.shortestFrom (exponent - 1) tries

/-- Seventeen digits always suffice. -/
def shortest (x : Double) : Scientific :=
  let i := Interval.of x
  i.shortestFrom (magnitude i.value i.den - 1) 17

/-- Trailing zeros move into the exponent. -/
def Scientific.digitText (s : Scientific) : List Char × Int :=
  let all := Nat.toDigits 10 s.digits
  let kept := (all.reverse.dropWhile (· == '0')).reverse
  (kept, s.exponent + (all.length - kept.length : Nat))

/-- An exponent has its sign, also when it is positive, and no leading zeros. -/
def exponentText (n : Int) : List Char :=
  'e' :: (if n < 0 then '-' else '+') :: Nat.toDigits 10 n.natAbs

/-- Positional notation with at most `places` digits before the point and at most `zeros` zeros
directly behind it; any other number has one digit before the point and an exponent. -/
structure Style where
  places : Int
  zeros : Int

def Style.write (f : Style) (s : Scientific) : List Char :=
  let (ds, exponent) := s.digitText
  let point : Int := ds.length + exponent
  if 0 ≤ exponent ∧ point ≤ f.places then
    ds ++ List.replicate exponent.toNat '0' ++ ['.', '0']
  else if 0 < point ∧ point ≤ f.places then
    ds.take point.toNat ++ '.' :: ds.drop point.toNat
  else if -f.zeros ≤ point ∧ point ≤ 0 then
    ['0', '.'] ++ List.replicate (-point).toNat '0' ++ ds
  else
    (match ds with
      | [d] => [d]
      | d :: more => d :: '.' :: more
      | [] => ['0']) ++ exponentText (point - 1)

end MotorSketch.Decimal
