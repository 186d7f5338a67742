import MotorSketch.Decimal.Shortest
import MotorSketch.Json.Numeral

/-!
# The value of a numeral

Whole numbers that fit into 64 bits, with or without a sign, are integers.  Every other numeral
is a double; it has no value when it is too large for one.
-/

namespace MotorSketch.Json

inductive Number
  | integer (n : Int)
  | double (negative : Bool) (magnitude : Double)
  deriving DecidableEq

namespace Number

/-! ## Algorithm -/

/-- The first digits of a number that make up a 64-bit significand, and a power of ten. -/
structure Scaled where
  significand : Nat
  power : Int

def digit (c : Char) : Nat := c.toNat - '0'.toNat

/-- Whole digits beyond 64 bits only count as powers of ten. -/
def takeWhole (s : Scaled) : List Char → Scaled
  | [] => s
  | c :: rest =>
    if s.power = 0 ∧ s.significand * 10 + digit c < Nat.pow 2 64 then
      takeWhole ⟨s.significand * 10 + digit c, 0⟩ rest
    else takeWhole ⟨s.significand, s.power + 1⟩ rest

/-- The digits of the fraction from the first one on that does not fit are dropped. -/
def takeFraction (s : Scaled) : List Char → Scaled
  | [] => s
  | c :: rest =>
    if s.significand * 10 + digit c < Nat.pow 2 64 then
      takeFraction ⟨s.significand * 10 + digit c, s.power - 1⟩ rest
    else s

/-- The written exponent; `none` when its digits do not fit into 31 bits. -/
def exponentValue? (e : Exponent) : Option Int :=
  let n := e.digits.foldl (fun n c => n * 10 + digit c) 0
  if n < Nat.pow 2 31 then some (if e.sign = some '-' then -n else n) else none

def powerOfTen? (n : Nat) : Option Double := Double.ofNat? (Nat.pow 10 n)

/-- Divides by the greatest power of ten, 10 ^ 308, until the exponent is in its reach; three
rounds take every 64-bit significand to zero. -/
def scale (x : Double) (power : Int) : Nat → Option Double
  | 0 => some x
  | rounds + 1 =>
    if 0 ≤ power then
      if power ≤ 308 then (powerOfTen? power.toNat).bind x.mul?
      else if x.significand = 0 then some x
      else none
    else if -308 ≤ power then (powerOfTen? (-power).toNat).bind x.div?
    else if x.significand = 0 then some x
    else ((powerOfTen? 308).bind x.div?).bind fun y => scale y (power + 308) rounds

def double? (s : Scaled) : Option Double :=
  (Double.ofNat? s.significand).bind fun x => scale x s.power 4

/-- A numeral without fraction and exponent whose value fits. -/
def integer? (n : Numeral) (s : Scaled) : Option Int :=
  if n.fraction = none ∧ n.exponent = none ∧ s.power = 0 then
    if n.negative then
      if 0 < s.significand ∧ s.significand ≤ Nat.pow 2 63 then some (-s.significand) else none
    else some s.significand
  else none

def ofNumeral? (n : Numeral) : Option Number :=
  let s := takeWhole ⟨0, 0⟩ n.whole
  match integer? n s with
  | some i => some (.integer i)
  | none =>
    let s := takeFraction s (n.fraction.getD [])
    let magnitude? :=
      match n.exponent with
      | none => double? s
      | some e =>
        match exponentValue? e with
        | some p => double? ⟨s.significand, s.power + p⟩
        | none => if s.significand = 0 ∨ e.sign = some '-' then some .zero else none
    magnitude?.map (.double n.negative)

/-- Doubles are written positionally up to sixteen places before the point and four zeros behind
it. -/
def doubleStyle : Decimal.Style := ⟨16, 4⟩

def doubleText (x : Double) : List Char :=
  if x.significand = 0 then ['0', '.', '0'] else doubleStyle.write (Decimal.shortest x)

def text : Number → String
  | integer n => toString n
  | double negative x => String.ofList ((if negative then ['-'] else []) ++ doubleText x)

end Number

end MotorSketch.Json
