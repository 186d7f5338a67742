/-!
# Double-precision magnitudes

A non-negative number with a significand of at most 53 bits and an exponent of at least -1074.
Products and quotients are rounded to the nearest such number, ties to the even significand;
beyond the largest one there is none.

    |2 * n - 2 * roundHalfEven n d * d| ≤ d, as two inequalities
                                                                       (roundHalfEven_bounds)
-/

namespace MotorSketch

/-- The number `significand * 2 ^ exponent`. -/
structure Double where
  significand : Nat
  exponent : Int
  deriving DecidableEq

namespace Double

/-! ## Algorithm -/

def roundHalfEven (num den : Nat) : Nat :=
  let below := num / den
  let rest := num % den
  if 2 * rest < den then below
  else if den < 2 * rest then below + 1
  else below + below % 2

/-- The fraction `num / den * 2 ^ shift`, as numerator and denominator. -/
def shifted (num den : Nat) (shift : Int) : Nat × Nat :=
  (num * Nat.pow 2 shift.toNat, den * Nat.pow 2 (-shift).toNat)

def zero : Double := ⟨0, -1074⟩

/-- The double nearest to `num / den`, unless that lies beyond the largest one. -/
def nearest? (num den : Nat) : Option Double :=
  if num = 0 then some zero
  else
    let guess : Int := max ((num.log2 : Int) - den.log2 - 53) (-1074)
    let (n, d) := shifted num den (-guess)
    let exponent := if n / d < Nat.pow 2 53 then guess else guess + 1
    let (n, d) := shifted num den (-exponent)
    let significand := roundHalfEven n d
    let (significand, exponent) :=
      if significand = Nat.pow 2 53 then (Nat.pow 2 52, exponent + 1) else (significand, exponent)
    if exponent ≤ 971 then some ⟨significand, exponent⟩ else none

def ofNat? (n : Nat) : Option Double := nearest? n 1

def mul? (x y : Double) : Option Double :=
  let (n, d) := shifted (x.significand * y.significand) 1 (x.exponent + y.exponent)
  nearest? n d

/-- The quotient; `y` is not zero. -/
def div? (x y : Double) : Option Double :=
  let (n, d) := shifted x.significand y.significand (x.exponent - y.exponent)
  nearest? n d

/-! ## Lemmas -/

theorem roundHalfEven_bounds (n : Nat) {d : Nat} (hd : 0 < d) :
    2 * n ≤ 2 * (roundHalfEven n d * d) + d ∧ 2 * (roundHalfEven n d * d) ≤ 2 * n + d := by
  have h := Nat.div_add_mod n d
  have hr := Nat.mod_lt n hd
  have hc : d * (n / d) = n / d * d := Nat.mul_comm ..
  have hs : (n / d + 1) * d = n / d * d + d := by rw [Nat.add_mul, Nat.one_mul]
  unfold roundHalfEven
  simp only
  split
  · omega
  · split
    · rw [hs]
      omega
    · rcases Nat.mod_two_eq_zero_or_one (n / d) with e | e
      · rw [e, Nat.add_zero]
        omega
      · rw [e, hs]
        omega

end Double

end MotorSketch
