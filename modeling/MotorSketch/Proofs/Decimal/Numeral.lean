/-!
# Decimal numerals

A text is the numeral of a number when it is made of decimal digits only, has no zero in front of
further digits, and has the number as its value.  Each number has one numeral, the one that is
printed.

    (toDigits 10 n).head? = some '0' → n = 0                       (eq_zero_of_head?_toDigits)
    0 < n → toDigits 10 (ofDigitChars 10 ds n) = toDigits 10 n ++ ds    (toDigits_ofDigitChars)
    IsNumeral n s ↔ toString n = s                                      (isNumeral_iff)
-/

namespace MotorSketch.Decimal

structure IsNumeral (n : Nat) (s : String) : Prop where
  ne_empty : s ≠ ""
  /-- From `0` to `9`; neither signs nor blanks. -/
  digits : ∀ c ∈ s.toList, c.isDigit
  no_leading_zero : ∀ rest, s.toList = '0' :: rest → rest = []
  value : Nat.ofDigitChars 10 s.toList 0 = n

theorem IsNumeral.unique {m n : Nat} {s : String} (hm : IsNumeral m s) (hn : IsNumeral n s) :
    m = n :=
  hm.value.symm.trans hn.value

/-! ## Printed digits -/

/-- A number has the first digit of its tenth, so by induction that of a number below ten. -/
theorem eq_zero_of_head?_toDigits {n : Nat} (h : (Nat.toDigits 10 n).head? = some '0') : n = 0 := by
  induction n using Nat.strongRecOn with
  | ind n ih =>
    by_cases hn : n < 10
    · rw [Nat.toDigits_of_lt_base hn, List.head?_cons, Option.some_inj] at h
      exact Nat.digitChar_eq_zero.1 h
    · have hhead : (Nat.toDigits 10 (n / 10)).head? = some '0' := by
        rw [Nat.toDigits_of_base_le (by omega) (by omega)] at h
        rwa [List.head?_append, List.head?_eq_some_head Nat.toDigits_ne_nil, Option.some_or,
          ← List.head?_eq_some_head] at h
      have hzero := ih (n / 10) (by omega) hhead
      omega

theorem no_leading_zero_toDigits {n : Nat} {rest : List Char}
    (h : Nat.toDigits 10 n = '0' :: rest) : rest = [] := by
  have hn : n = 0 := eq_zero_of_head?_toDigits (by rw [h, List.head?_cons])
  rw [hn, Nat.toDigits_zero] at h
  exact (List.cons.inj h).2.symm

/-! ## Digits that are read -/

theorem digitChar_of_isDigit {c : Char} (h : c.isDigit) :
    c.toNat - '0'.toNat < 10 ∧ Nat.digitChar (c.toNat - '0'.toNat) = c := by
  obtain ⟨hlow, hhigh⟩ := Char.isDigit_iff_toNat.1 h
  have hzero : '0'.toNat = 48 := rfl
  have hnine : '9'.toNat = 57 := rfl
  have hlt : c.toNat - '0'.toNat < 10 := by omega
  refine ⟨hlt, Char.toNat_inj.1 ?_⟩
  rw [Nat.toNat_digitChar_of_lt_ten hlt]
  omega

/-- Digits behind a number other than zero are printed as they were read. -/
theorem toDigits_ofDigitChars {ds : List Char} (hd : ∀ c ∈ ds, c.isDigit) {n : Nat} (hn : 0 < n) :
    Nat.toDigits 10 (Nat.ofDigitChars 10 ds n) = Nat.toDigits 10 n ++ ds := by
  induction ds generalizing n with
  | nil => rw [Nat.ofDigitChars_nil, List.append_nil]
  | cons d ds ih =>
    obtain ⟨hlt, hchar⟩ := digitChar_of_isDigit (hd d List.mem_cons_self)
    calc
      Nat.toDigits 10 (Nat.ofDigitChars 10 (d :: ds) n)
      _ = Nat.toDigits 10 (10 * n + (d.toNat - '0'.toNat)) ++ ds := by
        rw [Nat.ofDigitChars_cons, ih (fun c hc => hd c (List.mem_cons_of_mem d hc)) (by omega)]
      _ = (Nat.toDigits 10 n ++ Nat.toDigits 10 (d.toNat - '0'.toNat)) ++ ds := by
        rw [Nat.toDigits_append_toDigits (by omega) hn hlt]
      _ = Nat.toDigits 10 n ++ d :: ds := by
        rw [Nat.toDigits_of_lt_base hlt, hchar, List.append_assoc, List.singleton_append]

/-! ## Numerals -/

theorem isNumeral_toString (n : Nat) : IsNumeral n (toString n) := by
  have hlist : (toString n).toList = Nat.toDigits 10 n := Nat.toList_repr
  constructor
  · exact Nat.repr_ne_empty
  · intro c hc
    rw [hlist] at hc
    exact Nat.isDigit_of_mem_toDigits (by omega) (by omega) hc
  · intro rest h
    exact no_leading_zero_toDigits (hlist ▸ h)
  · rw [hlist, Nat.ofDigitChars_ten_toDigits]

theorem IsNumeral.toDigits {n : Nat} {s : String} (h : IsNumeral n s) :
    Nat.toDigits 10 n = s.toList := by
  cases hs : s.toList with
  | nil => exact absurd (String.toList_eq_nil_iff.1 hs) h.ne_empty
  | cons d ds =>
    have hdigits := h.digits
    rw [hs] at hdigits
    obtain ⟨hlt, hchar⟩ := digitChar_of_isDigit (hdigits d List.mem_cons_self)
    have hvalue := h.value
    rw [hs, Nat.ofDigitChars_cons, Nat.mul_zero, Nat.zero_add] at hvalue
    by_cases hd : d = '0'
    · have hds : ds = [] := h.no_leading_zero ds (hd ▸ hs)
      rw [← hvalue, hds, hd]
      rfl
    · have hpos : 0 < d.toNat - '0'.toNat := by
        rw [Nat.pos_iff_ne_zero]
        intro hzero
        rw [hzero] at hchar
        exact hd hchar.symm
      rw [← hvalue, toDigits_ofDigitChars (fun c hc => hdigits c (List.mem_cons_of_mem d hc)) hpos,
        Nat.toDigits_of_lt_base hlt, hchar, List.singleton_append]

theorem toString_injective : Function.Injective (toString : Nat → String) := fun m n h =>
  (isNumeral_toString m).unique (h ▸ isNumeral_toString n)

theorem isNumeral_iff {n : Nat} {s : String} : IsNumeral n s ↔ toString n = s := by
  constructor
  · intro h
    exact String.toList_injective (Nat.toList_repr.trans h.toDigits)
  · rintro rfl
    exact isNumeral_toString n

end MotorSketch.Decimal
