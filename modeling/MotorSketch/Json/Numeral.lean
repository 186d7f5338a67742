import MotorSketch.Json.Fault

/-!
# Numerals

A number as it is written: an optional sign, whole digits without a leading zero, an optional
fraction and an optional exponent.

    scan (n.text ++ rest) = .ok (n, rest)  for a well-formed n that rest does not continue
                                                                           (scan_text_append)
-/

namespace MotorSketch.Json

structure Exponent where
  mark : Char
  sign : Option Char
  digits : List Char
  deriving DecidableEq

structure Numeral where
  negative : Bool
  whole : List Char
  /-- The digits behind the point. -/
  fraction : Option (List Char)
  exponent : Option Exponent
  deriving DecidableEq

namespace Numeral

/-! ## Algorithm -/

def fractionText : Option (List Char) → List Char
  | none => []
  | some digits => '.' :: digits

def exponentText : Option Exponent → List Char
  | none => []
  | some e => e.mark :: (e.sign.toList ++ e.digits)

def text (n : Numeral) : List Char :=
  (if n.negative then ['-'] else []) ++ n.whole ++ fractionText n.fraction ++
    exponentText n.exponent

/-- A break behind which a digit had to follow.  Where the value is wanted the end of the text is
a truncation; where it is passed over, the number is malformed either way. -/
def missingDigit (rest : List Char) : Break :=
  ⟨if rest = [] then .truncated else .malformed, .malformed⟩

def scanDigits (cs : List Char) : Except Break (List Char × List Char) :=
  if cs.takeWhile Char.isDigit = [] then .error (missingDigit cs)
  else .ok (cs.takeWhile Char.isDigit, cs.dropWhile Char.isDigit)

def scanWhole (cs : List Char) : Except Break (List Char × List Char) :=
  match scanDigits cs with
  | .error b => .error b
  | .ok ('0' :: _ :: _, _) => .error .malformed
  | .ok found => .ok found

def scanFraction : List Char → Except Break (Option (List Char) × List Char)
  | '.' :: rest =>
    match scanDigits rest with
    | .error b => .error b
    | .ok (digits, rest) => .ok (some digits, rest)
  | rest => .ok (none, rest)

def scanSign : List Char → Option Char × List Char
  | '+' :: rest => (some '+', rest)
  | '-' :: rest => (some '-', rest)
  | rest => (none, rest)

def scanExponent : List Char → Except Break (Option Exponent × List Char)
  | [] => .ok (none, [])
  | c :: rest =>
    if c = 'e' ∨ c = 'E' then
      match scanDigits (scanSign rest).2 with
      | .error b => .error b
      | .ok (digits, more) => .ok (some ⟨c, (scanSign rest).1, digits⟩, more)
    else .ok (none, c :: rest)

/-- The longest number at the front of the text, without its sign. -/
def scanUnsigned (negative : Bool) (cs : List Char) : Except Break (Numeral × List Char) :=
  match scanWhole cs with
  | .error b => .error b
  | .ok (whole, rest) =>
    match scanFraction rest with
    | .error b => .error b
    | .ok (fraction, rest) =>
      match scanExponent rest with
      | .error b => .error b
      | .ok (exponent, rest) => .ok (⟨negative, whole, fraction, exponent⟩, rest)

def scan : List Char → Except Break (Numeral × List Char)
  | '-' :: rest => scanUnsigned true rest
  | cs => scanUnsigned false cs

/-- The whole digits have no leading zero, no digit sequence is empty, and marks and signs are
what they should be. -/
structure WellFormed (n : Numeral) : Prop where
  whole_ne_nil : n.whole ≠ []
  whole_digits : ∀ c ∈ n.whole, c.isDigit
  no_leading_zero : n.whole.head? = some '0' → n.whole = ['0']
  fraction : ∀ ds ∈ n.fraction, ds ≠ [] ∧ ∀ c ∈ ds, c.isDigit
  exponent : ∀ e ∈ n.exponent, (e.mark = 'e' ∨ e.mark = 'E') ∧
    (∀ c ∈ e.sign, c = '+' ∨ c = '-') ∧ e.digits ≠ [] ∧ ∀ c ∈ e.digits, c.isDigit

/-- Characters that would make a number longer. -/
def continues (c : Char) : Bool := c.isDigit || c == '.' || c == 'e' || c == 'E'

/-! ## Lemmas -/

theorem scanDigits_append {ds rest : List Char} (hne : ds ≠ []) (hds : ∀ c ∈ ds, c.isDigit)
    (hr : ∀ c ∈ rest.head?, c.isDigit = false) : scanDigits (ds ++ rest) = .ok (ds, rest) := by
  have htake : rest.takeWhile Char.isDigit = [] := by
    cases rest with
    | nil => rfl
    | cons c rest => simp [hr c (by simp)]
  have hdrop : rest.dropWhile Char.isDigit = rest := by
    cases rest with
    | nil => rfl
    | cons c rest => simp [hr c (by simp)]
  simp [scanDigits, List.takeWhile_append_of_pos hds, List.dropWhile_append_of_pos hds, htake,
    hdrop, hne]

theorem scanWhole_append {ds rest : List Char} (hne : ds ≠ []) (hds : ∀ c ∈ ds, c.isDigit)
    (hz : ds.head? = some '0' → ds = ['0']) (hr : ∀ c ∈ rest.head?, c.isDigit = false) :
    scanWhole (ds ++ rest) = .ok (ds, rest) := by
  rw [scanWhole, scanDigits_append hne hds hr]
  split
  · next h => cases h
  · next h =>
    simp only [Except.ok.injEq, Prod.mk.injEq] at h
    simp [h.1] at hz
  · next h => exact h.symm

theorem scanFraction_append {f : Option (List Char)} {rest : List Char}
    (hf : ∀ ds ∈ f, ds ≠ [] ∧ ∀ c ∈ ds, c.isDigit)
    (hr : ∀ c ∈ rest.head?, c.isDigit = false ∧ c ≠ '.') :
    scanFraction (fractionText f ++ rest) = .ok (f, rest) := by
  cases f with
  | some ds =>
    obtain ⟨hne, hds⟩ := hf ds rfl
    simp [fractionText, scanFraction, scanDigits_append hne hds fun c hc => (hr c hc).1]
  | none =>
    rw [fractionText, List.nil_append, scanFraction.eq_def]
    split
    · exact absurd rfl (hr '.' rfl).2
    · rfl

theorem scanSign_append {sign : Option Char} {ds : List Char}
    (hs : ∀ c ∈ sign, c = '+' ∨ c = '-') (hds : ∀ c ∈ ds.head?, c.isDigit) :
    scanSign (sign.toList ++ ds) = (sign, ds) := by
  cases sign with
  | some c => rcases hs c rfl with rfl | rfl <;> rfl
  | none =>
    rw [Option.toList_none, List.nil_append, scanSign.eq_def]
    split
    · exact absurd (hds '+' rfl) (by decide)
    · exact absurd (hds '-' rfl) (by decide)
    · rfl

theorem scanExponent_append {e : Option Exponent} {rest : List Char}
    (he : ∀ x ∈ e, (x.mark = 'e' ∨ x.mark = 'E') ∧ (∀ c ∈ x.sign, c = '+' ∨ c = '-') ∧
      x.digits ≠ [] ∧ ∀ c ∈ x.digits, c.isDigit)
    (hr : ∀ c ∈ rest.head?, c.isDigit = false ∧ c ≠ 'e' ∧ c ≠ 'E') :
    scanExponent (exponentText e ++ rest) = .ok (e, rest) := by
  cases e with
  | some x =>
    obtain ⟨hm, hs, hne, hds⟩ := he x rfl
    have hhead : ∀ c ∈ (x.digits ++ rest).head?, c.isDigit := by
      intro c hc
      obtain ⟨d, ds, hd⟩ := List.exists_cons_of_ne_nil hne
      rw [hd] at hc
      obtain rfl : d = c := by simpa using hc
      exact hds d (by simp [hd])
    have hsign := scanSign_append hs hhead
    have hdigits := scanDigits_append hne hds fun c hc => (hr c hc).1
    simp only [exponentText, List.cons_append, List.append_assoc, scanExponent, if_pos hm, hsign,
      hdigits]
  | none =>
    rw [exponentText, List.nil_append]
    cases rest with
    | nil => rfl
    | cons c rest => simp [scanExponent, hr c (by simp)]

theorem scanUnsigned_append {n : Numeral} (h : n.WellFormed) {rest : List Char}
    (hr : ∀ c ∈ rest.head?, continues c = false) :
    scanUnsigned n.negative (n.whole ++ (fractionText n.fraction ++
      (exponentText n.exponent ++ rest))) = .ok (n, rest) := by
  have hr' : ∀ c ∈ rest.head?, c.isDigit = false ∧ c ≠ '.' ∧ c ≠ 'e' ∧ c ≠ 'E' := by
    intro c hc
    simpa [continues, and_assoc] using hr c hc
  have hexp : ∀ c ∈ (exponentText n.exponent ++ rest).head?, c.isDigit = false ∧ c ≠ '.' := by
    intro c hc
    cases he : n.exponent with
    | none =>
      rw [he] at hc
      exact ⟨(hr' c hc).1, (hr' c hc).2.1⟩
    | some e =>
      rw [he] at hc
      obtain rfl : e.mark = c := by simpa [exponentText] using hc
      rcases (h.exponent e he).1 with hm | hm <;> rw [hm] <;> decide
  have hfrac : ∀ c ∈ (fractionText n.fraction ++ (exponentText n.exponent ++ rest)).head?,
      c.isDigit = false := by
    intro c hc
    cases hf : n.fraction with
    | none =>
      rw [hf] at hc
      exact (hexp c hc).1
    | some ds =>
      rw [hf] at hc
      obtain rfl : '.' = c := by simpa [fractionText] using hc
      rfl
  simp only [scanUnsigned, scanWhole_append h.whole_ne_nil h.whole_digits h.no_leading_zero hfrac,
    scanFraction_append h.fraction hexp,
    scanExponent_append h.exponent fun c hc => ⟨(hr' c hc).1, (hr' c hc).2.2⟩]

theorem scan_text_append {n : Numeral} (h : n.WellFormed) {rest : List Char}
    (hr : ∀ c ∈ rest.head?, continues c = false) : scan (n.text ++ rest) = .ok (n, rest) := by
  have hu := scanUnsigned_append h hr
  simp only [text, List.append_assoc]
  cases hn : n.negative with
  | true =>
    rw [hn] at hu
    simpa [scan] using hu
  | false =>
    rw [hn] at hu
    rw [if_neg (by simp), List.nil_append, scan.eq_def]
    split
    · next heq =>
      obtain ⟨c, cs, hc⟩ := List.exists_cons_of_ne_nil h.whole_ne_nil
      rw [hc, List.cons_append, List.cons.injEq] at heq
      have := h.whole_digits c (by simp [hc])
      rw [heq.1] at this
      exact absurd this (by decide)
    · exact hu

/-! ## Every number takes characters -/

theorem length_scanDigits_lt {cs ds rest : List Char}
    (h : scanDigits cs = .ok (ds, rest)) : rest.length < cs.length := by
  unfold scanDigits at h
  split at h
  · cases h
  · next hne =>
    simp only [Except.ok.injEq, Prod.mk.injEq] at h
    have := congrArg List.length (List.takeWhile_append_dropWhile (p := Char.isDigit) (l := cs))
    rw [List.length_append] at this
    have := List.length_pos_iff.2 hne
    rw [← h.2]
    omega

theorem length_scanWhole_lt {cs ds rest : List Char}
    (h : scanWhole cs = .ok (ds, rest)) : rest.length < cs.length := by
  unfold scanWhole at h
  split at h
  · cases h
  · cases h
  · next hd =>
    rw [Except.ok.injEq] at h
    exact length_scanDigits_lt (h ▸ hd)

theorem length_scanFraction_le {cs rest : List Char} {f : Option (List Char)}
    (h : scanFraction cs = .ok (f, rest)) : rest.length ≤ cs.length := by
  unfold scanFraction at h
  split at h
  · split at h
    · cases h
    · next hd =>
      simp only [Except.ok.injEq, Prod.mk.injEq] at h
      have := length_scanDigits_lt hd
      rw [← h.2, List.length_cons]
      omega
  · simp only [Except.ok.injEq, Prod.mk.injEq] at h
    exact Nat.le_of_eq (congrArg List.length h.2.symm)

theorem length_scanSign_le (cs : List Char) : (scanSign cs).2.length ≤ cs.length := by
  unfold scanSign
  split <;> simp

theorem length_scanExponent_le {cs rest : List Char} {e : Option Exponent}
    (h : scanExponent cs = .ok (e, rest)) : rest.length ≤ cs.length := by
  unfold scanExponent at h
  split at h
  · simp only [Except.ok.injEq, Prod.mk.injEq] at h
    exact Nat.le_of_eq (congrArg List.length h.2.symm)
  · next c more =>
    split at h
    · split at h
      · cases h
      · next hd =>
        simp only [Except.ok.injEq, Prod.mk.injEq] at h
        have := length_scanDigits_lt hd
        have := length_scanSign_le more
        rw [← h.2, List.length_cons]
        omega
    · simp only [Except.ok.injEq, Prod.mk.injEq] at h
      exact Nat.le_of_eq (congrArg List.length h.2.symm)

theorem length_scanUnsigned_lt {negative : Bool} {cs rest : List Char} {n : Numeral}
    (h : scanUnsigned negative cs = .ok (n, rest)) : rest.length < cs.length := by
  unfold scanUnsigned at h
  split at h
  · cases h
  · next hw =>
    split at h
    · cases h
    · next hf =>
      split at h
      · cases h
      · next he =>
        simp only [Except.ok.injEq, Prod.mk.injEq] at h
        have := length_scanWhole_lt hw
        have := length_scanFraction_le hf
        have := length_scanExponent_le he
        rw [← h.2]
        omega

theorem length_scan_lt {cs rest : List Char} {n : Numeral}
    (h : scan cs = .ok (n, rest)) : rest.length < cs.length := by
  unfold scan at h
  split at h
  · have := length_scanUnsigned_lt h
    rw [List.length_cons]
    omega
  · exact length_scanUnsigned_lt h

end Numeral

end MotorSketch.Json
