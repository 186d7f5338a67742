/-!
# Blanks

A blank is a character with the Unicode property White_Space.  Trimming removes the blanks at
one end or at both ends of a text.

    Trimmed s ↔ s = trimChars s                                   (trimmed_iff)
    trimChars (trimChars s) = trimChars s                         (trimChars_trimChars)
-/

namespace MotorSketch.Text

/-! ## Algorithm -/

def isBlank (c : Char) : Bool :=
  ('\t' ≤ c && c ≤ '\r') || c == ' ' || c == '\u0085' || c == '\u00a0' || c == '\u1680' ||
  ('\u2000' ≤ c && c ≤ '\u200a') || c == '\u2028' || c == '\u2029' || c == '\u202f' ||
  c == '\u205f' || c == '\u3000'

def trimStartChars (s : List Char) : List Char := s.dropWhile isBlank

def trimEndChars (s : List Char) : List Char := (s.reverse.dropWhile isBlank).reverse

def trimChars (s : List Char) : List Char := trimEndChars (trimStartChars s)

def trimStart (s : String) : String := String.ofList (trimStartChars s.toList)

def trimEnd (s : String) : String := String.ofList (trimEndChars s.toList)

def trim (s : String) : String := String.ofList (trimChars s.toList)

/-- No blank stands at either end. -/
def Trimmed (s : List Char) : Prop :=
  (∀ c ∈ s.head?, isBlank c = false) ∧ ∀ c ∈ s.getLast?, isBlank c = false

/-! ## Lemmas -/

@[simp] theorem toList_trim (s : String) : (trim s).toList = trimChars s.toList := by
  simp [trim]

@[simp] theorem toList_trimStart (s : String) :
    (trimStart s).toList = trimStartChars s.toList := by
  simp [trimStart]

@[simp] theorem toList_trimEnd (s : String) : (trimEnd s).toList = trimEndChars s.toList := by
  simp [trimEnd]

theorem trimStartChars_eq_self {s : List Char} (h : ∀ c ∈ s.head?, isBlank c = false) :
    trimStartChars s = s := by
  cases s with
  | nil => rfl
  | cons c s => simp [trimStartChars, h c rfl]

theorem trimEndChars_eq_self {s : List Char} (h : ∀ c ∈ s.getLast?, isBlank c = false) :
    trimEndChars s = s := by
  have := trimStartChars_eq_self (s := s.reverse) (by simpa using h)
  rw [trimEndChars, show s.reverse.dropWhile isBlank = s.reverse from this, List.reverse_reverse]

theorem trimChars_eq_self {s : List Char} (h : Trimmed s) : trimChars s = s := by
  rw [trimChars, trimStartChars_eq_self h.1, trimEndChars_eq_self h.2]

theorem head?_trimStartChars (s : List Char) :
    ∀ c ∈ (trimStartChars s).head?, isBlank c = false := by
  intro c hc
  have := List.head?_dropWhile_not isBlank s
  rw [trimStartChars] at hc
  rw [Option.mem_def.1 hc] at this
  simpa using this

theorem getLast?_trimEndChars (s : List Char) :
    ∀ c ∈ (trimEndChars s).getLast?, isBlank c = false := by
  intro c hc
  refine head?_trimStartChars s.reverse c ?_
  simpa [trimEndChars, trimStartChars] using hc

/-- Trimming the end leaves a beginning of the text. -/
theorem trimEndChars_append_blanks (s : List Char) :
    ∃ t, s = trimEndChars s ++ t ∧ ∀ c ∈ t, isBlank c = true := by
  refine ⟨(s.reverse.takeWhile isBlank).reverse, ?_, ?_⟩
  · rw [trimEndChars, ← List.reverse_append, List.takeWhile_append_dropWhile,
      List.reverse_reverse]
  · intro c hc
    have := List.all_takeWhile (l := s.reverse) (p := isBlank)
    exact List.all_eq_true.1 this c (List.mem_reverse.1 hc)

theorem trimmed_trimChars (s : List Char) : Trimmed (trimChars s) := by
  refine ⟨fun c hc => ?_, getLast?_trimEndChars _⟩
  obtain ⟨t, ht, -⟩ := trimEndChars_append_blanks (trimStartChars s)
  refine head?_trimStartChars s c ?_
  rw [trimChars] at hc
  rw [ht, Option.mem_def, List.head?_append, Option.mem_def.1 hc]
  rfl

theorem trimmed_iff {s : List Char} : Trimmed s ↔ s = trimChars s :=
  ⟨fun h => (trimChars_eq_self h).symm, fun h => h ▸ trimmed_trimChars s⟩

theorem trimChars_trimChars (s : List Char) : trimChars (trimChars s) = trimChars s :=
  trimChars_eq_self (trimmed_trimChars s)

end MotorSketch.Text
