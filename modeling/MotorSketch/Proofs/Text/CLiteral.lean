import MotorSketch.Text.CLiteral

/-!
# Reading C string literals

Adjacent literals are one text.  In a literal a backslash starts an escape: a single character, or
`x` with all hexadecimal digits that follow it.  The digits end with their literal at the latest,
so the digits of one literal are never read together with characters of the next.

    readInside (cLiteralChar c ++ t) = (readInside t).map (after c)        (readInside_cLiteralChar)
    readLiterals (cLiteralChars s ++ rest) = some (s, rest)  if no quote follows
                                                                       (readLiterals_cLiteralChars)
    ofCLiterals? (cLiteral s) = some s                                       (ofCLiterals?_cLiteral)
-/

namespace MotorSketch.Text

/-! ## Algorithm -/

def isHexDigit (c : Char) : Bool := (hexDigit? c).isSome

def hexValue (digits : List Char) : Nat :=
  digits.foldl (fun n c => n * 16 + (hexDigit? c).getD 0) 0

/-- The character with the code in hexadecimal digits; a code above U+007F is a byte that is no
character on its own. -/
def hexChar? (digits : List Char) : Option Char :=
  if digits = [] then none
  else if hexValue digits < 0x80 then some (Char.ofNat (hexValue digits)) else none

def charEscape? (c : Char) : Option Char :=
  match c with
  | '\\' => some '\\'
  | '"' => some '"'
  | 'n' => some '\n'
  | 'r' => some '\r'
  | 't' => some '\t'
  | _ => none

/-- Puts a character in front of the text that was read. -/
def after (c : Char) (read : List Char × List Char) : List Char × List Char := (c :: read.1, read.2)

/-- Reads on behind an opening quote, up to the end of the last adjacent literal: the text and what
follows it. -/
def readInside (s : List Char) : Option (List Char × List Char) :=
  match s with
  | [] => none
  | '"' :: '"' :: s => readInside s
  | '"' :: s => some ([], s)
  | '\\' :: 'x' :: s =>
    match hexChar? (s.takeWhile isHexDigit) with
    | none => none
    | some c => (readInside (s.dropWhile isHexDigit)).map (after c)
  | ['\\'] => none
  | '\\' :: e :: s =>
    match charEscape? e with
    | none => none
    | some c => (readInside s).map (after c)
  | c :: s => if c = '\n' then none else (readInside s).map (after c)
termination_by s.length
decreasing_by
  all_goals simp only [List.length_cons]
  all_goals first
    | omega
    | have := (List.dropWhile_sublist isHexDigit (l := s)).length_le
      omega

def readLiterals (s : List Char) : Option (List Char × List Char) :=
  match s with
  | '"' :: s => readInside s
  | _ => none

/-- The text that the literals stand for, if the whole text consists of adjacent literals. -/
def ofCLiterals? (s : String) : Option String :=
  match readLiterals s.toList with
  | some (text, []) => some (String.ofList text)
  | _ => none

/-! ## Lemmas -/

section Runs

variable {p : Char → Bool} {s rest : List Char}

theorem takeWhile_append_of_head? (hs : ∀ c ∈ s, p c) (hrest : ∀ c ∈ rest.head?, p c = false) :
    (s ++ rest).takeWhile p = s := by
  rw [List.takeWhile_append_of_pos hs]
  cases rest with
  | nil => exact List.append_nil s
  | cons c rest => rw [List.takeWhile_cons_of_neg (by simp [hrest c rfl]), List.append_nil]

theorem dropWhile_append_of_head? (hs : ∀ c ∈ s, p c) (hrest : ∀ c ∈ rest.head?, p c = false) :
    (s ++ rest).dropWhile p = rest := by
  rw [List.dropWhile_append_of_pos hs]
  cases rest with
  | nil => rfl
  | cons c rest => exact List.dropWhile_cons_of_neg (by simp [hrest c rfl])

end Runs

/-- What follows the literals is shorter than the text with them. -/
theorem length_of_readInside {s cs rest : List Char} (h : readInside s = some (cs, rest)) :
    rest.length < s.length := by
  have hafter : ∀ {t : List Char} {c : Char} {cs : List Char},
      (∀ cs, readInside t = some (cs, rest) → rest.length < t.length) →
        (readInside t).map (after c) = some (cs, rest) → rest.length < t.length := by
    intro t c cs ih h
    obtain ⟨read, hread, he⟩ := Option.map_eq_some_iff.1 h
    cases he
    exact ih _ hread
  fun_induction readInside s generalizing cs with
  | case2 s ih =>
    have := ih h
    simp only [List.length_cons]
    omega
  | case3 s =>
    cases h
    exact Nat.lt_succ_self _
  | case5 s c hc ih =>
    have := hafter (fun _ => ih) h
    have := (List.dropWhile_sublist isHexDigit (l := s)).length_le
    simp only [List.length_cons]
    omega
  | case8 e s hx c hc ih =>
    have := hafter (fun _ => ih) h
    simp only [List.length_cons]
    omega
  | case10 c s _ _ _ _ _ _ ih => exact Nat.lt_succ_of_lt (hafter (fun _ => ih) h)
  | _ => cases h

theorem length_of_readLiterals {s cs rest : List Char} (h : readLiterals s = some (cs, rest)) :
    rest.length < s.length := by
  unfold readLiterals at h
  split at h
  · exact Nat.lt_succ_of_lt (length_of_readInside h)
  · cases h

theorem readInside_end {rest : List Char} (h : rest.head? ≠ some '"') :
    readInside ('"' :: rest) = some ([], rest) := by
  rw [readInside.eq_3]
  rintro s rfl
  exact h rfl

theorem readInside_plain {c : Char} (hq : c ≠ '"') (hb : c ≠ '\\') (hn : c ≠ '\n')
    (t : List Char) : readInside (c :: t) = (readInside t).map (after c) := by
  rw [readInside.eq_7]
  all_goals simp_all

theorem readInside_escaped {e c : Char} (h : charEscape? e = some c) (t : List Char) :
    readInside ('\\' :: e :: t) = (readInside t).map (after c) := by
  have he : e ≠ 'x' := by
    rintro rfl
    cases h
  rw [readInside.eq_6 _ _ he, h]

/-- The digits of an escape end where the next character is no digit. -/
theorem readInside_hex {digits : List Char} {c : Char} (hd : ∀ d ∈ digits, isHexDigit d)
    (hc : hexChar? digits = some c) {t : List Char} (ht : ∀ d ∈ t.head?, isHexDigit d = false) :
    readInside ('\\' :: 'x' :: (digits ++ t)) = (readInside t).map (after c) := by
  rw [readInside, takeWhile_append_of_head? hd ht, dropWhile_append_of_head? hd ht, hc]

theorem isHexDigit_hexPair {n : Nat} (hn : n < 0x100) : ∀ d ∈ hexPair n, isHexDigit d := by
  have hdigit : ∀ m, m < 16 → isHexDigit (Nat.digitChar m) := by
    intro m hm
    rw [isHexDigit, hexDigit?_digitChar m hm]
    rfl
  intro d hd
  simp only [hexPair, List.mem_cons, List.not_mem_nil, or_false] at hd
  rcases hd with rfl | rfl
  · exact hdigit _ (by omega)
  · exact hdigit _ (by omega)

theorem hexValue_hexPair {n : Nat} (hn : n < 0x100) : hexValue (hexPair n) = n := by
  have hhigh := hexDigit?_digitChar (n / 16) (by omega)
  have hlow := hexDigit?_digitChar (n % 16) (by omega)
  simp only [hexValue, hexPair, List.foldl_cons, List.foldl_nil, hhigh, hlow, Option.getD_some]
  omega

theorem hexChar?_hexPair {n : Nat} (hn : n < 0x80) :
    hexChar? (hexPair n) = some (Char.ofNat n) := by
  have hne : hexPair n ≠ [] := List.cons_ne_nil _ _
  have hvalue := hexValue_hexPair (n := n) (by omega)
  rw [hexChar?, if_neg hne, hvalue, if_pos hn]

/-- The written form of a character is read as this character, whatever follows it. -/
theorem readInside_cLiteralChar (c : Char) (t : List Char) :
    readInside (cLiteralChar c ++ t) = (readInside t).map (after c) := by
  unfold cLiteralChar
  split
  case h_6 hb hq hn _ _ =>
    split
    · next hc =>
      have hlt : c.toNat < 0x80 := by
        rcases hc with hc | rfl
        · omega
        · decide
      have hchar : hexChar? (hexPair c.toNat) = some c := by
        rw [hexChar?_hexPair hlt, Char.ofNat_toNat]
      -- The literal ends behind the digits, and the next one starts there.
      have hnext : readInside ('"' :: '"' :: t) = readInside t := by rw [readInside]
      have hdigits := isHexDigit_hexPair (n := c.toNat) (by omega)
      have hread := readInside_hex hdigits hchar (t := '"' :: '"' :: t) (by simp; decide)
      rw [hnext] at hread
      simpa using hread
    · exact readInside_plain hq hb hn t
  all_goals exact readInside_escaped rfl t

theorem readInside_body (s : List Char) {rest : List Char} (h : rest.head? ≠ some '"') :
    readInside (s.flatMap cLiteralChar ++ '"' :: rest) = some (s, rest) := by
  induction s with
  | nil => exact readInside_end h
  | cons c s ih =>
    rw [List.flatMap_cons, List.append_assoc, readInside_cLiteralChar, ih]
    rfl

theorem readLiterals_cLiteralChars (s : List Char) {rest : List Char} (h : rest.head? ≠ some '"') :
    readLiterals (cLiteralChars s ++ rest) = some (s, rest) := by
  simpa [cLiteralChars, readLiterals] using readInside_body s h

theorem toList_cLiteral (s : String) : (cLiteral s).toList = cLiteralChars s.toList := by
  simp [cLiteral]

theorem ofCLiterals?_cLiteral (s : String) : ofCLiterals? (cLiteral s) = some s := by
  have h : readLiterals (cLiteralChars s.toList ++ []) = some (s.toList, []) :=
    readLiterals_cLiteralChars s.toList (by simp)
  rw [List.append_nil] at h
  rw [ofCLiterals?, toList_cLiteral, h]
  exact congrArg some String.ofList_toList

/-- All digits belong to an escape, so a digit of the text has to stand in a literal of its own. -/
example : ofCLiterals? "\"\\x01f\"" = some "\x1f" ∧
    ofCLiterals? "\"\\x01\"\"f\"" = some "\x01f" := by
  decide +kernel

/-- Neither a control character nor a line break stands in a literal. -/
theorem no_control_of_mem_cLiteral {s : String} {d : Char} (h : d ∈ (cLiteral s).toList) :
    0x20 ≤ d.toNat ∧ d ≠ '\x7f' := by
  simp only [toList_cLiteral, cLiteralChars, List.mem_cons, List.mem_append, List.mem_flatMap,
    List.not_mem_nil, or_false] at h
  rcases h with rfl | ⟨c, -, hd⟩ | rfl
  · decide
  · exact no_control_of_mem_cLiteralChar hd
  · decide

end MotorSketch.Text
