/-!
# Lines

A line feed ends a line, and one carriage return directly before it belongs to the line end.
What follows the last line feed is a line of its own, unless nothing follows.

    '\n' ∉ l for every line l                                       (not_mem_of_mem_lineChars)
    lineChars (l ++ '\n' :: s) = l :: lineChars s  for a plain l    (lineChars_append)
-/

namespace MotorSketch.Text

/-! ## Algorithm -/

def lineChars : List Char → List (List Char)
  | [] => []
  | '\n' :: rest => [] :: lineChars rest
  | '\r' :: '\n' :: rest => [] :: lineChars rest
  | c :: rest =>
    match lineChars rest with
    | [] => [[c]]
    | line :: more => (c :: line) :: more

def lines (s : String) : List String := (lineChars s.toList).map String.ofList

/-! ## Lemmas -/

theorem lineChars_nil : lineChars [] = [] := by simp [lineChars]

theorem lineChars_newline (s : List Char) : lineChars ('\n' :: s) = [] :: lineChars s := by
  simp [lineChars]

theorem lineChars_return_newline (s : List Char) :
    lineChars ('\r' :: '\n' :: s) = [] :: lineChars s := by
  simp [lineChars]

/-- A character that starts no line end goes to the front of the line that follows it. -/
theorem lineChars_cons {c : Char} {s : List Char} (hn : c ≠ '\n')
    (hr : c = '\r' → s.head? ≠ some '\n') :
    lineChars (c :: s) = match lineChars s with
      | [] => [[c]]
      | line :: more => (c :: line) :: more := by
  rw [lineChars.eq_4]
  · exact hn
  · rintro rest rfl rfl
    exact hr rfl rfl

theorem not_mem_of_mem_lineChars {s l : List Char} (h : l ∈ lineChars s) : '\n' ∉ l := by
  fun_induction lineChars s generalizing l with
  | case1 => simp at h
  | case2 rest ih =>
    rcases List.mem_cons.1 h with rfl | h
    · simp
    · exact ih h
  | case3 rest ih =>
    rcases List.mem_cons.1 h with rfl | h
    · simp
    · exact ih h
  | case4 c rest hn _ hl ih =>
    simp only [List.mem_singleton] at h
    subst h
    simpa using fun e => hn e.symm
  | case5 c rest hn _ line more hl ih =>
    rcases List.mem_cons.1 h with rfl | h
    · have := ih (l := line) (by simp [hl])
      simp [this, Ne.symm hn]
    · exact ih (by simp [hl, h])

theorem lineChars_append {l s : List Char} (hn : '\n' ∉ l) (hr : '\r' ∉ l) :
    lineChars (l ++ '\n' :: s) = l :: lineChars s := by
  induction l with
  | nil => exact lineChars_newline s
  | cons c l ih =>
    simp only [List.mem_cons, not_or] at hn hr
    rw [List.cons_append, lineChars_cons (Ne.symm hn.1) (fun e => absurd e.symm hr.1),
      ih hn.2 hr.2]

end MotorSketch.Text
