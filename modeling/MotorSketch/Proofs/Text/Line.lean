import MotorSketch.Text.Blank
import MotorSketch.Text.Line

/-!
# Lines of a text

A text that a line feed ends is its lines, each with the line feed behind it.  A piece without line
breaks stands in one line, together with what is around it: in front of it is the last line of the
text before it, and behind it a beginning of the text after it.  This holds of the lines between
line feeds, and of the lines that `lines` gives.

    (joinLines ls).splitOn '\n' = ls ++ [[]]  for lines without line feeds    (splitOn_joinLines)
    joinLines (s.splitOn '\n') = s ++ ['\n']                                  (joinLines_splitOn)
    ∃ l r, IsLastLine l before ∧ r <+: after ∧
      l ++ m ++ r ∈ (before ++ m ++ after).splitOn '\n'                      (mem_splitOn_around)
    ∃ l r, IsLastLine l before ∧ r <+: after ∧
      l ++ m ++ r ∈ lineChars (before ++ m ++ after)                        (mem_lineChars_around)
-/

namespace MotorSketch.Text

/-! ## Lines that a line feed ends -/

/-- The lines, each with its line feed. -/
def joinLines (lines : List (List Char)) : List Char := lines.flatMap fun l => l ++ ['\n']

theorem joinLines_cons (l : List Char) (ls : List (List Char)) :
    joinLines (l :: ls) = l ++ '\n' :: joinLines ls := by
  simp [joinLines]

theorem joinLines_append (ls ms : List (List Char)) :
    joinLines (ls ++ ms) = joinLines ls ++ joinLines ms := by
  simp [joinLines]

theorem joinLines_flatMap {α : Type} (f : α → List (List Char)) (xs : List α) :
    joinLines (xs.flatMap f) = xs.flatMap fun x => joinLines (f x) := by
  simp [joinLines, List.flatMap_assoc]

theorem splitOn_joinLines {ls : List (List Char)} (h : ∀ l ∈ ls, '\n' ∉ l) :
    (joinLines ls).splitOn '\n' = ls ++ [[]] := by
  induction ls with
  | nil => rfl
  | cons l ls ih =>
    rw [List.forall_mem_cons] at h
    rw [joinLines_cons, List.splitOn_append_cons_self_of_not_mem h.1, ih h.2, List.cons_append]

theorem joinLines_splitOn (s : List Char) : joinLines (s.splitOn '\n') = s ++ ['\n'] := by
  have hjoin : ∀ ls : List (List Char), ls ≠ [] →
      joinLines ls = ['\n'].intercalate ls ++ ['\n'] := by
    intro ls
    induction ls with
    | nil => exact fun h => absurd rfl h
    | cons l ls ih =>
      intro _
      cases ls with
      | nil => simp [joinLines]
      | cons m ls =>
        rw [joinLines_cons, ih (List.cons_ne_nil m ls), List.intercalate_cons_cons]
        simp
  rw [hjoin _ (List.splitOn_ne_nil '\n' s), List.intercalate_splitOn]

theorem not_mem_of_mem_splitOn {s l : List Char} (h : l ∈ s.splitOn '\n') : '\n' ∉ l := by
  induction s generalizing l with
  | nil =>
    rw [List.splitOn_nil, List.mem_singleton] at h
    simp [h]
  | cons c s ih =>
    rw [List.splitOn_cons_eq_if_modifyHead] at h
    split at h
    · rcases List.mem_cons.1 h with rfl | h
      · simp
      · exact ih h
    · next hc =>
      cases hs : s.splitOn '\n' with
      | nil => exact absurd hs (List.splitOn_ne_nil '\n' s)
      | cons m ms =>
        rw [hs, List.modifyHead_cons] at h
        rcases List.mem_cons.1 h with rfl | h
        · have hm := ih (l := m) (by rw [hs]; exact List.mem_cons_self)
          simpa [hm] using Ne.symm (by simpa using hc : c ≠ '\n')
        · exact ih (by rw [hs]; exact List.mem_cons_of_mem _ h)

/-! ## The line of a piece -/

/-- What follows the last line feed, or the whole text if there is none. -/
def IsLastLine (l s : List Char) : Prop := '\n' ∉ l ∧ (s = l ∨ ∃ t, s = t ++ '\n' :: l)

theorem exists_isLastLine (s : List Char) : ∃ l, IsLastLine l s := by
  induction s with
  | nil => exact ⟨[], by simp, .inl rfl⟩
  | cons c s ih =>
    obtain ⟨l, hl, rfl | ⟨t, rfl⟩⟩ := ih
    · by_cases hc : c = '\n'
      · exact ⟨s, hl, .inr ⟨[], by rw [hc]; rfl⟩⟩
      · exact ⟨c :: s, by simp [hl, Ne.symm hc], .inl rfl⟩
    · exact ⟨l, hl, .inr ⟨c :: t, rfl⟩⟩

/-- A piece stands in a line if it does where no line feed is in front of it. -/
theorem mem_lines_around (lines : List Char → List (List Char)) {m after : List Char}
    (hnext : ∀ t s l, l ∈ lines s → l ∈ lines (t ++ '\n' :: s))
    (hfirst : ∀ l, '\n' ∉ l → ∃ r, r <+: after ∧ l ++ m ++ r ∈ lines (l ++ m ++ after))
    (before : List Char) :
    ∃ l r, IsLastLine l before ∧ r <+: after ∧ l ++ m ++ r ∈ lines (before ++ m ++ after) := by
  obtain ⟨l, hl⟩ := exists_isLastLine before
  obtain ⟨r, hr, hmem⟩ := hfirst l hl.1
  refine ⟨l, r, hl, hr, ?_⟩
  rcases hl.2 with rfl | ⟨t, rfl⟩
  · exact hmem
  · simpa using hnext t _ _ hmem

theorem mem_splitOn_around {m : List Char} (hm : '\n' ∉ m) (before after : List Char) :
    ∃ l r, IsLastLine l before ∧ r <+: after ∧
      l ++ m ++ r ∈ (before ++ m ++ after).splitOn '\n' := by
  refine mem_lines_around (fun s => s.splitOn '\n') ?_ ?_ before
  · intro t s l h
    rw [List.splitOn_append_cons_self]
    exact List.mem_append_right _ h
  · intro l hl
    by_cases h : '\n' ∈ after
    · obtain ⟨r, t, rfl, hr⟩ := List.eq_append_cons_of_mem h
      refine ⟨r, List.prefix_append r _, ?_⟩
      have hline : '\n' ∉ l ++ m ++ r := by simp [hl, hm, hr]
      rw [← List.append_assoc, List.splitOn_append_cons_self_of_not_mem hline]
      exact List.mem_cons_self
    · have hline : '\n' ∉ l ++ m ++ after := by simp [hl, hm, h]
      refine ⟨after, List.prefix_rfl, ?_⟩
      rw [List.splitOn_eq_singleton hline]
      exact List.mem_cons_self

/-- The first line is a beginning of the text. -/
theorem prefix_of_lineChars {s line : List Char} {more : List (List Char)}
    (h : lineChars s = line :: more) : line <+: s := by
  fun_induction lineChars s generalizing line more with
  | case1 => cases h
  | case2 rest ih =>
    cases h
    exact List.nil_prefix
  | case3 rest ih =>
    cases h
    exact List.nil_prefix
  | case4 c rest hn hr hl ih =>
    cases h
    exact List.prefix_append [c] rest
  | case5 c rest hn hr line' more' hl ih =>
    cases h
    exact List.cons_prefix_cons.2 ⟨rfl, ih hl⟩

/-- Text without a line feed goes to the front of the line that follows it, unless a carriage
return ends it. -/
theorem lineChars_append_of_not_mem {l : List Char} (hn : '\n' ∉ l) (hl : l ≠ [])
    (hr : l.getLast? ≠ some '\r') (s : List Char) :
    ∃ r more, lineChars (l ++ s) = (l ++ r) :: more ∧ r <+: s := by
  induction l with
  | nil => exact absurd rfl hl
  | cons c l ih =>
    simp only [List.mem_cons, not_or] at hn
    cases l with
    | nil =>
      have hc : c ≠ '\r' := by simpa using hr
      rw [List.singleton_append, lineChars_cons (Ne.symm hn.1) (fun e => absurd e hc)]
      cases hs : lineChars s with
      | nil => exact ⟨[], [], rfl, List.nil_prefix⟩
      | cons line more => exact ⟨line, more, rfl, prefix_of_lineChars hs⟩
    | cons d l =>
      obtain ⟨r, more, hline, hprefix⟩ :=
        ih hn.2 (List.cons_ne_nil d l) (by rwa [List.getLast?_cons_cons] at hr)
      have hd : (d :: l ++ s).head? ≠ some '\n' := by
        intro h
        exact hn.2 (by rw [Option.some_inj.1 h]; exact List.mem_cons_self)
      refine ⟨r, more, ?_, hprefix⟩
      rw [List.cons_append, lineChars_cons (Ne.symm hn.1) (fun _ => hd), hline]
      rfl

/-- Behind a line feed the lines are those of the rest. -/
theorem lineChars_append_newline (t s : List Char) :
    ∃ line more, lineChars (t ++ '\n' :: s) = line :: (more ++ lineChars s) := by
  induction t with
  | nil => exact ⟨[], [], lineChars_newline s⟩
  | cons c t ih =>
    obtain ⟨line, more, ih⟩ := ih
    by_cases hc : c = '\n'
    · refine ⟨[], line :: more, ?_⟩
      rw [hc, List.cons_append, lineChars_newline, ih]
      rfl
    · by_cases hr : c = '\r' → (t ++ '\n' :: s).head? ≠ some '\n'
      · refine ⟨c :: line, more, ?_⟩
        rw [List.cons_append, lineChars_cons hc hr, ih]
      · obtain ⟨rfl, hhead⟩ := Classical.not_imp.1 hr
        obtain ⟨rest, hrest⟩ := List.head?_eq_some_iff.1 (Classical.not_not.1 hhead)
        -- The line end of two characters is read as one, so its line feed alone gives the rest.
        rw [hrest, lineChars_newline] at ih
        obtain ⟨-, hmore⟩ := List.cons.inj ih
        refine ⟨[], more, ?_⟩
        rw [List.cons_append, hrest, lineChars_return_newline, hmore]

theorem mem_lineChars_around {m : List Char} (hn : '\n' ∉ m) (hm : m ≠ [])
    (hr : m.getLast? ≠ some '\r') (before after : List Char) :
    ∃ l r, IsLastLine l before ∧ r <+: after ∧
      l ++ m ++ r ∈ lineChars (before ++ m ++ after) := by
  refine mem_lines_around lineChars ?_ ?_ before
  · intro t s l h
    obtain ⟨line, more, hlines⟩ := lineChars_append_newline t s
    rw [hlines]
    exact List.mem_cons_of_mem _ (List.mem_append_right _ h)
  · intro l hl
    have hline : '\n' ∉ l ++ m := by simp [hl, hn]
    have hlast : (l ++ m).getLast? ≠ some '\r' := by
      rw [List.getLast?_eq_some_getLast hm] at hr
      rwa [List.getLast?_append, List.getLast?_eq_some_getLast hm, Option.some_or]
    obtain ⟨r, more, hlines, hprefix⟩ :=
      lineChars_append_of_not_mem hline (List.append_ne_nil_of_right_ne_nil l hm) hlast after
    exact ⟨r, hprefix, hlines ▸ List.mem_cons_self⟩

/-! ## Trimmed ends -/

theorem trimEndChars_prefix (s : List Char) : trimEndChars s <+: s := by
  obtain ⟨t, ht, -⟩ := trimEndChars_append_blanks s
  exact ⟨t, ht.symm⟩

/-- Trimming does not go beyond a character that is no blank. -/
theorem trimEndChars_append {s : List Char} (h : ∀ c ∈ s.getLast?, isBlank c = false)
    (t : List Char) : trimEndChars (s ++ t) = s ++ trimEndChars t := by
  have hs := trimEndChars_eq_self h
  rw [trimEndChars] at hs
  rw [trimEndChars, List.reverse_append, List.dropWhile_append]
  split
  · next hblank =>
    rw [List.isEmpty_iff] at hblank
    rw [hs, trimEndChars, hblank, List.reverse_nil, List.append_nil]
  · rw [List.reverse_append, List.reverse_reverse, trimEndChars]

end MotorSketch.Text
