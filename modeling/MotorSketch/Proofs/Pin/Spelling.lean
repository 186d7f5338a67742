import Mathlib
import MotorSketch.Pin.Reservation
import MotorSketch.Proofs.Text.Line

/-!
# Spellings of reservations

A reservation is read from a text that splits at its first equals sign.  Around both parts there may
be blanks, and the tag of the role may be in any casing of its ASCII letters; nothing else is read.
Of what can be wrong the missing equals sign is reported first, then the pin, then the role.

    Trimmed s → trimChars (before ++ s ++ after) = s, if only blanks are around s
                                                                              (trimChars_padded)
    Casing r.tag u ↔ u.map Char.toUpper = r.tag                                (casing_tag_iff)
    Splits s a b → parse s = …                                                 (parse_of_splits)
    parse s = .ok x ↔ IsPin x.pin ∧ Spells s x                               (parse_eq_ok_iff_spells)
-/

namespace MotorSketch

namespace Text

/-! ## Padding -/

/-- Only blanks. -/
def AllBlank (s : String) : Prop := ∀ c ∈ s.toList, isBlank c = true

theorem trimEndChars_blanks {s : List Char} (h : ∀ c ∈ s, isBlank c = true) :
    trimEndChars s = [] := by
  have hdrop : s.reverse.dropWhile isBlank = [] :=
    List.dropWhile_eq_nil_iff.2 fun c hc => h c (List.mem_reverse.1 hc)
  rw [trimEndChars, hdrop, List.reverse_nil]

theorem trimChars_padded {before s after : List Char} (hbefore : ∀ c ∈ before, isBlank c = true)
    (hs : Trimmed s) (hafter : ∀ c ∈ after, isBlank c = true) :
    trimChars (before ++ s ++ after) = s := by
  have hstart : trimStartChars (before ++ s ++ after) = trimStartChars (s ++ after) := by
    rw [List.append_assoc]
    exact List.dropWhile_append_of_pos hbefore
  rw [trimChars, hstart]
  cases s with
  | nil =>
    have hnil : trimStartChars after = [] := List.dropWhile_eq_nil_iff.2 hafter
    rw [List.nil_append, hnil]
    rfl
  | cons c s =>
    have hself : trimStartChars (c :: s ++ after) = c :: s ++ after :=
      trimStartChars_eq_self hs.1
    rw [hself, trimEndChars_append hs.2, trimEndChars_blanks hafter, List.append_nil]

/-- What trimming removes are blanks. -/
theorem exists_padding (s : List Char) : ∃ before after, s = before ++ trimChars s ++ after ∧
    (∀ c ∈ before, isBlank c = true) ∧ ∀ c ∈ after, isBlank c = true := by
  obtain ⟨after, hafter, hblank⟩ := trimEndChars_append_blanks (trimStartChars s)
  refine ⟨s.takeWhile isBlank, after, ?_, fun c hc => List.mem_takeWhile_imp hc, hblank⟩
  rw [trimChars, List.append_assoc, ← hafter, trimStartChars, List.takeWhile_append_dropWhile]

theorem trim_padded {before s after : String} (hbefore : AllBlank before)
    (hs : Trimmed s.toList) (hafter : AllBlank after) : trim (before ++ s ++ after) = s := by
  apply String.toList_inj.1
  rw [toList_trim, String.toList_append, String.toList_append]
  exact trimChars_padded hbefore hs hafter

theorem exists_padding_trim (s : String) :
    ∃ before after, s = before ++ trim s ++ after ∧ AllBlank before ∧ AllBlank after := by
  obtain ⟨before, after, hs, hbefore, hafter⟩ := exists_padding s.toList
  refine ⟨String.ofList before, String.ofList after, ?_, ?_, ?_⟩
  · apply String.toList_inj.1
    simpa using hs
  · simpa [AllBlank] using hbefore
  · simpa [AllBlank] using hafter

/-! ## Casings -/

/-- The second text is the first, some of its ASCII letters in lower case. -/
def Casing (s u : String) : Prop :=
  List.Forall₂ (fun c d => d = c ∨ d = c.toLower) s.toList u.toList

theorem toUpper_eq_iff {c d : Char} (hc : c.isLower = false) :
    d.toUpper = c ↔ d = c ∨ d = c.toLower := by
  have hupper : c.toUpper = c := Char.toUpper_eq_of_not_isLower (by simp [hc])
  constructor
  · intro h
    by_cases hd : d.isLower
    · right
      have hd' : d.toLower = d :=
        Char.toLower_eq_of_not_isUpper (Char.not_isUpper_of_isLower hd)
      rw [← h, Char.toLower_toUpper_eq_toLower, hd']
    · left
      rw [← h, Char.toUpper_eq_of_not_isLower hd]
  · rintro (rfl | rfl)
    · exact hupper
    · rw [Char.toUpper_toLower_eq_toUpper, hupper]

theorem casing_iff {s u : String} (h : ∀ c ∈ s.toList, c.isLower = false) :
    Casing s u ↔ u.map Char.toUpper = s := by
  have hlists : ∀ (cs ds : List Char), (∀ c ∈ cs, c.isLower = false) →
      (List.Forall₂ (fun c d => d = c ∨ d = c.toLower) cs ds ↔ ds.map Char.toUpper = cs) := by
    intro cs
    induction cs with
    | nil => intro ds _; cases ds <;> simp
    | cons c cs ih =>
      intro ds hcs
      rw [List.forall_mem_cons] at hcs
      cases ds with
      | nil => simp
      | cons d ds =>
        rw [List.forall₂_cons, ih ds hcs.2, List.map_cons, List.cons.injEq, toUpper_eq_iff hcs.1]
  rw [Casing, hlists _ _ h, ← String.toList_map, String.toList_inj]

theorem Casing.exists_of_mem {s u : String} (h : Casing s u) {d : Char} (hd : d ∈ u.toList) :
    ∃ c ∈ s.toList, d = c ∨ d = c.toLower := by
  unfold Casing at h
  generalize s.toList = cs at h
  generalize u.toList = ds at h hd
  induction h with
  | nil => cases hd
  | cons hcd _ ih =>
    rcases List.mem_cons.1 hd with rfl | hd
    · exact ⟨_, List.mem_cons_self, hcd⟩
    · obtain ⟨c, hc, hcd⟩ := ih hd
      exact ⟨c, List.mem_cons_of_mem _ hc, hcd⟩

end Text

namespace PinRole

theorem casing_tag_iff {r : PinRole} {u : String} :
    Text.Casing r.tag u ↔ u.map Char.toUpper = r.tag := by
  have htag : (r.tag.toList.all fun c => !c.isLower) = true := by cases r <;> decide
  exact Text.casing_iff fun c hc => by simpa using List.all_eq_true.1 htag c hc

/-- A tag holds no blanks, in whatever casing. -/
theorem trimmed_of_casing {r : PinRole} {u : String} (h : Text.Casing r.tag u) :
    Text.Trimmed u.toList := by
  have htag : (r.tag.toList.all fun c => !Text.isBlank c && !Text.isBlank c.toLower) = true := by
    cases r <;> decide
  have hu : ∀ d ∈ u.toList, Text.isBlank d = false := by
    intro d hd
    obtain ⟨c, hc, hdc⟩ := h.exists_of_mem hd
    have hblank := List.all_eq_true.1 htag c hc
    simp only [Bool.and_eq_true, Bool.not_eq_true'] at hblank
    rcases hdc with rfl | rfl
    · exact hblank.1
    · exact hblank.2
  exact ⟨fun d hd => hu d (List.mem_of_mem_head? hd), fun d hd => hu d (List.mem_of_getLast? hd)⟩

theorem parse_eq_error_iff {s : String} {e : UnknownRole} :
    parse s = .error e ↔ e.text = normalTag s ∧ ∀ r : PinRole, r.tag ≠ normalTag s := by
  obtain ⟨text⟩ := e
  unfold parse
  cases h : ofTag? (normalTag s) with
  | some r =>
    refine iff_of_false (by simp) fun hall => ?_
    exact hall.2 r (ofTag?_eq_some_iff.1 h)
  | none =>
    have hnone : ∀ r : PinRole, r.tag ≠ normalTag s := by
      intro r hr
      rw [ofTag?_eq_some_iff.2 hr] at h
      cases h
    simpa [eq_comm] using fun _ => hnone

end PinRole

namespace Reservation

/-! ## Parts -/

/-- The text consists of the two parts around its first equals sign. -/
def Splits (s a b : String) : Prop := s = a ++ "=" ++ b ∧ '=' ∉ a.toList

theorem splits_iff {s a b : String} :
    Splits s a b ↔ split? s.toList = some (a.toList, b.toList) := by
  have hs : s = a ++ "=" ++ b ↔ s.toList = a.toList ++ '=' :: b.toList := by
    rw [← String.toList_inj]
    simp
  rw [Splits, split?_eq_some_iff, hs]

theorem exists_splits {s : String} (h : '=' ∈ s.toList) : ∃ a b, Splits s a b := by
  cases hs : split? s.toList with
  | none => exact absurd h (split?_eq_none_iff.1 hs)
  | some parts =>
    obtain ⟨a, b⟩ := parts
    exact ⟨String.ofList a, String.ofList b, splits_iff.2 (by simpa using hs)⟩

theorem parse_of_no_equals {s : String} (h : '=' ∉ s.toList) :
    parse s = .error (.noEqualsSign s) := by
  rw [parse, split?_eq_none_iff.2 h]

theorem parse_of_splits {s a b : String} (h : Splits s a b) :
    parse s = if Text.trim a = "" then .error (.emptyPin s)
      else match PinRole.parse b with
        | .error e => .error (.unknownRole e)
        | .ok role => .ok ⟨Text.trim a, role⟩ := by
  have hempty : Text.trim a = "" ↔ Text.trimChars a.toList = [] := by
    rw [← Text.toList_trim, String.toList_eq_nil_iff]
  rw [parse, splits_iff.1 h]
  simp only [hempty, String.ofList_toList]
  rfl

/-! ## Spellings -/

/-- A text that a pin can have in a reservation. -/
structure IsPin (p : String) : Prop where
  ne_empty : p ≠ ""
  no_equals : '=' ∉ p.toList
  trimmed : Text.Trimmed p.toList

/-- The text spells the reservation: blanks around the pin, the equals sign, and blanks around the
tag of the role in some casing. -/
def Spells (s : String) (x : Reservation) : Prop :=
  ∃ before after before' after' tag,
    s = before ++ x.pin ++ after ++ "=" ++ (before' ++ tag ++ after') ∧
      Text.AllBlank before ∧ Text.AllBlank after ∧ Text.AllBlank before' ∧
      Text.AllBlank after' ∧ Text.Casing x.role.tag tag

theorem no_equals_of_allBlank {s : String} (h : Text.AllBlank s) : '=' ∉ s.toList := by
  intro hmem
  exact absurd (h _ hmem) (by decide)

theorem splits_of_padded {s p before after b : String} (hp : IsPin p)
    (hbefore : Text.AllBlank before) (hafter : Text.AllBlank after)
    (hs : s = before ++ p ++ after ++ "=" ++ b) : Splits s (before ++ p ++ after) b := by
  refine ⟨hs, ?_⟩
  simp only [String.toList_append, List.mem_append, not_or]
  exact ⟨⟨no_equals_of_allBlank hbefore, hp.no_equals⟩, no_equals_of_allBlank hafter⟩

/-- The pin of a text that splits, if it is not empty. -/
theorem isPin_trim {s a b : String} (h : Splits s a b) (hne : Text.trim a ≠ "") :
    IsPin (Text.trim a) where
  ne_empty := hne
  no_equals := by
    obtain ⟨before, after, ha, -, -⟩ := Text.exists_padding_trim a
    intro hmem
    apply h.2
    rw [ha, String.toList_append, String.toList_append]
    exact List.mem_append_left _ (List.mem_append_right _ hmem)
  trimmed := by
    rw [Text.toList_trim]
    exact Text.trimmed_trimChars a.toList

/-! ## Reading -/

theorem parse_eq_ok_iff_splits {s p : String} {r : PinRole} :
    parse s = .ok ⟨p, r⟩ ↔ ∃ a b, Splits s a b ∧ Text.trim a = p ∧ p ≠ "" ∧
      PinRole.normalTag b = r.tag := by
  constructor
  · intro h
    by_cases hmem : '=' ∈ s.toList
    · obtain ⟨a, b, hs⟩ := exists_splits hmem
      rw [parse_of_splits hs] at h
      split at h
      · cases h
      · next hne =>
        split at h
        · cases h
        · next role hrole =>
          cases h
          exact ⟨a, b, hs, rfl, hne, PinRole.parse_eq_ok_iff.1 hrole⟩
    · rw [parse_of_no_equals hmem] at h
      cases h
  · rintro ⟨a, b, hs, rfl, hne, hrole⟩
    rw [parse_of_splits hs, if_neg hne, PinRole.parse_eq_ok_iff.2 hrole]

theorem parse_eq_error_iff {s : String} {e : ReservationError} :
    parse s = .error e ↔ '=' ∉ s.toList ∧ e = .noEqualsSign s ∨
      ∃ a b, Splits s a b ∧ (Text.trim a = "" ∧ e = .emptyPin s ∨
        Text.trim a ≠ "" ∧ (∀ r : PinRole, r.tag ≠ PinRole.normalTag b) ∧
          e = .unknownRole ⟨PinRole.normalTag b⟩) := by
  constructor
  · intro h
    by_cases hmem : '=' ∈ s.toList
    · obtain ⟨a, b, hs⟩ := exists_splits hmem
      refine .inr ⟨a, b, hs, ?_⟩
      rw [parse_of_splits hs] at h
      split at h
      · next hempty =>
        cases h
        exact .inl ⟨hempty, rfl⟩
      · next hne =>
        split at h
        · next cause hcause =>
          cases h
          obtain ⟨htext, hnone⟩ := PinRole.parse_eq_error_iff.1 hcause
          have hcause' : cause = ⟨PinRole.normalTag b⟩ := congrArg UnknownRole.mk htext
          exact .inr ⟨hne, hnone, congrArg ReservationError.unknownRole hcause'⟩
        · cases h
    · rw [parse_of_no_equals hmem] at h
      cases h
      exact .inl ⟨hmem, rfl⟩
  · rintro (⟨hmem, rfl⟩ | ⟨a, b, hs, ⟨hempty, rfl⟩ | ⟨hne, hnone, rfl⟩⟩)
    · exact parse_of_no_equals hmem
    · rw [parse_of_splits hs, if_pos hempty]
    · have hcause : PinRole.parse b = .error ⟨PinRole.normalTag b⟩ :=
        PinRole.parse_eq_error_iff.2 ⟨rfl, hnone⟩
      rw [parse_of_splits hs, if_neg hne, hcause]

theorem parse_eq_ok_iff_spells {s : String} {x : Reservation} :
    parse s = .ok x ↔ IsPin x.pin ∧ Spells s x := by
  obtain ⟨p, r⟩ := x
  rw [parse_eq_ok_iff_splits]
  constructor
  · rintro ⟨a, b, hs, rfl, hne, hrole⟩
    obtain ⟨before, after, ha, hbefore, hafter⟩ := Text.exists_padding_trim a
    obtain ⟨before', after', hb, hbefore', hafter'⟩ := Text.exists_padding_trim b
    refine ⟨isPin_trim hs hne, before, after, before', after', Text.trim b, ?_, hbefore, hafter,
      hbefore', hafter', PinRole.casing_tag_iff.2 hrole⟩
    rw [← ha, ← hb]
    exact hs.1
  · rintro ⟨hp, before, after, before', after', tag, hs, hbefore, hafter, hbefore', hafter', htag⟩
    have hrole : PinRole.normalTag (before' ++ tag ++ after') = r.tag := by
      rw [PinRole.normalTag, Text.trim_padded hbefore' (PinRole.trimmed_of_casing htag) hafter']
      exact PinRole.casing_tag_iff.1 htag
    exact ⟨_, _, splits_of_padded hp hbefore hafter hs, Text.trim_padded hbefore hp.trimmed hafter,
      hp.ne_empty, hrole⟩

/-- What is read from a text.  A text that splits at its first equals sign gives its trimmed left
part, if that is not empty, and the role whose tag its right part is, trimmed and in upper case.  Of
other texts the first fault is reported: no equals sign, an empty pin, or no such role.  So exactly
those texts are read that spell a reservation of a pin that can be written. -/
theorem parse_exact (s : String) :
    (∀ p r, parse s = .ok ⟨p, r⟩ ↔ ∃ a b, (s = a ++ "=" ++ b ∧ '=' ∉ a.toList) ∧
        Text.trim a = p ∧ p ≠ "" ∧ (Text.trim b).map Char.toUpper = r.tag) ∧
      (∀ e, parse s = .error e ↔ '=' ∉ s.toList ∧ e = .noEqualsSign s ∨
        ∃ a b, (s = a ++ "=" ++ b ∧ '=' ∉ a.toList) ∧ (Text.trim a = "" ∧ e = .emptyPin s ∨
          Text.trim a ≠ "" ∧ (∀ r : PinRole, r.tag ≠ (Text.trim b).map Char.toUpper) ∧
            e = .unknownRole ⟨(Text.trim b).map Char.toUpper⟩)) ∧
      ∀ x, parse s = .ok x ↔ IsPin x.pin ∧ Spells s x := by
  refine ⟨?_, ?_, ?_⟩
  · intro p r
    exact parse_eq_ok_iff_splits
  · intro e
    exact parse_eq_error_iff
  · intro x
    exact parse_eq_ok_iff_spells

end Reservation

end MotorSketch
