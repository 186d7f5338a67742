import MotorSketch.Pin.Role

/-!
# Reservations

A reservation `PIN=ROLE` claims a pin for another peripheral.  The first equals sign separates
the two parts, and both are trimmed.

    parse s = .ok ⟨p, r⟩ ↔ s splits at its first '=' into parts a and b, p is a trimmed and not
      empty, and b names r                                                (parse_eq_ok_iff)
-/

namespace MotorSketch

structure Reservation where
  pin : String
  role : PinRole
  deriving DecidableEq

inductive ReservationError
  | noEqualsSign (text : String)
  | emptyPin (text : String)
  | unknownRole (cause : UnknownRole)
  deriving DecidableEq

def ReservationError.message : ReservationError → String
  | noEqualsSign text => "Expected PIN=TYPE, got " ++ text
  | emptyPin text => "Empty pin in " ++ text
  | unknownRole cause => cause.message

namespace Reservation

/-! ## Algorithm -/

/-- The parts before and behind the first equals sign. -/
def split? (s : List Char) : Option (List Char × List Char) :=
  match s.dropWhile (· ≠ '=') with
  | [] => none
  | _ :: after => some (s.takeWhile (· ≠ '='), after)

def parse (s : String) : Except ReservationError Reservation :=
  match split? s.toList with
  | none => .error (.noEqualsSign s)
  | some (before, after) =>
    if Text.trimChars before = [] then .error (.emptyPin s)
    else
      match PinRole.parse (String.ofList after) with
      | .error e => .error (.unknownRole e)
      | .ok role => .ok ⟨String.ofList (Text.trimChars before), role⟩

/-! ## Lemmas -/

theorem split?_eq_some_iff {s a b : List Char} :
    split? s = some (a, b) ↔ s = a ++ '=' :: b ∧ '=' ∉ a := by
  constructor
  · intro h
    unfold split? at h
    split at h
    · cases h
    · next c after hd =>
      simp only [Option.some.injEq, Prod.mk.injEq] at h
      obtain ⟨rfl, rfl⟩ := h
      have hc : c = '=' := by
        have := List.head?_dropWhile_not (fun x : Char => decide (x ≠ '=')) s
        rw [hd] at this
        simpa using this
      refine ⟨?_, ?_⟩
      · subst hc
        rw [← hd, List.takeWhile_append_dropWhile]
      · intro hm
        have := List.all_takeWhile (l := s) (p := fun x : Char => decide (x ≠ '='))
        simpa using List.all_eq_true.1 this _ hm
  · rintro ⟨rfl, h⟩
    have ha : ∀ c ∈ a, decide (c ≠ '=') = true := fun c hc => by
      simpa using fun e : c = '=' => h (e ▸ hc)
    unfold split?
    rw [List.dropWhile_append_of_pos ha, List.takeWhile_append_of_pos ha]
    simp

theorem split?_eq_none_iff {s : List Char} : split? s = none ↔ '=' ∉ s := by
  constructor
  · intro h
    unfold split? at h
    split at h
    · next hd =>
      have hs := List.takeWhile_append_dropWhile (p := fun x : Char => decide (x ≠ '=')) (l := s)
      rw [hd, List.append_nil] at hs
      intro hm
      have := List.all_takeWhile (l := s) (p := fun x : Char => decide (x ≠ '='))
      rw [← hs] at hm
      exact absurd (List.all_eq_true.1 this _ hm) (by simp)
    · cases h
  · intro h
    have hd : s.dropWhile (· ≠ '=') = [] := by
      have hs : ∀ c ∈ s, decide (c ≠ '=') = true := fun c hc => by
        simpa using fun e : c = '=' => h (e ▸ hc)
      have : (s ++ []).dropWhile (fun x : Char => decide (x ≠ '=')) = [] :=
        List.dropWhile_append_of_pos hs
      simpa using this
    unfold split?
    rw [hd]

theorem parse_eq_ok_iff {s p : String} {r : PinRole} :
    parse s = .ok ⟨p, r⟩ ↔ ∃ a b, split? s.toList = some (a, b) ∧ p.toList = Text.trimChars a ∧
      p ≠ "" ∧ PinRole.parse (String.ofList b) = .ok r := by
  unfold parse
  cases hs : split? s.toList with
  | none => simp
  | some ab =>
    obtain ⟨a, b⟩ := ab
    simp only [Option.some.injEq, Prod.mk.injEq]
    by_cases ha : Text.trimChars a = []
    · rw [if_pos ha]
      refine iff_of_false (by simp) ?_
      rintro ⟨_, _, ⟨rfl, rfl⟩, hp, hne, -⟩
      rw [ha] at hp
      exact hne (String.toList_eq_nil_iff.1 hp)
    · rw [if_neg ha]
      cases hr : PinRole.parse (String.ofList b) with
      | error e =>
        refine iff_of_false (by simp) ?_
        rintro ⟨_, _, ⟨rfl, rfl⟩, -, -, h⟩
        rw [hr] at h
        cases h
      | ok role =>
        simp only [Except.ok.injEq, Reservation.mk.injEq]
        constructor
        · rintro ⟨rfl, rfl⟩
          refine ⟨a, b, ⟨rfl, rfl⟩, by simp, ?_, hr⟩
          exact fun e => ha (by simpa using congrArg String.toList e)
        · rintro ⟨_, _, ⟨rfl, rfl⟩, hp, -, h⟩
          rw [hr] at h
          exact ⟨by rw [← hp, String.ofList_toList], Except.ok.inj h⟩

end Reservation

end MotorSketch
