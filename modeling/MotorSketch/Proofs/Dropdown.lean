import MotorSketch.Dropdown

/-!
# Dropdown sessions

A dropdown is looked at, gets values selected and has its source replaced, in any order.  Its
selection is the last value that was offered when it was selected, whatever is offered now, and what
it shows follows from its value and from the choices there are now.  The placeholder is shown if and
only if there is no value, but the label of a choice, and a value that is no longer offered, may
read like it (`label_placeholder_fails`).

    (d.run steps).selected = (selections d.source steps).getLast?.or d.selected    (selected_run)
    d.shown = Shown.of d.value d.choices                                               (shown_eq)
    ((ofSource s).run steps).Follows (sourceAfter s steps) (selections s steps)     (follows_run)
-/

namespace MotorSketch

/-! ## What has to be shown -/

namespace Shown

/-- A value is shown by the first choice that has it. -/
def of (value : Option String) (choices : List Choice) : Shown :=
  match value with
  | none => nothing
  | some v =>
    match choices.find? fun c => c.value == v with
    | some c => choice c
    | none => stale v

theorem of_eq_nothing_iff {value : Option String} {choices : List Choice} :
    of value choices = nothing ↔ value = none := by
  unfold of
  split
  · simp
  · split <;> simp

theorem of_stale {v : String} {choices : List Choice} (h : ∀ c ∈ choices, c.value ≠ v) :
    of (some v) choices = stale v := by
  have hnone : choices.find? (fun c => c.value == v) = none := by
    rw [List.find?_eq_none]
    intro c hc
    simpa using h c hc
  rw [of, hnone]

/-- The first choice with the value. -/
theorem of_first {before after : List Choice} {c : Choice} (h : ∀ b ∈ before, b.value ≠ c.value) :
    of (some c.value) (before ++ c :: after) = choice c := by
  have hfind : (before ++ c :: after).find? (fun b => b.value == c.value) = some c := by
    rw [List.find?_eq_some_iff_append]
    exact ⟨by simp, before, after, rfl, fun b hb => by simpa using h b hb⟩
  rw [of, hfind]

/-- What is read is the label of the first choice with the value, or the value itself. -/
theorem text_of_some_iff {t v : String} {choices : List Choice} :
    (of (some v) choices).text = t ↔
      (∃ before c after, choices = before ++ c :: after ∧ (∀ b ∈ before, b.value ≠ c.value) ∧
        v = c.value ∧ c.label = t) ∨ (v = t ∧ ∀ c ∈ choices, c.value ≠ v) := by
  cases hf : choices.find? fun c => c.value == v with
  | none =>
    have hoff : ∀ c ∈ choices, c.value ≠ v := by simpa using hf
    rw [of_stale hoff]
    constructor
    · exact fun h => .inr ⟨h, hoff⟩
    · rintro (⟨before, c, after, rfl, -, rfl, -⟩ | ⟨rfl, -⟩)
      · exact absurd rfl (hoff c (by simp))
      · rfl
  | some c =>
    have hshown : (of (some v) choices).text = c.label := by
      rw [of, hf]
      rfl
    obtain ⟨hc, before, after, rfl, hbefore⟩ := List.find?_eq_some_iff_append.1 hf
    obtain rfl : c.value = v := by simpa using hc
    constructor
    · intro h
      exact .inl ⟨before, c, after, rfl, by simpa using hbefore, rfl, hshown ▸ h⟩
    · rintro (⟨before', c', after', hsplit, hbefore', hvalue, rfl⟩ | ⟨-, hoff⟩)
      · rw [hsplit, hvalue, of_first hbefore']
        rfl
      · exact absurd rfl (hoff c (by simp))

end Shown

namespace Dropdown

/-! ## Sessions -/

inductive Step
  /-- The choices are asked for. -/
  | look
  | select (value : String)
  | provide (source : ChoiceSource)

def step (d : Dropdown) : Step → Dropdown
  | .look => d
  | .select v => (d.select v).1
  | .provide source => d.setSource source

def run (d : Dropdown) (steps : List Step) : Dropdown := steps.foldl step d

/-- The source behind the steps. -/
def sourceAfter (source : ChoiceSource) : List Step → ChoiceSource
  | [] => source
  | .provide next :: rest => sourceAfter next rest
  | _ :: rest => sourceAfter source rest

/-- The values that are selected while they are offered. -/
def selections (source : ChoiceSource) : List Step → List String
  | [] => []
  | .look :: rest => selections source rest
  | .select v :: rest =>
    if v ∈ source.choices.map Choice.value then v :: selections source rest
    else selections source rest
  | .provide next :: rest => selections next rest

theorem offers_iff {d : Dropdown} {v : String} :
    d.offers v = true ↔ v ∈ d.source.choices.map Choice.value := by
  simp [offers, choices]

theorem source_select (d : Dropdown) (v : String) : (d.select v).1.source = d.source := by
  unfold select
  split <;> rfl

theorem source_run (d : Dropdown) (steps : List Step) :
    (d.run steps).source = sourceAfter d.source steps := by
  induction steps generalizing d with
  | nil => rfl
  | cons s rest ih =>
    refine (ih (d.step s)).trans ?_
    cases s with
    | look | provide => rfl
    | select v => rw [step, source_select]; rfl

theorem selected_run (d : Dropdown) (steps : List Step) :
    (d.run steps).selected = (selections d.source steps).getLast?.or d.selected := by
  induction steps generalizing d with
  | nil => rfl
  | cons s rest ih =>
    refine (ih (d.step s)).trans ?_
    cases s with
    | look | provide => rfl
    | select v =>
      rw [step, source_select, selections, select]
      by_cases hv : d.offers v = true
      · rw [if_pos hv, if_pos (offers_iff.1 hv), List.getLast?_cons]
        cases (selections d.source rest).getLast? <;> rfl
      · rw [if_neg hv, if_neg (mt offers_iff.2 hv)]

/-! ## Values and what is shown -/

variable {d : Dropdown}

theorem value_eq (d : Dropdown) :
    d.value = d.selected.or (d.choices.head?.map Choice.value) := by
  unfold value
  cases d.selected <;> rfl

theorem value_eq_none_iff : d.value = none ↔ d.selected = none ∧ d.choices = [] := by
  rw [value_eq, Option.or_eq_none_iff, Option.map_eq_none_iff, List.head?_eq_none_iff]

theorem hasChoices_iff : d.hasChoices = true ↔ d.choices ≠ [] := by
  simp [hasChoices]

/-- A value that was not selected is that of a choice. -/
theorem selected_of_not_offered {v : String} (hv : d.value = some v)
    (h : ∀ c ∈ d.choices, c.value ≠ v) : d.selected = some v := by
  rw [value_eq] at hv
  cases hs : d.selected with
  | some s => rwa [hs] at hv
  | none =>
    rw [hs, Option.none_or, Option.map_eq_some_iff] at hv
    obtain ⟨c, hc, hcv⟩ := hv
    exact absurd hcv (h c (List.mem_of_head? hc))

/-- The choice is looked up by the selection or the first choice, and so it is that of the value. -/
theorem shown_eq (d : Dropdown) : d.shown = Shown.of d.value d.choices := by
  simp only [shown, ← value_eq]
  cases hv : d.value with
  | none =>
    rw [(value_eq_none_iff.1 hv).1]
    rfl
  | some v =>
    rw [Option.bind_some, Shown.of]
    cases hf : d.choices.find? fun c => c.value == v with
    | some c => rfl
    | none =>
      have hoff : ∀ c ∈ d.choices, c.value ≠ v := by simpa using hf
      rw [selected_of_not_offered hv hoff]
      rfl

/-! ## Whole sessions -/

/-- The dropdown behaves as one that has this source and in which these values were selected. -/
structure Follows (d : Dropdown) (source : ChoiceSource) (picked : List String) : Prop where
  choices : d.choices = source.choices
  hasChoices : d.hasChoices = true ↔ source.choices ≠ []
  select_iff : ∀ v, (d.select v).2 = true ↔ ∃ c ∈ source.choices, c.value = v
  select_refused : ∀ v, (d.select v).2 = false → (d.select v).1 = d
  selected : d.selected = picked.getLast?
  value : d.value = picked.getLast?.or (source.choices.head?.map Choice.value)
  value_none : d.value = none ↔ picked = [] ∧ source.choices = []
  shown : d.shown = Shown.of d.value source.choices
  first : ∀ before c after, source.choices = before ++ c :: after →
    (∀ b ∈ before, b.value ≠ c.value) → d.value = some c.value →
      d.shown = .choice c ∧ d.label = c.label
  stale : ∀ v, d.value = some v → (∀ c ∈ source.choices, c.value ≠ v) →
    picked.getLast? = some v ∧ d.shown = .stale v ∧ d.label = v
  nothing : d.shown = .nothing ↔ d.value = none
  /-- A label, or a value that is no longer offered, may read like the placeholder. -/
  placeholder_iff : d.label = noChoiceText ↔
    d.value = none ∨
      (∃ before c after, source.choices = before ++ c :: after ∧
        (∀ b ∈ before, b.value ≠ c.value) ∧ d.value = some c.value ∧ c.label = noChoiceText) ∨
      d.value = some noChoiceText ∧ ∀ c ∈ source.choices, c.value ≠ noChoiceText

theorem follows_of_selected {picked : List String} (h : d.selected = picked.getLast?) :
    d.Follows d.source picked where
  choices := rfl
  hasChoices := hasChoices_iff
  select_iff v := select_eq_true_iff
  select_refused v := select_of_eq_false
  selected := h
  value := by rw [value_eq, h]; rfl
  value_none := by rw [value_eq_none_iff, h, List.getLast?_eq_none_iff]; rfl
  shown := shown_eq d
  first before c after hsplit hbefore hvalue := by
    have hshown : d.shown = .choice c := by
      rw [shown_eq, hvalue, Dropdown.choices, hsplit, Shown.of_first hbefore]
    exact ⟨hshown, congrArg Shown.text hshown⟩
  stale v hvalue hoff := by
    have hshown : d.shown = .stale v := by
      rw [shown_eq, hvalue]
      exact Shown.of_stale hoff
    exact ⟨h ▸ selected_of_not_offered hvalue hoff, hshown, congrArg Shown.text hshown⟩
  nothing := by rw [shown_eq, Shown.of_eq_nothing_iff]
  placeholder_iff := by
    rw [label, shown_eq]
    cases d.value with
    | none => exact iff_of_true rfl (.inl rfl)
    | some v =>
      rw [Shown.text_of_some_iff]
      simp only [reduceCtorEq, false_or, Option.some_inj]
      refine or_congr Iff.rfl (and_congr_right ?_)
      rintro rfl
      exact Iff.rfl

/-- After any steps, what a dropdown has selected, holds and shows is known from the source there is
now and from the values that were offered when they were selected. -/
theorem follows_run (source : ChoiceSource) (steps : List Step) :
    ((ofSource source).run steps).Follows (sourceAfter source steps) (selections source steps) := by
  have hselected := selected_run (ofSource source) steps
  have hsource := source_run (ofSource source) steps
  rw [ofSource, Option.or_none] at hselected
  exact hsource ▸ follows_of_selected hselected

theorem follows_run_emptied :
    let d := (ofSource (.fixed [⟨"Left", "l"⟩])).run [.select "l", .provide (.fixed [])]
    d.value = some "l" ∧ d.choices = [] ∧ d.label = "l" := by
  intro d
  have hfollows := follows_run (.fixed [⟨"Left", "l"⟩]) [.select "l", .provide (.fixed [])]
  have hvalue : d.value = some "l" := hfollows.value
  obtain ⟨-, -, hlabel⟩ := hfollows.stale "l" hvalue nofun
  exact ⟨hvalue, hfollows.choices, hlabel⟩

/-- The placeholder is read where there is a value: as the label of a choice, and as a value that is
no longer offered. -/
theorem label_placeholder_fails :
    (let d := ofSource (.fixed [⟨"<none>", "x"⟩]);
      ¬ (d.label = noChoiceText ↔ d.value = none)) ∧
      (let d := (ofSource (.fixed [⟨"l", "<none>"⟩])).run [.select "<none>", .provide (.fixed [])];
        ¬ (d.label = noChoiceText ↔ d.value = none)) := by
  decide

end Dropdown

end MotorSketch
