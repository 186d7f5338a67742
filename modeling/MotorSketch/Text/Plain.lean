/-!
# Plain text

What is left of a text without all that only steers a terminal: control sequences, and control
characters other than those that place text.

An escape character opens a sequence.  What follows it says how the sequence is closed: `[` by
the first of '@' to '~', `]` by a bell, `P`, `X`, `^` and `_` by the byte 9C, and every other
character closes it, blanks and punctuation aside.  Cancel and substitute close any sequence.

Where a visible character closes the sequence, a spacing control inside it is kept and pauses it:
the text is plain again, and the next control character takes the sequence up where it stood,
unless a character beyond ASCII came between.

    (plainChars s).Sublist s                                              (plainChars_sublist)
    c ∈ plainChars s → isShown c                                (isShown_of_mem_plainChars)
    plainChars s = s  when all of s is shown                              (plainChars_eq_self)
    plainChars ('\x1b' :: '[' :: (ps ++ e :: s)) = plainChars s           (plainChars_control)
-/

namespace MotorSketch.Text

/-! ## Algorithm -/

/-- Tabs, line feeds, form feeds and carriage returns place text. -/
def isSpacing (c : Char) : Bool := c == '\t' || c == '\n' || c == '\x0c' || c == '\r'

/-- Whether a character stays in a plain text. -/
def isShown (c : Char) : Bool := isSpacing c || (0x20 ≤ c.toNat && c != '\x7f')

/-- How far a control sequence has been read. -/
inductive ControlSequence
  /-- No sequence is open. -/
  | closed
  /-- Behind the escape character. -/
  | escaped
  /-- Behind the escape character and blanks or punctuation. -/
  | prefixed
  /-- Behind `ESC [`. -/
  | control
  /-- Behind `ESC ]`. -/
  | command
  /-- Behind `ESC P`. -/
  | device
  /-- Behind `ESC P` and parameters. -/
  | deviceParameters
  /-- Behind `ESC P`, parameters, and blanks or punctuation. -/
  | devicePrefixed
  /-- In the data of a string that the byte 9C ends. -/
  | string
  deriving DecidableEq

namespace ControlSequence

/-- The sequence that the character behind an escape character opens. -/
def opened (c : Char) : ControlSequence :=
  match c with
  | '[' => .control
  | ']' => .command
  | 'P' => .device
  | 'X' | '^' | '_' => .string
  | c =>
    if c.toNat < 0x20 then .escaped
    else if c.toNat < 0x30 then .prefixed
    else if c.toNat < 0x7f then .closed
    else .escaped

/-- The head of a device string: parameters, then blanks or punctuation, then a letter; other
orders make it a string without a head. -/
def deviceHead (s : ControlSequence) (c : Char) : ControlSequence :=
  if c.toNat < 0x20 then s
  else if c.toNat < 0x30 then .devicePrefixed
  else if c.toNat < 0x40 then
    match s with
    | .device => .deviceParameters
    | .deviceParameters => if c.toNat < 0x3c then .deviceParameters else .string
    | _ => .string
  else if c.toNat < 0x7f then .string
  else s

def endsString (c : Char) : Bool := (String.utf8EncodeChar c).contains 0x9c

/-- What a character does to a sequence by the rules of that sequence. -/
def advance (s : ControlSequence) (c : Char) : ControlSequence :=
  match s with
  | .closed => .closed
  | .escaped => opened c
  | .prefixed => if 0x30 ≤ c.toNat ∧ c.toNat < 0x7f then .closed else .prefixed
  | .control => if 0x40 ≤ c.toNat ∧ c.toNat < 0x7f then .closed else .control
  | .command => if c = '\x07' then .closed else .command
  | .device | .deviceParameters | .devicePrefixed => s.deviceHead c
  | .string => if endsString c then .closed else .string

/-- Escape opens a sequence, cancel and substitute close one, by whatever rules it is read. -/
def next (s : ControlSequence) (c : Char) : ControlSequence :=
  if c = '\x1b' then .escaped
  else if c = '\x18' ∨ c = '\x1a' then .closed
  else s.advance c

/-- Spacing stands in the text, and not in the sequence. -/
def letsSpacing : ControlSequence → Bool
  | .closed | .escaped | .prefixed | .control => true
  | .command | .device | .deviceParameters | .devicePrefixed | .string => false

end ControlSequence

/-- Where a reader of a text stands: in a sequence, which may be paused. -/
structure PlainReader where
  sequence : ControlSequence
  paused : Bool
  deriving DecidableEq

namespace PlainReader

def start : PlainReader := ⟨.closed, false⟩

def keeps (r : PlainReader) (c : Char) : Bool :=
  if r.paused || r.sequence == .closed then isShown c
  else isSpacing c && r.sequence.letsSpacing

/-- A character that is kept pauses the sequence, and one beyond ASCII closes it. -/
def next (r : PlainReader) (c : Char) : PlainReader :=
  if r.keeps c then if c.toNat < 0x80 then ⟨r.sequence, true⟩ else ⟨.closed, true⟩
  else ⟨r.sequence.next c, false⟩

end PlainReader

def plainFrom (r : PlainReader) : List Char → List Char
  | [] => []
  | c :: rest => if r.keeps c then c :: plainFrom (r.next c) rest else plainFrom (r.next c) rest

def plainChars (s : List Char) : List Char := plainFrom .start s

def plain (s : String) : String := String.ofList (plainChars s.toList)

/-! ## Lemmas -/

theorem isShown_of_isSpacing {c : Char} (h : isSpacing c = true) : isShown c = true := by
  simp [isShown, h]

theorem PlainReader.isShown_of_keeps {r : PlainReader} {c : Char} (h : r.keeps c = true) :
    isShown c = true := by
  unfold keeps at h
  split at h
  · exact h
  · exact isShown_of_isSpacing (by simp only [Bool.and_eq_true] at h; exact h.1)

@[simp] theorem PlainReader.keeps_closed (paused : Bool) (c : Char) :
    (⟨.closed, paused⟩ : PlainReader).keeps c = isShown c := by
  simp [keeps]

theorem plainFrom_sublist (r : PlainReader) (s : List Char) : (plainFrom r s).Sublist s := by
  induction s generalizing r with
  | nil => exact List.Sublist.refl _
  | cons c s ih =>
    rw [plainFrom]
    split
    · exact (ih _).cons_cons c
    · exact (ih _).cons c

theorem plainChars_sublist (s : List Char) : (plainChars s).Sublist s := plainFrom_sublist _ s

theorem isShown_of_mem_plainFrom {r : PlainReader} {s : List Char} {c : Char}
    (h : c ∈ plainFrom r s) : isShown c = true := by
  induction s generalizing r with
  | nil => cases h
  | cons d s ih =>
    rw [plainFrom] at h
    split at h
    · next hd =>
      rcases List.mem_cons.1 h with rfl | h
      · exact r.isShown_of_keeps hd
      · exact ih h
    · exact ih h

theorem isShown_of_mem_plainChars {s : List Char} {c : Char} (h : c ∈ plainChars s) :
    isShown c = true :=
  isShown_of_mem_plainFrom h

/-- While no sequence is open, it does not matter whether one was paused. -/
theorem plainFrom_closed (paused : Bool) (s : List Char) :
    plainFrom ⟨.closed, paused⟩ s = plainChars s := by
  cases s with
  | nil => rfl
  | cons c s => simp [plainChars, plainFrom, PlainReader.start, PlainReader.next]

theorem plainChars_cons_of_isShown {c : Char} (s : List Char) (h : isShown c = true) :
    plainChars (c :: s) = c :: plainChars s := by
  have hk : PlainReader.start.keeps c = true := by simp [PlainReader.start, h]
  rw [plainChars, plainFrom, if_pos hk, PlainReader.next, if_pos hk]
  split <;> simp [PlainReader.start, plainFrom_closed]

theorem plainChars_append {l : List Char} (s : List Char) (h : ∀ c ∈ l, isShown c = true) :
    plainChars (l ++ s) = l ++ plainChars s := by
  induction l with
  | nil => rfl
  | cons c l ih =>
    rw [List.cons_append, plainChars_cons_of_isShown _ (h c (by simp)),
      ih fun d hd => h d (by simp [hd]), List.cons_append]

theorem plainChars_eq_self {s : List Char} (h : ∀ c ∈ s, isShown c = true) : plainChars s = s := by
  simpa [plainChars, plainFrom] using plainChars_append [] h

theorem isSpacing_eq_false_of_le {c : Char} (h : 0x20 ≤ c.toNat) : isSpacing c = false := by
  refine Bool.eq_false_iff.2 fun hc => ?_
  simp only [isSpacing, Bool.or_eq_true, beq_iff_eq] at hc
  rcases hc with ((rfl | rfl) | rfl) | rfl <;> revert h <;> decide

theorem ControlSequence.next_eq_advance (q : ControlSequence) {c : Char} (h : 0x20 ≤ c.toNat) :
    q.next c = q.advance c := by
  have ne : ∀ d : Char, d.toNat < 0x20 → c ≠ d := by
    rintro d hd rfl
    omega
  rw [next, if_neg (ne _ (by decide)), if_neg (not_or.2 ⟨ne _ (by decide), ne _ (by decide)⟩)]

/-- Inside a sequence a visible character goes to the sequence. -/
theorem plainFrom_cons_of_le {q : ControlSequence} {c : Char} (s : List Char) (hq : q ≠ .closed)
    (h : 0x20 ≤ c.toNat) :
    plainFrom ⟨q, false⟩ (c :: s) = plainFrom ⟨q.advance c, false⟩ s := by
  have hk : (⟨q, false⟩ : PlainReader).keeps c = false := by
    simp [PlainReader.keeps, hq, isSpacing_eq_false_of_le h]
  simp [plainFrom, PlainReader.next, hk, q.next_eq_advance h]

theorem ControlSequence.advance_control (c : Char) :
    advance .control c =
      if 0x40 ≤ c.toNat ∧ c.toNat < 0x7f then .closed else .control := rfl

theorem plainChars_escape (s : List Char) :
    plainChars ('\x1b' :: s) = plainFrom ⟨.escaped, false⟩ s := by
  rfl

theorem plainFrom_control {ps : List Char} {e : Char} (s : List Char)
    (hp : ∀ c ∈ ps, 0x20 ≤ c.toNat ∧ c.toNat < 0x40) (he : 0x40 ≤ e.toNat ∧ e.toNat < 0x7f) :
    plainFrom ⟨.control, false⟩ (ps ++ e :: s) = plainChars s := by
  induction ps with
  | nil =>
    rw [List.nil_append, plainFrom_cons_of_le _ (by decide) (by omega),
      ControlSequence.advance_control, if_pos he, plainFrom_closed]
  | cons c ps ih =>
    have hc := hp c (by simp)
    rw [List.cons_append, plainFrom_cons_of_le _ (by decide) hc.1,
      ControlSequence.advance_control, if_neg (by omega), ih fun d hd => hp d (by simp [hd])]

/-- A control sequence leaves nothing in the text. -/
theorem plainChars_control {ps : List Char} {e : Char} (s : List Char)
    (hp : ∀ c ∈ ps, 0x20 ≤ c.toNat ∧ c.toNat < 0x40) (he : 0x40 ≤ e.toNat ∧ e.toNat < 0x7f) :
    plainChars ('\x1b' :: '[' :: (ps ++ e :: s)) = plainChars s := by
  rw [plainChars_escape, plainFrom_cons_of_le _ (by decide) (by decide)]
  exact plainFrom_control s hp he

end MotorSketch.Text
