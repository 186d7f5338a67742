import MotorSketch.Json.Fault
import MotorSketch.Text.Hex

/-!
# Text literals

A text stands between double quotes; a backslash starts an escape, and characters below U+0020
must be escaped.  An escape of four hexadecimal digits is a 16-bit unit, and two units that form
a surrogate pair are one character; any other surrogate belongs to no character.

    scan (body s ++ '"' :: rest) = ⟨s.map piece, none, rest⟩                      (scan_body)
    decode (s.map piece) none = .ok s                                     (decode_map_piece)
-/

namespace MotorSketch.Json.Literal

open Text (hexDigit? hexPair)

/-! ## Writing -/

/-- Characters above U+001F other than the quote and the backslash stand for themselves. -/
def escape (c : Char) : List Char :=
  match c with
  | '"' => ['\\', '"']
  | '\\' => ['\\', '\\']
  | '\x08' => ['\\', 'b']
  | '\x0c' => ['\\', 'f']
  | '\n' => ['\\', 'n']
  | '\r' => ['\\', 'r']
  | '\t' => ['\\', 't']
  | c => if c.toNat < 0x20 then ['\\', 'u', '0', '0'] ++ hexPair c.toNat else [c]

def body (s : List Char) : List Char := s.flatMap escape

def write (s : List Char) : List Char := '"' :: (body s ++ ['"'])

/-! ## Reading -/

/-- What a piece of a written text stands for. -/
inductive Piece
  | char (c : Char)
  | unit (u : Nat)
  deriving DecidableEq

def simpleEscape? (c : Char) : Option Char :=
  match c with
  | '"' => some '"'
  | '\\' => some '\\'
  | '/' => some '/'
  | 'b' => some '\x08'
  | 'f' => some '\x0c'
  | 'n' => some '\n'
  | 'r' => some '\r'
  | 't' => some '\t'
  | _ => none

def hexUnit? (a b c d : Char) : Option Nat :=
  match hexDigit? a, hexDigit? b, hexDigit? c, hexDigit? d with
  | some w, some x, some y, some z => some (((w * 16 + x) * 16 + y) * 16 + z)
  | _, _, _, _ => none

/-- The pieces up to the closing quote and what follows it, or up to a fault. -/
structure Scanned where
  pieces : List Piece
  fault : Option Fault
  rest : List Char
  deriving DecidableEq

def Scanned.push (p : Piece) (s : Scanned) : Scanned := ⟨p :: s.pieces, s.fault, s.rest⟩

def Scanned.stop (f : Fault) : Scanned := ⟨[], some f, []⟩

/-- The fault of an escape without four hexadecimal digits; the text is truncated when fewer
than four bytes follow. -/
def unitFault (rest : List Char) : Fault :=
  if (String.ofList rest).utf8ByteSize < 4 then .truncated else .malformed

/-- Reads on behind the opening quote. -/
def scan : List Char → Scanned
  | [] => .stop .truncated
  | '"' :: rest => ⟨[], none, rest⟩
  | ['\\'] => .stop .truncated
  | '\\' :: 'u' :: a :: b :: c :: d :: rest =>
    match hexUnit? a b c d with
    | some u => (scan rest).push (.unit u)
    | none => .stop (unitFault (a :: b :: c :: d :: rest))
  | '\\' :: 'u' :: rest => .stop (unitFault rest)
  | '\\' :: e :: rest =>
    match simpleEscape? e with
    | some c => (scan rest).push (.char c)
    | none => .stop .malformed
  | c :: rest => if c.toNat < 0x20 then .stop .malformed else (scan rest).push (.char c)

def isHighSurrogate (u : Nat) : Bool := 0xd800 ≤ u && u < 0xdc00

def isLowSurrogate (u : Nat) : Bool := 0xdc00 ≤ u && u < 0xe000

def pairedChar (high low : Nat) : Char :=
  Char.ofNat (0x10000 + (high - 0xd800) * 0x400 + (low - 0xdc00))

/-- The text of the pieces, unless a surrogate stands alone before the scan's own fault. -/
def decode : List Piece → Option Fault → Except Fault (List Char)
  | [], none => .ok []
  | [], some f => .error f
  | .char c :: rest, f => (decode rest f).map (c :: ·)
  | .unit u :: rest, f =>
    if isLowSurrogate u then .error .malformed
    else if isHighSurrogate u then
      match rest with
      | .unit v :: more =>
        if isLowSurrogate v then (decode more f).map (pairedChar u v :: ·) else .error .malformed
      | .char _ :: _ => .error .malformed
      | [] => .error (f.getD .malformed)
    else (decode rest f).map (Char.ofNat u :: ·)

/-! ## Lemmas -/

/-- What the written form of a character is read as. -/
def piece (c : Char) : Piece :=
  if c.toNat < 0x20 ∧ c ∉ ['\x08', '\x0c', '\n', '\r', '\t'] then .unit c.toNat else .char c

theorem scan_unit {a b c d : Char} {u : Nat} (h : hexUnit? a b c d = some u) (rest : List Char) :
    scan ('\\' :: 'u' :: a :: b :: c :: d :: rest) = (scan rest).push (.unit u) := by
  rw [scan.eq_4, h]

theorem scan_plain {c : Char} (hq : c ≠ '"') (hb : c ≠ '\\') (hc : ¬c.toNat < 0x20)
    (rest : List Char) : scan (c :: rest) = (scan rest).push (.char c) := by
  rw [scan.eq_7 _ _ (by exact hq) (by exact fun e _ => hb e)
    (by exact fun _ _ _ _ _ e _ => hb e) (by exact fun _ e _ => hb e)
    (by exact fun _ _ e _ => hb e), if_neg hc]

theorem hexUnit?_hexPair : ∀ n, n < 0x20 →
    hexUnit? '0' '0' (Nat.digitChar (n / 16)) (Nat.digitChar (n % 16)) = some n := by
  decide

theorem scan_escape (c : Char) (rest : List Char) :
    scan (escape c ++ rest) = (scan rest).push (piece c) := by
  unfold escape
  split
  case h_8 hq hb h1 h2 h3 h4 h5 =>
    split
    · next hc =>
      rw [piece, if_pos ⟨hc, by simpa using ⟨h1, h2, h3, h4, h5⟩⟩]
      exact scan_unit (hexUnit?_hexPair _ hc) rest
    · next hc =>
      rw [piece, if_neg fun h => hc h.1]
      exact scan_plain hq hb hc rest
  all_goals simp [scan, simpleEscape?, piece]

theorem scan_body (s rest : List Char) :
    scan (body s ++ '"' :: rest) = ⟨s.map piece, none, rest⟩ := by
  induction s with
  | nil => simp [body, scan]
  | cons c s ih =>
    rw [body, List.flatMap_cons, List.append_assoc, scan_escape, ← body, ih]
    rfl

theorem decode_piece (c : Char) (ps : List Piece) (f : Option Fault) :
    decode (piece c :: ps) f = (decode ps f).map (c :: ·) := by
  unfold piece
  split
  · next h =>
    have hl : isLowSurrogate c.toNat = false := by simp [isLowSurrogate]; omega
    have hh : isHighSurrogate c.toNat = false := by simp [isHighSurrogate]; omega
    rw [decode.eq_def]
    simp [hl, hh]
  · rfl

theorem decode_map_piece (s : List Char) : decode (s.map piece) none = .ok s := by
  induction s with
  | nil => rfl
  | cons c s ih => rw [List.map_cons, decode_piece, ih]; rfl

theorem length_rest_scan_le (cs : List Char) : (scan cs).rest.length ≤ cs.length := by
  fun_induction scan cs <;> simp_all [Scanned.stop, Scanned.push] <;> omega

end MotorSketch.Json.Literal
