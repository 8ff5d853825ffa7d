import LlmGateway.Decision.Arguments
import Mathlib.Algebra.Order.Floor.Semiring
import Mathlib.Data.List.DropRight
import Mathlib.Data.Rat.Floor

/-!
# Python numbers

Integers that are read from a text or written as one, which raises beyond a number of digits, and
the doubles next to rational numbers. An error is the name of what is raised.
-/

namespace LlmGateway

/-! ## Digits -/

/-- What Unicode says of the digits. -/
structure DigitTable where
  /-- `unicodedata.decimal`, of the characters that `\d` stands for. -/
  decimal : Fin 0x110000 → Option (Fin 10)
  /-- `str.isdigit`. -/
  isDigit : Fin 0x110000 → Bool
  isDigit_of_decimal : ∀ c, (decimal c).isSome = true → isDigit c = true
  decimal_minus : decimal 0x2D = none

/-- `sys.get_int_max_str_digits()`. -/
def maxStrDigits : ℕ := 4300

namespace Text

/-- `text.strip()`. -/
def strip (text : Text) : Text :=
  ⟨(text.codePoints.dropWhile isSpace).rdropWhile isSpace⟩

/-- What `(\d+)$` finds, empty if nothing. -/
def trailingDigits (digits : DigitTable) (text : Text) : List (Fin 0x110000) :=
  text.codePoints.rtakeWhile fun c ↦ (digits.decimal c).isSome

/-- The text is made of decimal digits. -/
def IsDecimal (digits : DigitTable) (text : Text) : Prop :=
  text.codePoints ≠ [] ∧ ∀ c ∈ text.codePoints, (digits.decimal c).isSome = true

end Text

/-- `int(text)`, of a text without a sign. -/
def readDigits (digits : DigitTable) (text : List (Fin 0x110000)) : Except String ℕ :=
  if maxStrDigits < text.length then .error "ValueError"
  else match text.mapM digits.decimal with
    | none => .error "ValueError"
    | some values => .ok (values.foldl (fun n digit ↦ 10 * n + digit.val) 0)

/-- `str(n)`. -/
def writeInt (n : ℤ) : Except String Text :=
  if 10 ^ maxStrDigits ≤ n.natAbs then .error "ValueError" else .ok (.ofString (toString n))

theorem exists_readDigits {digits : DigitTable} {text : List (Fin 0x110000)}
    (hlength : text.length ≤ maxStrDigits)
    (hdecimal : ∀ c ∈ text, (digits.decimal c).isSome = true) :
    ∃ n, readDigits digits text = .ok n := by
  have hvalues : ∃ values, text.mapM digits.decimal = some values := by
    clear hlength
    induction text with
    | nil => exact ⟨[], rfl⟩
    | cons c text ih =>
      obtain ⟨hc, htext⟩ := List.forall_mem_cons.1 hdecimal
      obtain ⟨value, hvalue⟩ := Option.isSome_iff_exists.1 hc
      obtain ⟨values, hvalues⟩ := ih htext
      exact ⟨value :: values, by rw [List.mapM_cons, hvalue, hvalues]; rfl⟩
  obtain ⟨values, hvalues⟩ := hvalues
  rw [readDigits, if_neg (not_lt.2 hlength), hvalues]
  exact ⟨_, rfl⟩

theorem decimal_of_mem_trailingDigits {digits : DigitTable} {text : Text} :
    ∀ c ∈ text.trailingDigits digits, (digits.decimal c).isSome = true :=
  fun _ hc ↦ List.mem_rtakeWhile_imp (p := fun c ↦ (digits.decimal c).isSome) hc

theorem exists_writeInt {n : ℤ} (h : n.natAbs < 10 ^ maxStrDigits) :
    ∃ text, writeInt n = .ok text := by
  rw [writeInt, if_neg (not_le.2 h)]
  exact ⟨_, rfl⟩

/-! ## Doubles -/

/-- The nearest integer, the even one of two. -/
def roundHalfEven (x : ℚ) : ℤ :=
  if x - ⌊x⌋ < 1 / 2 then ⌊x⌋ else if 1 / 2 < x - ⌊x⌋ then ⌊x⌋ + 1 else ⌊x⌋ + ⌊x⌋ % 2

/-- `2 ** exponent`. -/
def twoPow (exponent : ℤ) : ℚ :=
  if 0 ≤ exponent then ((2 ^ exponent.toNat : ℕ) : ℚ) else mkRat 1 (2 ^ (-exponent).toNat)

/-- The exponent of the leading binary digit. -/
def binaryExponent (x : ℚ) : ℤ :=
  let exponent : ℤ := x.num.natAbs.log2 - x.den.log2
  if |x| < twoPow exponent then exponent - 1 else exponent

/-- The nearest double, of a number within the range of the doubles. -/
def roundDouble (x : ℚ) : ℚ :=
  if x = 0 then 0
  else
    let unit := twoPow (max (binaryExponent x - 52) (-1074))
    roundHalfEven (x / unit) * unit

/-- `round(x, 6)`. -/
def roundSix (x : ℚ) : ℚ := roundDouble (roundHalfEven (x * 1000000) / 1000000)

/-- The least magnitude of an integer that no double is next to. -/
def doubleOverflow : ℕ := 2 ^ 1024 - 2 ^ 970

/-- `float(raw)`, of a number that is no truth value. -/
def toDouble : Json → Except String (Option ℚ)
  | .int n =>
    if doubleOverflow ≤ n.natAbs then .error "OverflowError" else .ok (some (roundDouble n))
  | .float mantissa exponent => .ok (some (mantissa * twoPow exponent))
  | _ => .ok none

theorem exists_toDouble {raw : Json} (h : ∀ n, raw = .int n → n.natAbs < doubleOverflow) :
    ∃ x, toDouble raw = .ok x := by
  cases raw with
  | int n =>
    have hlt : ¬doubleOverflow ≤ n.natAbs := not_le.2 (h n rfl)
    rw [toDouble, if_neg hlt]
    exact ⟨_, rfl⟩
  | null | bool | float | str | arr | obj => exact ⟨_, rfl⟩

end LlmGateway
