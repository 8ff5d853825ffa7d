import Mathlib.Data.List.TakeDrop
import Mathlib.Data.List.TakeWhile
import Mathlib.Tactic.Common

/-!
# Base 64

Three bytes are four digits of six bits; one or two bytes at the end are two or three digits. A
text of digits may be padded to a multiple of four, and is read back with its padding.
-/

namespace LlmGateway.Base64

abbrev Byte := Fin 256

abbrev Digit := Fin 64

theorem byte_lt (n : ℕ) : n % 256 < 256 := Nat.mod_lt n (Nat.succ_pos 255)

theorem digit_lt (n : ℕ) : n % 64 < 64 := Nat.mod_lt n (Nat.succ_pos 63)

def byte (n : ℕ) : Byte := ⟨n % 256, byte_lt n⟩

def digit (n : ℕ) : Digit := ⟨n % 64, digit_lt n⟩

/-- The digits of the bytes. -/
def digits : List Byte → List Digit
  | [] => []
  | [a] => [digit (a.val / 4), digit (a.val % 4 * 16)]
  | [a, b] =>
    [digit (a.val / 4), digit (a.val % 4 * 16 + b.val / 16), digit (b.val % 16 * 4)]
  | a :: b :: c :: rest =>
    digit (a.val / 4) :: digit (a.val % 4 * 16 + b.val / 16) ::
      digit (b.val % 16 * 4 + c.val / 64) :: digit (c.val % 64) :: digits rest

/-- The bytes of the digits; bits left over at the end are dropped. -/
def bytes : List Digit → Option (List Byte)
  | [] => some []
  | [_] => none
  | [w, x] => some [byte (w.val * 4 + x.val / 16)]
  | [w, x, y] =>
    some [byte (w.val * 4 + x.val / 16), byte (x.val % 16 * 16 + y.val / 4)]
  | w :: x :: y :: z :: rest =>
    (bytes rest).map fun more ↦
      byte (w.val * 4 + x.val / 16) :: byte (x.val % 16 * 16 + y.val / 4) ::
        byte (y.val % 4 * 64 + z.val) :: more

/-- Reading back the digits of bytes. -/
theorem bytes_digits (l : List Byte) : bytes (digits l) = some l := by
  induction l using digits.induct with
  | case1 => rfl
  | case2 a =>
    have ha := a.isLt
    simp only [digits, bytes, Option.some.injEq, List.cons.injEq, and_true]
    apply Fin.ext
    simp only [byte, digit]
    omega
  | case3 a b =>
    have ha := a.isLt
    have hb := b.isLt
    simp only [digits, bytes, Option.some.injEq, List.cons.injEq, and_true]
    constructor <;> apply Fin.ext <;> simp only [byte, digit] <;> omega
  | case4 a b c rest ih =>
    have ha := a.isLt
    have hb := b.isLt
    have hc := c.isLt
    simp only [digits, bytes, ih, Option.map_some, Option.some.injEq, List.cons.injEq, and_true]
    refine ⟨?_, ?_, ?_⟩ <;> apply Fin.ext <;> simp only [byte, digit] <;> omega

/-- No text of digits is one digit longer than a multiple of four. -/
theorem length_digits (l : List Byte) : (digits l).length % 4 ≠ 1 := by
  induction l using digits.induct with
  | case1 => exact Nat.zero_ne_one
  | case2 _ | case3 _ _ => exact Nat.succ_succ_ne_one _
  | case4 a b c rest ih =>
    simp only [digits, List.length_cons]
    omega

section Text

variable {χ : Type*} [DecidableEq χ] (pad : χ) (write : Digit → χ) (read : χ → Option Digit)

/-- `b64encode`, without the padding. -/
def encode (l : List Byte) : List χ := (digits l).map write

/-- `b64decode` of a padded text: digits, and then exactly the padding that they need. -/
def decode (text : List χ) : Option (List Byte) :=
  let data := text.takeWhile (· ≠ pad)
  let padding := text.dropWhile (· ≠ pad)
  if (∀ c ∈ padding, c = pad) ∧ text.length % 4 = 0 ∧ padding.length ≤ 2 then
    (data.mapM read).bind bytes
  else none

/-- `"=" * (-len(text) % 4)`. -/
def padding (text : List χ) : List χ := List.replicate ((4 - text.length % 4) % 4) pad

variable {pad write read}

omit [DecidableEq χ] in
theorem mapM_read (hread : ∀ d, read (write d) = some d) (l : List Digit) :
    (l.map write).mapM read = some l := by
  induction l with
  | nil => rfl
  | cons d l ih => rw [List.map_cons, List.mapM_cons, hread, ih]; rfl

/-- Padding is not data. -/
theorem span_padding (pad : χ) (text : List χ) :
    (padding pad text).takeWhile (fun c ↦ decide (c ≠ pad)) = [] ∧
      (padding pad text).dropWhile (fun c ↦ decide (c ≠ pad)) = padding pad text := by
  have hnot : ¬decide (pad ≠ pad) = true := fun h ↦ of_decide_eq_true h rfl
  unfold padding
  cases (4 - text.length % 4) % 4 with
  | zero => exact ⟨rfl, rfl⟩
  | succ n =>
    rw [List.replicate_succ, List.takeWhile_cons, List.dropWhile_cons, if_neg hnot, if_neg hnot]
    exact ⟨rfl, rfl⟩

/-- A text without padding is read back with it. -/
theorem decode_encode (hread : ∀ d, read (write d) = some d) (hpad : ∀ d, write d ≠ pad)
    (l : List Byte) :
    decode pad read (encode write l ++ padding pad (encode write l)) = some l := by
  have hdata : ∀ c ∈ encode write l, decide (c ≠ pad) = true := by
    intro c hc
    obtain ⟨d, -, rfl⟩ := List.mem_map.1 hc
    exact decide_eq_true (hpad d)
  obtain ⟨htake, hdrop⟩ := span_padding pad (encode write l)
  have hlength : (encode write l).length % 4 ≠ 1 := by
    rw [encode, List.length_map]
    exact length_digits l
  have hshape : (∀ c ∈ padding pad (encode write l), c = pad) ∧
      (encode write l ++ padding pad (encode write l)).length % 4 = 0 ∧
      (padding pad (encode write l)).length ≤ 2 := by
    refine ⟨fun c hc ↦ List.eq_of_mem_replicate hc, ?_, ?_⟩
    · rw [List.length_append, padding, List.length_replicate]
      omega
    · rw [padding, List.length_replicate]
      omega
  unfold decode
  simp only [List.takeWhile_append_of_pos hdata, List.dropWhile_append_of_pos hdata, htake, hdrop,
    List.append_nil, if_pos hshape]
  rw [encode, mapM_read hread]
  exact bytes_digits l

end Text

end LlmGateway.Base64
