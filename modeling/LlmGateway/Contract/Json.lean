import Mathlib.Algebra.Group.Nat.Defs
import Mathlib.Data.Int.Notation
import Mathlib.Tactic.Common

/-!
# JSON values

The free-form parts of an event (session snapshots, skill arguments, chat payloads) are JSON
values. A finite float is kept as `mantissa * 2 ^ exponent`. Equality is decidable, so that
an event can be compared with a stored one.

A text is a list of code points, as in the decoded request: an escape may put an unpaired
surrogate into it, which has no UTF-8 form, and a zero, which the database does not store.
-/

namespace LlmGateway

/-- There are code points to write as numbers. -/
instance instNeZeroCodePoints : @NeZero ℕ Zero.ofOfNat0 0x110000 := ⟨Nat.succ_ne_zero 0x10FFFF⟩

/-- A Python string. -/
structure Text where
  codePoints : List (Fin 0x110000)
deriving DecidableEq

namespace Text

def ofString (text : String) : Text :=
  ⟨text.toList.map fun c ↦
    ⟨c.toNat, c.valid.elim (fun h ↦ Nat.lt_trans h (by decide)) And.right⟩⟩

instance : Coe String Text := ⟨ofString⟩

/-- The text has a UTF-8 form. -/
def isUtf8 (text : Text) : Bool :=
  text.codePoints.all fun c ↦ c.val < 0xD800 ∨ 0xDFFF < c.val

/-- PostgreSQL stores every text with a UTF-8 form except those with a zero. -/
def isStorable (text : Text) : Bool := text.isUtf8 && text.codePoints.all (·.val ≠ 0)

/-- Only code points of the free-form parts are surrogates. -/
theorem isUtf8_ofString (text : String) : (ofString text).isUtf8 = true := by
  simp only [isUtf8, ofString, List.all_map, List.all_eq_true, Function.comp_apply,
    decide_eq_true_eq]
  intro c _
  exact c.valid.imp id And.left

end Text

inductive Json where
  | null
  | bool (value : Bool)
  | int (value : ℤ)
  | float (mantissa exponent : ℤ)
  | str (value : Text)
  | arr (items : List Json)
  | obj (fields : List (Text × Json))

namespace Json

mutual

def decEq : (a b : Json) → Decidable (a = b)
  | null, null => isTrue rfl
  | bool a, bool b => decidable_of_iff (a = b) (by simp)
  | int a, int b => decidable_of_iff (a = b) (by simp)
  | float a e, float b f => decidable_of_iff (a = b ∧ e = f) (by simp)
  | str a, str b => decidable_of_iff (a = b) (by simp)
  | arr xs, arr ys => @decidable_of_iff _ (xs = ys) (by simp) (decEqList xs ys)
  | obj xs, obj ys => @decidable_of_iff _ (xs = ys) (by simp) (decEqFields xs ys)
  | null, bool _ | null, int _ | null, float .. | null, str _ | null, arr _ | null, obj _
  | bool _, null | bool _, int _ | bool _, float .. | bool _, str _ | bool _, arr _ | bool _, obj _
  | int _, null | int _, bool _ | int _, float .. | int _, str _ | int _, arr _ | int _, obj _
  | float .., null | float .., bool _ | float .., int _ | float .., str _ | float .., arr _
  | float .., obj _
  | str _, null | str _, bool _ | str _, int _ | str _, float .. | str _, arr _ | str _, obj _
  | arr _, null | arr _, bool _ | arr _, int _ | arr _, float .. | arr _, str _ | arr _, obj _
  | obj _, null | obj _, bool _ | obj _, int _ | obj _, float .. | obj _, str _ | obj _, arr _ =>
    isFalse (by simp)

def decEqList : (xs ys : List Json) → Decidable (xs = ys)
  | [], [] => isTrue rfl
  | [], _ :: _ => isFalse (by simp)
  | _ :: _, [] => isFalse (by simp)
  | x :: xs, y :: ys =>
    match decEq x y, decEqList xs ys with
    | isTrue h, isTrue h' => isTrue (by rw [h, h'])
    | isFalse h, _ => isFalse (by simp [h])
    | _, isFalse h => isFalse (by simp [h])

def decEqFields : (xs ys : List (Text × Json)) → Decidable (xs = ys)
  | [], [] => isTrue rfl
  | [], _ :: _ => isFalse (by simp)
  | _ :: _, [] => isFalse (by simp)
  | (k, x) :: xs, (l, y) :: ys =>
    match decEq x y, decEqFields xs ys, instDecidableEqText k l with
    | isTrue h, isTrue h', isTrue hk => isTrue (by rw [h, h', hk])
    | isFalse h, _, _ => isFalse (by simp [h])
    | _, isFalse h, _ => isFalse (by simp [h])
    | _, _, isFalse h => isFalse (by simp [h])

end

instance : DecidableEq Json := decEq

mutual

/-- Every text of a value, object keys included. -/
def texts : Json → List Text
  | str s => [s]
  | arr items => textsOfList items
  | obj fields => textsOfFields fields
  | null | bool _ | int _ | float .. => []

def textsOfList : List Json → List Text
  | [] => []
  | x :: xs => texts x ++ textsOfList xs

def textsOfFields : List (Text × Json) → List Text
  | [] => []
  | (k, x) :: xs => k :: (texts x ++ textsOfFields xs)

end

end Json

end LlmGateway
