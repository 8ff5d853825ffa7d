import LlmGateway.Contract.Json
import Mathlib.Data.List.Lex
import Mathlib.Data.List.Sort

/-!
# Canonical JSON

The hashes of events and decisions are taken of one text for each JSON value: `json.dumps` with
sorted keys, no blanks and no escapes but the necessary ones, encoded as UTF-8. The decimal form
of floats is a parameter.
-/

namespace LlmGateway

abbrev CodePoint := Fin 0x110000

theorem toNat_lt_codePoints (c : Char) : c.toNat < 0x110000 := by
  cases c.valid with
  | inl hlow => exact hlow.trans (by decide)
  | inr hhigh => exact hhigh.2

/-- The code point of a character. -/
def codePoint (c : Char) : CodePoint := ⟨c.toNat, toNat_lt_codePoints c⟩

/-- The code points of a number. -/
def isNumeric (c : CodePoint) : Bool :=
  (0x30 ≤ c.val && c.val ≤ 0x39) || c.val = 0x2D || c.val = 0x2B || c.val = 0x2E || c.val = 0x65

/-- The finite floats, with what is documented of `float.__repr__`. -/
structure PythonFloats where
  Double : Type
  /-- `mantissa * 2 ^ exponent`. -/
  ofParts : ℤ → ℤ → Double
  repr : Double → List CodePoint
  /-- `float(repr(x)) == x`. -/
  repr_injective : Function.Injective repr
  repr_numeric : ∀ x, ∀ c ∈ repr x, isNumeric c = true
  /-- No float looks like an integer. -/
  repr_marked : ∀ x, codePoint '.' ∈ repr x ∨ codePoint 'e' ∈ repr x

/-- What a JSON text says: the fields of an object are in the order of their keys. -/
inductive JsonValue (D : Type) where
  | null
  | bool (value : Bool)
  | int (value : ℤ)
  | float (value : D)
  | str (value : Text)
  | arr (items : List (JsonValue D))
  | obj (fields : List (Text × JsonValue D))

/-- The items of a dictionary, sorted by their keys. -/
def sortItems {α : Type} (items : List (Text × α)) : List (Text × α) :=
  items.insertionSort fun item item' ↦ item.1.codePoints ≤ item'.1.codePoints

namespace Json

variable (floats : PythonFloats)

mutual

/-- What the canonical text of a value says. -/
def canonical : Json → JsonValue floats.Double
  | null => .null
  | bool value => .bool value
  | int value => .int value
  | float mantissa exponent => .float (floats.ofParts mantissa exponent)
  | str value => .str value
  | arr items => .arr (canonicalItems items)
  | obj fields => .obj (sortItems (canonicalFields fields))

def canonicalItems : List Json → List (JsonValue floats.Double)
  | [] => []
  | x :: xs => canonical x :: canonicalItems xs

def canonicalFields : List (Text × Json) → List (Text × JsonValue floats.Double)
  | [] => []
  | (k, x) :: xs => (k, canonical x) :: canonicalFields xs

end

mutual

/-- No dictionary has a key twice. -/
def hasDistinctKeys : Json → Prop
  | arr items => itemsHaveDistinctKeys items
  | obj fields => (fields.map Prod.fst).Nodup ∧ fieldsHaveDistinctKeys fields
  | null | bool _ | int _ | float .. | str _ => True

def itemsHaveDistinctKeys : List Json → Prop
  | [] => True
  | x :: xs => hasDistinctKeys x ∧ itemsHaveDistinctKeys xs

def fieldsHaveDistinctKeys : List (Text × Json) → Prop
  | [] => True
  | (_, x) :: xs => hasDistinctKeys x ∧ fieldsHaveDistinctKeys xs

end

mutual

/-- The values are equal, with the fields of an object in any order. -/
def Same : Json → Json → Prop
  | null, null => True
  | bool a, bool b => a = b
  | int a, int b => a = b
  | float a e, float b f => floats.ofParts a e = floats.ofParts b f
  | str a, str b => a = b
  | arr items, arr items' => SameItems items items'
  | obj fields, obj fields' => ∃ permuted, fields'.Perm permuted ∧ SameFields fields permuted
  | _, _ => False

def SameItems : List Json → List Json → Prop
  | [], [] => True
  | x :: xs, y :: ys => Same x y ∧ SameItems xs ys
  | _, _ => False

def SameFields : List (Text × Json) → List (Text × Json) → Prop
  | [], [] => True
  | (k, x) :: xs, (l, y) :: ys => k = l ∧ Same x y ∧ SameFields xs ys
  | _, _ => False

end

end Json

/-! ## Texts -/

/-- `ESCAPE_DCT`, apart from the other control characters. -/
def shortEscapes : List (Char × Char) :=
  [('"', '"'), ('\\', '\\'), ('\n', 'n'), ('\r', 'r'), ('\t', 't'), ('\x08', 'b'), ('\x0c', 'f')]

/-- How a character is written in a string. -/
def escapeChar (c : CodePoint) : List CodePoint :=
  match shortEscapes.find? (fun escape ↦ codePoint escape.1 = c) with
  | some escape => [codePoint '\\', codePoint escape.2]
  | none =>
    if c.val < 0x20 then
      [codePoint '\\', codePoint 'u', codePoint '0', codePoint '0',
        codePoint (Nat.digitChar (c.val / 16)), codePoint (Nat.digitChar (c.val % 16))]
    else [c]

/-- `encode_basestring`. -/
def quoteText (text : Text) : List CodePoint :=
  codePoint '"' :: (text.codePoints.flatMap escapeChar ++ [codePoint '"'])

/-- `int.__repr__`. -/
def writeDecimal (n : ℤ) : List CodePoint :=
  (if n < 0 then [codePoint '-'] else []) ++ (Nat.toDigits 10 n.natAbs).map codePoint

namespace JsonValue

variable (floats : PythonFloats)

mutual

/-- The text that says the value. -/
def write : JsonValue floats.Double → List CodePoint
  | null => ['n', 'u', 'l', 'l'].map codePoint
  | bool true => ['t', 'r', 'u', 'e'].map codePoint
  | bool false => ['f', 'a', 'l', 's', 'e'].map codePoint
  | int value => writeDecimal value
  | float value => floats.repr value
  | str value => quoteText value
  | arr [] => [codePoint '[', codePoint ']']
  | arr (x :: xs) => codePoint '[' :: (write x ++ writeItems xs)
  | obj [] => [codePoint '{', codePoint '}']
  | obj ((k, x) :: xs) =>
    codePoint '{' :: (quoteText k ++ codePoint ':' :: (write x ++ writeFields xs))

/-- The other items, and the end of the list. -/
def writeItems : List (JsonValue floats.Double) → List CodePoint
  | [] => [codePoint ']']
  | x :: xs => codePoint ',' :: (write x ++ writeItems xs)

/-- The other fields, and the end of the object. -/
def writeFields : List (Text × JsonValue floats.Double) → List CodePoint
  | [] => [codePoint '}']
  | (k, x) :: xs => codePoint ',' :: (quoteText k ++ codePoint ':' :: (write x ++ writeFields xs))

/-- Every integer is short enough for `int.__repr__`. -/
def isWritable : JsonValue floats.Double → Bool
  | int value => value.natAbs < 10 ^ 4300
  | arr items => itemsWritable items
  | obj fields => fieldsWritable fields
  | null | bool _ | float _ | str _ => true

def itemsWritable : List (JsonValue floats.Double) → Bool
  | [] => true
  | x :: xs => isWritable x && itemsWritable xs

def fieldsWritable : List (Text × JsonValue floats.Double) → Bool
  | [] => true
  | (_, x) :: xs => isWritable x && fieldsWritable xs

end

end JsonValue

/-- `text.encode("utf-8")`. -/
def encodeUtf8 (codePoints : List CodePoint) : Option ByteArray :=
  if (Text.mk codePoints).isUtf8 then
    some (String.ofList (codePoints.map fun c ↦ Char.ofNat c.val)).toUTF8
  else none

/-- `canonical_json_bytes`, if it does not raise. -/
def canonicalJsonBytes (floats : PythonFloats) (value : Json) : Option ByteArray :=
  if (value.canonical floats).isWritable then encodeUtf8 ((value.canonical floats).write) else none

end LlmGateway
