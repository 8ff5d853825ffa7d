import LlmGateway.Contract.Canonical
import LlmGateway.Relational.Codes
import Mathlib.Data.List.Perm.Basic

/-!
# Canonical JSON tells values apart

The digests of events and decisions stand for the values that were hashed: the canonical bytes
can be read from the left, so two values have the same bytes only if they are the same, whatever
the order in which a request lists the fields of an object.
-/

namespace LlmGateway

open Relational

/-! ## Characters -/

theorem codePoint_injective : Function.Injective codePoint := by
  intro c c' h
  exact Char.toNat_inj.1 (congrArg (fun x : CodePoint ↦ x.val) h)

theorem isNumeric_of_isDigit {c : Char} (h : c.isDigit = true) :
    isNumeric (codePoint c) = true := by
  have hdigit : 0x30 ≤ c.toNat ∧ c.toNat ≤ 0x39 := by
    simpa [Char.isDigit, UInt32.le_iff_toNat_le] using h
  simp only [isNumeric, codePoint, hdigit, decide_true, Bool.and_self, Bool.true_or]

theorem mem_shortEscapes {c : CodePoint} {escape : Char × Char}
    (h : shortEscapes.find? (fun escape ↦ codePoint escape.1 = c) = some escape) :
    escape ∈ shortEscapes ∧ codePoint escape.1 = c :=
  ⟨List.mem_of_find?_eq_some h, by simpa using List.find?_some h⟩

theorem shortEscapes_injective : ∀ e ∈ shortEscapes, ∀ e' ∈ shortEscapes, e.2 = e'.2 → e = e' := by
  decide

theorem shortEscapes_ne_u : ∀ e ∈ shortEscapes, e.2 ≠ 'u' := by decide

theorem hexDigit_injective : ∀ m < 16, ∀ n < 16, Nat.digitChar m = Nat.digitChar n → m = n := by
  decide

/-- The three ways in which a character is written. -/
theorem escapeChar_cases (c : CodePoint) :
    (∃ escape ∈ shortEscapes, codePoint escape.1 = c ∧
        escapeChar c = [codePoint '\\', codePoint escape.2]) ∨
      (c.val < 0x20 ∧ escapeChar c = [codePoint '\\', codePoint 'u', codePoint '0', codePoint '0',
        codePoint (Nat.digitChar (c.val / 16)), codePoint (Nat.digitChar (c.val % 16))]) ∨
      (c ≠ codePoint '\\' ∧ c ≠ codePoint '"' ∧ escapeChar c = [c]) := by
  cases hfind : shortEscapes.find? (fun escape ↦ codePoint escape.1 = c) with
  | some escape =>
    obtain ⟨hmem, hcode⟩ := mem_shortEscapes hfind
    refine Or.inl ⟨escape, hmem, hcode, ?_⟩
    rw [escapeChar, hfind]
  | none =>
    right
    have hnot : ∀ escape ∈ shortEscapes, codePoint escape.1 ≠ c := by
      simpa using List.find?_eq_none.1 hfind
    by_cases hcontrol : c.val < 0x20
    · refine Or.inl ⟨hcontrol, ?_⟩
      rw [escapeChar, hfind]
      exact if_pos hcontrol
    · refine Or.inr ⟨?_, ?_, ?_⟩
      · exact (hnot ('\\', '\\') (by decide)).symm
      · exact (hnot ('"', '"') (by decide)).symm
      · rw [escapeChar, hfind]
        exact if_neg hcontrol

theorem escapeChar_readable : Readable escapeChar := by
  intro c d rest rest' h
  have hbackslash (e : Char × Char) (he : e ∈ shortEscapes) : codePoint e.2 ≠ codePoint 'u' :=
    fun heq ↦ shortEscapes_ne_u e he (codePoint_injective heq)
  rcases escapeChar_cases c with ⟨e, he, hec, hc⟩ | ⟨hlow, hc⟩ | ⟨hslash, -, hc⟩ <;>
    rcases escapeChar_cases d with ⟨e', he', hed, hd⟩ | ⟨hlow', hd⟩ | ⟨hslash', -, hd⟩ <;>
    rw [hc, hd] at h <;>
    simp only [List.cons_append, List.nil_append, List.cons.injEq, true_and] at h
  · refine ⟨?_, h.2⟩
    rw [← hec, ← hed, shortEscapes_injective e he e' he' (codePoint_injective h.1)]
  · exact absurd h.1 (hbackslash e he)
  · exact absurd h.1.symm hslash'
  · exact absurd h.1.symm (hbackslash e' he')
  · obtain ⟨hhigh, hlast, hrest⟩ := h
    have hdiv := hexDigit_injective _ (by omega) _ (by omega) (codePoint_injective hhigh)
    have hmod := hexDigit_injective _ (by omega) _ (by omega) (codePoint_injective hlast)
    exact ⟨Fin.ext (by omega), hrest⟩
  · exact absurd h.1.symm hslash'
  · exact absurd h.1 hslash
  · exact absurd h.1 hslash
  · exact h

theorem escapeChar_markFree : MarkFree escapeChar (codePoint '"') := by
  intro c
  rcases escapeChar_cases c with ⟨e, -, -, hc⟩ | ⟨-, hc⟩ | ⟨-, hquote, hc⟩
  · exact ⟨_, _, hc, by decide⟩
  · exact ⟨_, _, hc, by decide⟩
  · exact ⟨_, _, hc, hquote⟩

/-- A string is read up to its closing quote. -/
theorem quoteText_readable : Readable quoteText := by
  intro s t rest rest' h
  simp only [quoteText, List.cons_append, List.append_assoc, List.nil_append, List.cons.injEq,
    true_and] at h
  obtain ⟨hcodes, hrest⟩ := escapeChar_readable.flatMap_mark escapeChar_markFree h
  refine ⟨?_, hrest⟩
  cases s
  cases t
  exact congrArg Text.mk hcodes

/-! ## Numbers -/

theorem toDigits_injective : Function.Injective (Nat.toDigits 10) := by
  intro m n h
  calc m = Nat.ofDigitChars 10 (Nat.toDigits 10 m) 0 :=
        (Nat.ofDigitChars_toDigits (by decide) (by decide)).symm
    _ = Nat.ofDigitChars 10 (Nat.toDigits 10 n) 0 := by rw [h]
    _ = n := Nat.ofDigitChars_toDigits (by decide) (by decide)

theorem isDigit_of_mem_toDigits {n : ℕ} {c : CodePoint}
    (h : c ∈ (Nat.toDigits 10 n).map codePoint) :
    ∃ d : Char, d.isDigit = true ∧ codePoint d = c := by
  obtain ⟨d, hd, hc⟩ := List.mem_map.1 h
  exact ⟨d, Nat.isDigit_of_mem_toDigits (by decide) (by decide) hd, hc⟩

theorem codePoint_ne_of_isDigit {c d : Char} (hd : d.isDigit = true) (hc : c.isDigit = false) :
    codePoint d ≠ codePoint c := by
  intro h
  rw [codePoint_injective h, hc] at hd
  cases hd

theorem mem_writeDecimal {n : ℤ} {c : CodePoint} (h : c ∈ writeDecimal n) :
    c = codePoint '-' ∨ ∃ d : Char, d.isDigit = true ∧ codePoint d = c := by
  cases List.mem_append.1 h with
  | inl hsign =>
    split_ifs at hsign
    · exact Or.inl (List.mem_singleton.1 hsign)
    · cases hsign
  | inr hdigits => exact Or.inr (isDigit_of_mem_toDigits hdigits)

theorem writeDecimal_numeric (n : ℤ) : ∀ c ∈ writeDecimal n, isNumeric c = true := by
  intro c hc
  cases mem_writeDecimal hc with
  | inl hminus =>
    rw [hminus]
    decide
  | inr hdigit =>
    obtain ⟨d, hd, rfl⟩ := hdigit
    exact isNumeric_of_isDigit hd

theorem toDigits_ne_cons_minus (m : ℕ) (rest : List CodePoint) :
    (Nat.toDigits 10 m).map codePoint ≠ codePoint '-' :: rest := by
  intro h
  obtain ⟨d, hd, hc⟩ := isDigit_of_mem_toDigits (h ▸ List.mem_cons_self)
  exact codePoint_ne_of_isDigit hd (by decide) hc

theorem writeDecimal_injective : Function.Injective writeDecimal := by
  intro m n h
  have hdigits (i j : ℕ) (hij : (Nat.toDigits 10 i).map codePoint =
      (Nat.toDigits 10 j).map codePoint) : i = j :=
    toDigits_injective (List.map_injective_iff.2 codePoint_injective hij)
  unfold writeDecimal at h
  split_ifs at h with hm hn hn
  · have habs := hdigits _ _ (List.cons.inj h).2
    omega
  · exact absurd h.symm (toDigits_ne_cons_minus _ _)
  · exact absurd h (toDigits_ne_cons_minus _ _)
  · have habs := hdigits _ _ h
    omega

/-- An integer does not look like a float. -/
theorem writeDecimal_ne_repr (floats : PythonFloats) (n : ℤ) (x : floats.Double) :
    writeDecimal n ≠ floats.repr x := by
  intro h
  have hmark (c : Char) (hminus : codePoint c ≠ codePoint '-') (hc : c.isDigit = false)
      (hmem : codePoint c ∈ floats.repr x) : False := by
    rw [← h] at hmem
    cases mem_writeDecimal hmem with
    | inl heq => exact hminus heq
    | inr hdigit =>
      obtain ⟨d, hd, heq⟩ := hdigit
      exact codePoint_ne_of_isDigit hd hc heq
  cases floats.repr_marked x with
  | inl hmem => exact hmark '.' (by decide) (by decide) hmem
  | inr hmem => exact hmark 'e' (by decide) (by decide) hmem

/-! ## Values -/

namespace JsonValue

variable {floats : PythonFloats}

/-- What the first character of a value tells about it. -/
inductive Kind where
  | null
  | bool (value : Bool)
  | number
  | str
  | arr
  | obj
deriving DecidableEq

def kind : JsonValue floats.Double → Kind
  | null => .null
  | bool value => .bool value
  | int _ | float _ => .number
  | str _ => .str
  | arr _ => .arr
  | obj _ => .obj

/-- The kind of the values that begin with a character. -/
def kindOf (c : CodePoint) : Option Kind :=
  if c = codePoint 'n' then some .null
  else if c = codePoint 't' then some (.bool true)
  else if c = codePoint 'f' then some (.bool false)
  else if c = codePoint '"' then some .str
  else if c = codePoint '[' then some .arr
  else if c = codePoint '{' then some .obj
  else if isNumeric c then some .number
  else none

theorem kindOf_numeric {c : CodePoint} (h : isNumeric c = true) : kindOf c = some .number := by
  have hne (d : Char) (hd : isNumeric (codePoint d) = false) : c ≠ codePoint d := by
    intro heq
    rw [heq, hd] at h
    cases h
  unfold kindOf
  rw [if_neg (hne 'n' (by decide)), if_neg (hne 't' (by decide)), if_neg (hne 'f' (by decide)),
    if_neg (hne '"' (by decide)), if_neg (hne '[' (by decide)), if_neg (hne '{' (by decide)),
    if_pos h]

theorem exists_cons_numeric {l : List CodePoint} (hne : l ≠ []) (h : ∀ c ∈ l, isNumeric c = true) :
    ∃ c rest, l = c :: rest ∧ kindOf c = some .number := by
  obtain ⟨c, rest, rfl⟩ := List.exists_cons_of_ne_nil hne
  exact ⟨c, rest, rfl, kindOf_numeric (h c List.mem_cons_self)⟩

theorem writeDecimal_ne_nil (n : ℤ) : writeDecimal n ≠ [] := by
  intro h
  have hdigits := (List.append_eq_nil_iff.1 h).2
  have hzero : Nat.toDigits 10 n.natAbs = [] := List.map_eq_nil_iff.1 hdigits
  exact Nat.toDigits_ne_nil hzero

theorem repr_ne_nil (x : floats.Double) : floats.repr x ≠ [] := by
  intro h
  have hmark := floats.repr_marked x
  rw [h] at hmark
  exact hmark.elim List.not_mem_nil List.not_mem_nil

/-- The first character tells the kind. -/
theorem kindOf_write (v : JsonValue floats.Double) :
    ∃ c rest, v.write floats = c :: rest ∧ kindOf c = some v.kind := by
  cases v with
  | null => exact ⟨codePoint 'n', _, rfl, rfl⟩
  | bool value =>
    cases value with
    | true => exact ⟨codePoint 't', _, rfl, rfl⟩
    | false => exact ⟨codePoint 'f', _, rfl, rfl⟩
  | int value =>
    exact exists_cons_numeric (writeDecimal_ne_nil value) (writeDecimal_numeric value)
  | float value =>
    exact exists_cons_numeric (repr_ne_nil value) (floats.repr_numeric value)
  | str value => exact ⟨codePoint '"', _, rfl, rfl⟩
  | arr items =>
    cases items with
    | nil => exact ⟨codePoint '[', _, rfl, rfl⟩
    | cons x xs => exact ⟨codePoint '[', _, rfl, rfl⟩
  | obj fields =>
    cases fields with
    | nil => exact ⟨codePoint '{', _, rfl, rfl⟩
    | cons field fields => exact ⟨codePoint '{', _, rfl, rfl⟩

/-- Two values that begin one text are of one kind. -/
theorem kind_eq {v w : JsonValue floats.Double} {rest rest' : List CodePoint}
    (h : v.write floats ++ rest = w.write floats ++ rest') : v.kind = w.kind := by
  obtain ⟨c, t, hv, hc⟩ := kindOf_write v
  obtain ⟨d, u, hw, hd⟩ := kindOf_write w
  rw [hv, hw, List.cons_append, List.cons_append] at h
  rw [(List.cons.inj h).1, hd] at hc
  exact (Option.some.inj hc).symm

/-- The value can be read off a text that goes on with no character of a number. -/
def ReadsValue (v : JsonValue floats.Double) : Prop :=
  ∀ w rest rest', EndsRun isNumeric rest → EndsRun isNumeric rest' →
    v.write floats ++ rest = w.write floats ++ rest' → v = w ∧ rest = rest'

def ReadsItems (xs : List (JsonValue floats.Double)) : Prop :=
  ∀ ys rest rest', writeItems floats xs ++ rest = writeItems floats ys ++ rest' →
    xs = ys ∧ rest = rest'

def ReadsFields (fields : List (Text × JsonValue floats.Double)) : Prop :=
  ∀ fields' rest rest', writeFields floats fields ++ rest = writeFields floats fields' ++ rest' →
    fields = fields' ∧ rest = rest'

theorem endsRun_cons {c : CodePoint} (h : isNumeric c = false) (rest : List CodePoint) :
    EndsRun isNumeric (c :: rest) := by
  intro x hx
  rw [List.head?_cons, Option.mem_some_iff] at hx
  rw [← hx, h]

theorem endsRun_writeItems (xs : List (JsonValue floats.Double)) (rest : List CodePoint) :
    EndsRun isNumeric (writeItems floats xs ++ rest) := by
  cases xs with
  | nil => exact endsRun_cons (by decide) _
  | cons x xs => exact endsRun_cons (by decide) _

theorem endsRun_writeFields (fields : List (Text × JsonValue floats.Double))
    (rest : List CodePoint) : EndsRun isNumeric (writeFields floats fields ++ rest) := by
  cases fields with
  | nil => exact endsRun_cons (by decide) _
  | cons field fields => exact endsRun_cons (by decide) _

/-- A value and the items after it. -/
theorem readsItems_cons {x : JsonValue floats.Double} {xs : List (JsonValue floats.Double)}
    (hx : ReadsValue x) (hxs : ReadsItems xs) {y : JsonValue floats.Double}
    {ys : List (JsonValue floats.Double)} {rest rest' : List CodePoint}
    (h : write floats x ++ writeItems floats xs ++ rest =
      write floats y ++ writeItems floats ys ++ rest') : x :: xs = y :: ys ∧ rest = rest' := by
  rw [List.append_assoc, List.append_assoc] at h
  obtain ⟨hhead, htail⟩ := hx y _ _ (endsRun_writeItems xs rest) (endsRun_writeItems ys rest') h
  obtain ⟨hlist, hrest⟩ := hxs ys _ _ htail
  exact ⟨by rw [hhead, hlist], hrest⟩

/-- A field and the fields after it. -/
theorem readsFields_cons {k l : Text} {x : JsonValue floats.Double}
    {xs : List (Text × JsonValue floats.Double)} (hx : ReadsValue x) (hxs : ReadsFields xs)
    {y : JsonValue floats.Double} {ys : List (Text × JsonValue floats.Double)}
    {rest rest' : List CodePoint}
    (h : quoteText k ++ codePoint ':' :: (write floats x ++ writeFields floats xs) ++ rest =
      quoteText l ++ codePoint ':' :: (write floats y ++ writeFields floats ys) ++ rest') :
    (k, x) :: xs = (l, y) :: ys ∧ rest = rest' := by
  simp only [List.append_assoc, List.cons_append] at h
  obtain ⟨hkey, h⟩ := quoteText_readable k l _ _ h
  obtain ⟨hhead, htail⟩ := hx y _ _ (endsRun_writeFields xs rest) (endsRun_writeFields ys rest')
    (List.cons.inj h).2
  obtain ⟨hlist, hrest⟩ := hxs ys _ _ htail
  exact ⟨by rw [hkey, hhead, hlist], hrest⟩

theorem readsItems_nil : ReadsItems ([] : List (JsonValue floats.Double)) := by
  intro ys rest rest' h
  cases ys with
  | nil => exact ⟨rfl, (List.cons.inj h).2⟩
  | cons y ys => exact absurd (List.cons.inj h).1 (by decide)

theorem readsItems_of_cons {x : JsonValue floats.Double} {xs : List (JsonValue floats.Double)}
    (hx : ReadsValue x) (hxs : ReadsItems xs) : ReadsItems (x :: xs) := by
  intro ys rest rest' h
  cases ys with
  | nil => exact absurd (List.cons.inj h).1 (by decide)
  | cons y ys => exact readsItems_cons hx hxs (List.cons.inj h).2

theorem readsFields_nil : ReadsFields ([] : List (Text × JsonValue floats.Double)) := by
  intro ys rest rest' h
  cases ys with
  | nil => exact ⟨rfl, (List.cons.inj h).2⟩
  | cons y ys => exact absurd (List.cons.inj h).1 (by decide)

theorem readsFields_of_cons {field : Text × JsonValue floats.Double}
    {xs : List (Text × JsonValue floats.Double)} (hx : ReadsValue field.2)
    (hxs : ReadsFields xs) : ReadsFields (field :: xs) := by
  intro ys rest rest' h
  cases ys with
  | nil => exact absurd (List.cons.inj h).1 (by decide)
  | cons y ys => exact readsFields_cons hx hxs (List.cons.inj h).2

/-- The texts of two numbers. -/
theorem readsValue_number {v w : JsonValue floats.Double} {l l' rest rest' : List CodePoint}
    (hl : ∀ c ∈ l, isNumeric c = true) (hl' : ∀ c ∈ l', isNumeric c = true)
    (hrest : EndsRun isNumeric rest) (hrest' : EndsRun isNumeric rest')
    (h : l ++ rest = l' ++ rest') (heq : l = l' → v = w) : v = w ∧ rest = rest' := by
  obtain ⟨htext, hrest⟩ := append_inj_of_endsRun hl hl' hrest hrest' h
  exact ⟨heq htext, hrest⟩

theorem readsValue_int (n : ℤ) : ReadsValue (.int n : JsonValue floats.Double) := by
  intro w rest rest' hrest hrest' h
  have hkind := kind_eq h
  cases w with
  | int m =>
    refine readsValue_number (writeDecimal_numeric n) (writeDecimal_numeric m) hrest hrest' h ?_
    exact fun htext ↦ congrArg JsonValue.int (writeDecimal_injective htext)
  | float y =>
    refine readsValue_number (writeDecimal_numeric n) (floats.repr_numeric y) hrest hrest' h ?_
    exact fun htext ↦ absurd htext (writeDecimal_ne_repr floats n y)
  | null | bool | str | arr | obj => cases hkind

theorem readsValue_float (x : floats.Double) : ReadsValue (.float x) := by
  intro w rest rest' hrest hrest' h
  have hkind := kind_eq h
  cases w with
  | int m =>
    refine readsValue_number (floats.repr_numeric x) (writeDecimal_numeric m) hrest hrest' h ?_
    exact fun htext ↦ absurd htext.symm (writeDecimal_ne_repr floats m x)
  | float y =>
    refine readsValue_number (floats.repr_numeric x) (floats.repr_numeric y) hrest hrest' h ?_
    exact fun htext ↦ congrArg JsonValue.float (floats.repr_injective htext)
  | null | bool | str | arr | obj => cases hkind

/-- No value begins as a list ends. -/
theorem write_ne_cons {x : JsonValue floats.Double} {c : CodePoint} (hc : kindOf c = none)
    (rest rest' : List CodePoint) : c :: rest ≠ x.write floats ++ rest' := by
  intro h
  obtain ⟨d, t, hx, hd⟩ := kindOf_write x
  rw [hx, List.cons_append] at h
  rw [(List.cons.inj h).1, hd] at hc
  cases hc

theorem readsValue_arr_nil : ReadsValue (.arr [] : JsonValue floats.Double) := by
  intro w rest rest' _ _ h
  have hkind := kind_eq h
  cases w with
  | arr ys =>
    cases ys with
    | nil => exact ⟨rfl, (List.cons.inj (List.cons.inj h).2).2⟩
    | cons y ys =>
      have htail := (List.cons.inj h).2
      exact absurd (htail.trans (List.append_assoc _ _ _)) (write_ne_cons rfl _ _)
  | null | bool | int | float | str | obj => cases hkind

theorem readsValue_arr_cons {x : JsonValue floats.Double} {xs : List (JsonValue floats.Double)}
    (hx : ReadsValue x) (hxs : ReadsItems xs) : ReadsValue (.arr (x :: xs)) := by
  intro w rest rest' _ _ h
  have hkind := kind_eq h
  cases w with
  | arr ys =>
    cases ys with
    | nil =>
      have htail := (List.cons.inj h).2
      exact absurd (htail.symm.trans (List.append_assoc _ _ _)) (write_ne_cons rfl _ _)
    | cons y ys =>
      obtain ⟨hlist, hrest⟩ := readsItems_cons hx hxs (List.cons.inj h).2
      exact ⟨congrArg JsonValue.arr hlist, hrest⟩
  | null | bool | int | float | str | obj => cases hkind

theorem readsValue_obj_nil : ReadsValue (.obj [] : JsonValue floats.Double) := by
  intro w rest rest' _ _ h
  have hkind := kind_eq h
  cases w with
  | obj ys =>
    cases ys with
    | nil => exact ⟨rfl, (List.cons.inj (List.cons.inj h).2).2⟩
    | cons y ys => exact absurd (List.cons.inj (List.cons.inj h).2).1 (by decide)
  | null | bool | int | float | str | arr => cases hkind

theorem readsValue_obj_cons {field : Text × JsonValue floats.Double}
    {xs : List (Text × JsonValue floats.Double)} (hx : ReadsValue field.2)
    (hxs : ReadsFields xs) : ReadsValue (.obj (field :: xs)) := by
  intro w rest rest' _ _ h
  have hkind := kind_eq h
  cases w with
  | obj ys =>
    cases ys with
    | nil => exact absurd (List.cons.inj (List.cons.inj h).2).1 (by decide)
    | cons y ys =>
      obtain ⟨hlist, hrest⟩ := readsFields_cons hx hxs (List.cons.inj h).2
      exact ⟨congrArg JsonValue.obj hlist, hrest⟩
  | null | bool | int | float | str | arr => cases hkind

theorem readsValue_null : ReadsValue (.null : JsonValue floats.Double) := by
  intro w rest rest' _ _ h
  have hkind := kind_eq h
  cases w with
  | null => exact ⟨rfl, List.append_cancel_left h⟩
  | bool | int | float | str | arr | obj => cases hkind

theorem readsValue_bool (value : Bool) : ReadsValue (.bool value : JsonValue floats.Double) := by
  intro w rest rest' _ _ h
  have hkind := kind_eq h
  cases w with
  | bool value' =>
    obtain rfl : value = value' := Kind.bool.inj hkind
    exact ⟨rfl, List.append_cancel_left h⟩
  | null | int | float | str | arr | obj => cases hkind

theorem readsValue_str (text : Text) : ReadsValue (.str text : JsonValue floats.Double) := by
  intro w rest rest' _ _ h
  have hkind := kind_eq h
  cases w with
  | str text' =>
    obtain ⟨htext, hrest⟩ := quoteText_readable text text' _ _ h
    exact ⟨congrArg JsonValue.str htext, hrest⟩
  | null | bool | int | float | arr | obj => cases hkind

/-- Every value can be read off its text, by induction on the value, its items and its fields. -/
theorem readsValue (v : JsonValue floats.Double) : ReadsValue v :=
  @JsonValue.rec floats.Double ReadsValue (fun xs ↦ ReadsItems xs ∧ ReadsValue (.arr xs))
    (fun fields ↦ ReadsFields fields ∧ ReadsValue (.obj fields)) (fun field ↦ ReadsValue field.2)
    readsValue_null readsValue_bool readsValue_int readsValue_float readsValue_str
    (fun _ h ↦ h.2) (fun _ h ↦ h.2) ⟨readsItems_nil, readsValue_arr_nil⟩
    (fun _ _ hx hxs ↦ ⟨readsItems_of_cons hx hxs.1, readsValue_arr_cons hx hxs.1⟩)
    ⟨readsFields_nil, readsValue_obj_nil⟩
    (fun _ _ hx hxs ↦ ⟨readsFields_of_cons hx hxs.1, readsValue_obj_cons hx hxs.1⟩)
    (fun _ _ h ↦ h) v

theorem write_injective : Function.Injective (write floats) := by
  intro v w h
  refine (readsValue v w [] [] (endsRun_nil _) (endsRun_nil _) ?_).1
  rw [List.append_nil, List.append_nil, h]

end JsonValue

/-! ## Objects -/

/-- Sorted by their keys, two dictionaries are equal exactly if they have the same items. -/
theorem sortItems_eq_iff {α : Type} {items items' : List (Text × α)}
    (hkeys : (items.map Prod.fst).Nodup) :
    sortItems items = sortItems items' ↔ items.Perm items' := by
  let le (item item' : Text × α) : Prop := item.1.codePoints ≤ item'.1.codePoints
  have : Std.Total le := ⟨fun item item' ↦ le_total item.1.codePoints item'.1.codePoints⟩
  have : IsTrans (Text × α) le := ⟨fun _ _ _ ↦ le_trans⟩
  have hperm (l : List (Text × α)) : (sortItems l).Perm l := List.perm_insertionSort _ _
  have hsorted (l : List (Text × α)) : (sortItems l).Pairwise le := List.pairwise_insertionSort _ _
  constructor
  · intro heq
    exact (hperm items).symm.trans ((List.Perm.of_eq heq).trans (hperm items'))
  · intro hitems
    have hsame : (sortItems items).Perm (sortItems items') :=
      (hperm items).trans (hitems.trans (hperm items').symm)
    refine List.Perm.eq_of_pairwise (fun a b ha hb hab hba ↦ ?_) (hsorted items) (hsorted items')
      hsame
    have hcodes : a.1.codePoints = b.1.codePoints := le_antisymm hab hba
    have hkey : a.1 = b.1 := by
      cases ha' : a.1
      cases hb' : b.1
      rw [ha', hb'] at hcodes
      exact congrArg Text.mk hcodes
    have hmem : b ∈ items := (hperm items).mem_iff.1 (hsame.mem_iff.2 hb)
    exact List.inj_on_of_nodup_map hkeys ((hperm items).mem_iff.1 ha) hmem hkey

/-! ## What a canonical form says -/

namespace Json

variable {floats : PythonFloats}

variable (floats) in
/-- The canonical form of the value is that of the values that are the same. -/
def Decides (v : Json) : Prop :=
  v.hasDistinctKeys → ∀ w, v.canonical floats = w.canonical floats ↔ Same floats v w

variable (floats) in
def DecidesItems (xs : List Json) : Prop :=
  itemsHaveDistinctKeys xs → ∀ ys,
    canonicalItems floats xs = canonicalItems floats ys ↔ SameItems floats xs ys

variable (floats) in
def DecidesFields (fields : List (Text × Json)) : Prop :=
  fieldsHaveDistinctKeys fields → ∀ fields',
    canonicalFields floats fields = canonicalFields floats fields' ↔
      SameFields floats fields fields'

theorem decidesItems_nil : DecidesItems floats [] := by
  intro _ ys
  cases ys with
  | nil => exact iff_of_true rfl trivial
  | cons y ys => exact iff_of_false (List.cons_ne_nil _ _).symm id

theorem decidesItems_cons {x : Json} {xs : List Json} (hx : Decides floats x)
    (hxs : DecidesItems floats xs) : DecidesItems floats (x :: xs) := by
  intro hkeys ys
  cases ys with
  | nil => exact iff_of_false (List.cons_ne_nil _ _) id
  | cons y ys =>
    exact List.cons_eq_cons.trans (and_congr (hx hkeys.1 y) (hxs hkeys.2 ys))

theorem decidesFields_nil : DecidesFields floats [] := by
  intro _ fields'
  cases fields' with
  | nil => exact iff_of_true rfl trivial
  | cons field fields' => exact iff_of_false (List.cons_ne_nil _ _).symm id

theorem decidesFields_cons {field : Text × Json} {fields : List (Text × Json)}
    (hfield : Decides floats field.2) (hfields : DecidesFields floats fields) :
    DecidesFields floats (field :: fields) := by
  intro hkeys fields'
  cases fields' with
  | nil => exact iff_of_false (List.cons_ne_nil _ _) id
  | cons field' fields' =>
    have hhead : (field.1, field.2.canonical floats) = (field'.1, field'.2.canonical floats) ↔
        field.1 = field'.1 ∧ Same floats field.2 field'.2 :=
      Prod.mk_inj.trans (and_congr_right' (hfield hkeys.1 field'.2))
    exact (List.cons_eq_cons.trans (and_congr hhead (hfields hkeys.2 fields'))).trans and_assoc

theorem canonicalFields_eq_map (fields : List (Text × Json)) :
    canonicalFields floats fields = fields.map fun field ↦ (field.1, field.2.canonical floats) := by
  induction fields with
  | nil => rfl
  | cons field fields ih => exact congrArg _ ih

theorem nodup_canonicalFields {fields : List (Text × Json)} (h : (fields.map Prod.fst).Nodup) :
    ((canonicalFields floats fields).map Prod.fst).Nodup := by
  rw [canonicalFields_eq_map, List.map_map]
  exact h

/-- Fields in any order are the canonical fields of the same fields in some order. -/
theorem exists_perm_canonicalFields {fields : List (Text × Json)}
    {items : List (Text × JsonValue floats.Double)}
    (h : items.Perm (canonicalFields floats fields)) :
    ∃ permuted, fields.Perm permuted ∧ items = canonicalFields floats permuted := by
  rw [canonicalFields_eq_map] at h
  obtain ⟨permuted, heq, hperm⟩ := (congrFun₂ (List.eq_map_comp_perm _) items fields).mpr h
  exact ⟨permuted, hperm.symm, heq.trans (canonicalFields_eq_map permuted).symm⟩

theorem decides_arr {xs : List Json} (hxs : DecidesItems floats xs) :
    Decides floats (.arr xs) := by
  intro hkeys w
  cases w with
  | arr ys => exact (JsonValue.arr.injEq _ _).to_iff.trans (hxs hkeys ys)
  | null | bool | int | float | str | obj => exact iff_of_false (fun h ↦ nomatch h) id

theorem decides_obj {fields : List (Text × Json)} (hfields : DecidesFields floats fields) :
    Decides floats (.obj fields) := by
  intro hkeys w
  cases w with
  | obj fields' =>
    refine (JsonValue.obj.injEq _ _).to_iff.trans
      ((sortItems_eq_iff (nodup_canonicalFields hkeys.1)).trans ?_)
    constructor
    · intro hperm
      obtain ⟨permuted, hpermuted, heq⟩ := exists_perm_canonicalFields hperm
      exact ⟨permuted, hpermuted, (hfields hkeys.2 permuted).1 heq⟩
    · rintro ⟨permuted, hpermuted, hsame⟩
      rw [(hfields hkeys.2 permuted).2 hsame, canonicalFields_eq_map, canonicalFields_eq_map]
      exact hpermuted.symm.map _
  | null | bool | int | float | str | arr => exact iff_of_false (fun h ↦ nomatch h) id

theorem decides_null : Decides floats .null := by
  intro _ w
  cases w with
  | null => exact iff_of_true rfl trivial
  | bool | int | float | str | arr | obj => exact iff_of_false (fun h ↦ nomatch h) id

theorem decides_bool (value : Bool) : Decides floats (.bool value) := by
  intro _ w
  cases w with
  | bool value' => exact (JsonValue.bool.injEq _ _).to_iff
  | null | int | float | str | arr | obj => exact iff_of_false (fun h ↦ nomatch h) id

theorem decides_int (value : ℤ) : Decides floats (.int value) := by
  intro _ w
  cases w with
  | int value' => exact (JsonValue.int.injEq _ _).to_iff
  | null | bool | float | str | arr | obj => exact iff_of_false (fun h ↦ nomatch h) id

theorem decides_float (mantissa exponent : ℤ) : Decides floats (.float mantissa exponent) := by
  intro _ w
  cases w with
  | float mantissa' exponent' => exact (JsonValue.float.injEq _ _).to_iff
  | null | bool | int | str | arr | obj => exact iff_of_false (fun h ↦ nomatch h) id

theorem decides_str (value : Text) : Decides floats (.str value) := by
  intro _ w
  cases w with
  | str value' => exact (JsonValue.str.injEq _ _).to_iff
  | null | bool | int | float | arr | obj => exact iff_of_false (fun h ↦ nomatch h) id

/-- By induction on the value, its items and its fields. -/
theorem decides (v : Json) : Decides floats v :=
  @Json.rec (Decides floats) (DecidesItems floats) (DecidesFields floats)
    (fun field ↦ Decides floats field.2) decides_null decides_bool decides_int decides_float
    decides_str (fun _ ↦ decides_arr) (fun _ ↦ decides_obj) decidesItems_nil
    (fun _ _ ↦ decidesItems_cons) decidesFields_nil (fun _ _ ↦ decidesFields_cons) (fun _ _ h ↦ h) v

end Json

/-! ## Bytes -/

theorem charOfNat_injective {c d : CodePoint} (hc : c.val < 0xD800 ∨ 0xDFFF < c.val)
    (hd : d.val < 0xD800 ∨ 0xDFFF < d.val) (h : Char.ofNat c.val = Char.ofNat d.val) : c = d := by
  have hvalid (x : CodePoint) (hx : x.val < 0xD800 ∨ 0xDFFF < x.val) :
      (Char.ofNat x.val).toNat = x.val := by
    have hchar : x.val.isValidChar := hx.imp id fun hhigh ↦ ⟨hhigh, x.isLt⟩
    rw [Char.ofNat, dif_pos hchar]
    rfl
  apply Fin.ext
  rw [← hvalid c hc, ← hvalid d hd, h]

theorem map_charOfNat_injective {l l' : List CodePoint} (hl : (Text.mk l).isUtf8 = true)
    (hl' : (Text.mk l').isUtf8 = true)
    (h : l.map (fun c ↦ Char.ofNat c.val) = l'.map (fun c ↦ Char.ofNat c.val)) : l = l' := by
  have hmem {s : List CodePoint} (hs : (Text.mk s).isUtf8 = true) :
      ∀ c ∈ s, c.val < 0xD800 ∨ 0xDFFF < c.val := by
    simpa [Text.isUtf8] using hs
  induction l generalizing l' with
  | nil => exact (List.map_eq_nil_iff.1 h.symm).symm
  | cons c l ih =>
    cases l' with
    | nil => cases h
    | cons d l' =>
      obtain ⟨hc, hl⟩ := List.forall_mem_cons.1 (hmem hl)
      obtain ⟨hd, hl'⟩ := List.forall_mem_cons.1 (hmem hl')
      have hhead := charOfNat_injective hc hd (List.cons.inj h).1
      have htail := ih (by simpa [Text.isUtf8] using hl) (by simpa [Text.isUtf8] using hl')
        (List.cons.inj h).2
      rw [hhead, htail]

theorem encodeUtf8_injective {l l' : List CodePoint} {bytes : ByteArray}
    (h : encodeUtf8 l = some bytes) (h' : encodeUtf8 l' = some bytes) : l = l' := by
  unfold encodeUtf8 at h h'
  split_ifs at h with hl
  split_ifs at h' with hl'
  have hbytes := (Option.some.inj h).trans (Option.some.inj h').symm
  exact map_charOfNat_injective hl hl' (String.ofList_injective (String.toByteArray_inj.1 hbytes))

/-- The bytes of a value tell its canonical form. -/
theorem canonicalJsonBytes_eq_some_iff {floats : PythonFloats} {v w : Json} {bytes : ByteArray}
    (hbytes : canonicalJsonBytes floats v = some bytes) :
    canonicalJsonBytes floats w = some bytes ↔ v.canonical floats = w.canonical floats := by
  constructor
  · intro hw
    unfold canonicalJsonBytes at hbytes hw
    split_ifs at hbytes
    split_ifs at hw
    exact JsonValue.write_injective (encodeUtf8_injective hbytes hw)
  · intro heq
    rw [← hbytes, canonicalJsonBytes, canonicalJsonBytes, heq]

/-- Two values have one canonical form exactly if they are the same up to the order of the fields
of their objects. -/
theorem canonicalJsonBytes_eq_iff (floats : PythonFloats) (v w : Json) (hkeys : v.hasDistinctKeys)
    {bytes : ByteArray} (hbytes : canonicalJsonBytes floats v = some bytes) :
    canonicalJsonBytes floats w = some bytes ↔ Json.Same floats v w :=
  (canonicalJsonBytes_eq_some_iff hbytes).trans (Json.decides v hkeys w)

section Example

/-- How floats without a fractional part are written. -/
def integralRepr (x : ℤ) : List CodePoint := writeDecimal x ++ [codePoint '.', codePoint '0']

theorem integralRepr_injective : Function.Injective integralRepr := by
  intro x y h
  exact writeDecimal_injective (List.append_cancel_right h)

theorem integralRepr_numeric (x : ℤ) : ∀ c ∈ integralRepr x, isNumeric c = true := by
  intro c hc
  cases List.mem_append.1 hc with
  | inl hdecimal => exact writeDecimal_numeric x c hdecimal
  | inr hfraction =>
    rcases List.mem_cons.1 hfraction with rfl | hzero
    · decide
    · obtain rfl := List.mem_singleton.1 hzero
      decide

theorem integralRepr_marked (x : ℤ) :
    codePoint '.' ∈ integralRepr x ∨ codePoint 'e' ∈ integralRepr x :=
  Or.inl (List.mem_append_right _ List.mem_cons_self)

def integralFloats : PythonFloats where
  Double := ℤ
  ofParts mantissa exponent := Int.mul mantissa (Int.pow (Int.ofNat 2) exponent.toNat)
  repr := integralRepr
  repr_injective := integralRepr_injective
  repr_numeric := integralRepr_numeric
  repr_marked := integralRepr_marked

/-- The order of the fields does not matter. -/
theorem canonicalJsonBytes_eq_iff_reordered :
    ∃ bytes, canonicalJsonBytes integralFloats
        (.obj [("b", .float 2 0), ("a", .arr [.bool true])]) = some bytes ∧
      canonicalJsonBytes integralFloats
        (.obj [("a", .arr [.bool true]), ("b", .float 1 1)]) = some bytes := by
  have hsome : (canonicalJsonBytes integralFloats
      (.obj [("b", .float 2 0), ("a", .arr [.bool true])])).isSome = true := by
    decide
  have hkeys : [Text.ofString "b", Text.ofString "a"].Nodup := by decide
  have hdistinct : (Json.obj [("b", .float 2 0), ("a", .arr [.bool true])]).hasDistinctKeys :=
    ⟨hkeys, trivial, ⟨trivial, trivial⟩, trivial⟩
  obtain ⟨bytes, hbytes⟩ := Option.isSome_iff_exists.1 hsome
  refine ⟨bytes, hbytes, (canonicalJsonBytes_eq_iff integralFloats _ _ hdistinct hbytes).2 ?_⟩
  exact ⟨_, List.Perm.swap _ _ _, rfl, rfl, rfl, ⟨rfl, trivial⟩, trivial⟩

end Example

end LlmGateway
