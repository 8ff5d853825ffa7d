import LlmGateway.Guarantees.CanonicalJson

/-!
# Which values have canonical bytes

An escape in a request may leave an unpaired surrogate in a text. It is not escaped again, so the
canonical form of a value has no bytes exactly if a text or a key in it has none.
-/

namespace LlmGateway

/-- Every code point can be encoded. -/
def Utf8 (codePoints : List CodePoint) : Prop := (Text.mk codePoints).isUtf8 = true

theorem utf8_append {l m : List CodePoint} : Utf8 (l ++ m) ↔ Utf8 l ∧ Utf8 m := by
  simp only [Utf8, Text.isUtf8, List.all_append, Bool.and_eq_true]

theorem utf8_codePoint (c : Char) : Utf8 [codePoint c] := by
  simpa [Utf8, Text.isUtf8, codePoint] using c.valid.imp id And.left

theorem utf8_map_codePoint (chars : List Char) : Utf8 (chars.map codePoint) := by
  induction chars with
  | nil => rfl
  | cons c chars ih => exact utf8_append.2 ⟨utf8_codePoint c, ih⟩

theorem utf8_codePoint_cons {c : Char} {l : List CodePoint} : Utf8 (codePoint c :: l) ↔ Utf8 l := by
  rw [← List.singleton_append, utf8_append]
  exact and_iff_right (utf8_codePoint c)

/-- Surrogates are not escaped, and what is escaped is no surrogate. -/
theorem utf8_escapeChar (c : CodePoint) : Utf8 (escapeChar c) ↔ Utf8 [c] := by
  rcases escapeChar_cases c with ⟨escape, -, rfl, hescape⟩ | ⟨hlow, hescape⟩ | ⟨-, -, hescape⟩
  · rw [hescape, utf8_codePoint_cons]
    exact iff_of_true (utf8_codePoint _) (utf8_codePoint _)
  · have hc : Utf8 [c] := by
      simp only [Utf8, Text.isUtf8, List.all_cons, List.all_nil, Bool.and_true, decide_eq_true_eq]
      exact Or.inl (hlow.trans (by decide))
    have hcodes : Utf8 (escapeChar c) := by
      rw [hescape]
      exact utf8_map_codePoint ['\\', 'u', '0', '0', _, _]
    exact iff_of_true hcodes hc
  · rw [hescape]

theorem utf8_flatMap_escapeChar (l : List CodePoint) : Utf8 (l.flatMap escapeChar) ↔ Utf8 l := by
  induction l with
  | nil => rfl
  | cons c l ih =>
    rw [List.flatMap_cons, utf8_append, utf8_escapeChar, ih, ← utf8_append]
    rfl

theorem utf8_quoteText (text : Text) : Utf8 (quoteText text) ↔ text.isUtf8 = true := by
  rw [quoteText, utf8_codePoint_cons, utf8_append, utf8_flatMap_escapeChar]
  exact and_iff_left (utf8_codePoint _)

theorem utf8_of_numeric {l : List CodePoint} (h : ∀ c ∈ l, isNumeric c = true) : Utf8 l := by
  simp only [Utf8, Text.isUtf8, List.all_eq_true, decide_eq_true_eq]
  intro c hc
  have hnumeric := h c hc
  simp only [isNumeric, Bool.or_eq_true, Bool.and_eq_true, decide_eq_true_eq] at hnumeric
  omega

namespace JsonValue

variable {floats : PythonFloats}

theorem utf8_writeItems (xs : List (JsonValue floats.Double)) :
    Utf8 (writeItems floats xs) ↔ ∀ x ∈ xs, Utf8 (write floats x) := by
  induction xs with
  | nil => exact iff_of_true (utf8_codePoint _) (List.forall_mem_nil _)
  | cons x xs ih =>
    change Utf8 (codePoint ',' :: (write floats x ++ writeItems floats xs)) ↔ _
    rw [utf8_codePoint_cons, utf8_append, ih, List.forall_mem_cons]

theorem utf8_writeFields (fields : List (Text × JsonValue floats.Double)) :
    Utf8 (writeFields floats fields) ↔
      ∀ field ∈ fields, field.1.isUtf8 = true ∧ Utf8 (write floats field.2) := by
  induction fields with
  | nil => exact iff_of_true (utf8_codePoint _) (List.forall_mem_nil _)
  | cons field fields ih =>
    change Utf8 (codePoint ',' :: (quoteText field.1 ++
      codePoint ':' :: (write floats field.2 ++ writeFields floats fields))) ↔ _
    rw [utf8_codePoint_cons, utf8_append, utf8_codePoint_cons, utf8_append, utf8_quoteText, ih,
      List.forall_mem_cons, and_assoc]

theorem utf8_arr (xs : List (JsonValue floats.Double)) :
    Utf8 (write floats (.arr xs)) ↔ ∀ x ∈ xs, Utf8 (write floats x) := by
  cases xs with
  | nil => exact iff_of_true (utf8_map_codePoint ['[', ']']) (List.forall_mem_nil _)
  | cons x xs =>
    change Utf8 (codePoint '[' :: (write floats x ++ writeItems floats xs)) ↔ _
    rw [utf8_codePoint_cons, utf8_append, utf8_writeItems, List.forall_mem_cons]

theorem utf8_obj (fields : List (Text × JsonValue floats.Double)) :
    Utf8 (write floats (.obj fields)) ↔
      ∀ field ∈ fields, field.1.isUtf8 = true ∧ Utf8 (write floats field.2) := by
  cases fields with
  | nil => exact iff_of_true (utf8_map_codePoint ['\x7b', '\x7d']) (List.forall_mem_nil _)
  | cons field fields =>
    change Utf8 (codePoint '\x7b' :: (quoteText field.1 ++
      codePoint ':' :: (write floats field.2 ++ writeFields floats fields))) ↔ _
    rw [utf8_codePoint_cons, utf8_append, utf8_codePoint_cons, utf8_append, utf8_quoteText,
      utf8_writeFields, List.forall_mem_cons, and_assoc]

end JsonValue

namespace Json

variable {floats : PythonFloats}

variable (floats) in
/-- The value can be encoded exactly if its texts can. -/
def TextsDecide (v : Json) : Prop :=
  Utf8 ((v.canonical floats).write floats) ↔ ∀ text ∈ v.texts, text.isUtf8 = true

variable (floats) in
def ItemsDecide (xs : List Json) : Prop :=
  (∀ x ∈ canonicalItems floats xs, Utf8 (x.write floats)) ↔
    ∀ text ∈ textsOfList xs, text.isUtf8 = true

variable (floats) in
def FieldsDecide (fields : List (Text × Json)) : Prop :=
  (∀ field ∈ canonicalFields floats fields, field.1.isUtf8 = true ∧ Utf8 (field.2.write floats)) ↔
    ∀ text ∈ textsOfFields fields, text.isUtf8 = true

theorem itemsDecide_cons {x : Json} {xs : List Json} (hx : TextsDecide floats x)
    (hxs : ItemsDecide floats xs) : ItemsDecide floats (x :: xs) := by
  unfold TextsDecide at hx
  unfold ItemsDecide at hxs
  change (∀ y ∈ x.canonical floats :: canonicalItems floats xs, Utf8 (y.write floats)) ↔
    ∀ text ∈ x.texts ++ textsOfList xs, text.isUtf8 = true
  rw [List.forall_mem_cons, List.forall_mem_append, hxs, hx]

theorem fieldsDecide_cons {field : Text × Json} {fields : List (Text × Json)}
    (hfield : TextsDecide floats field.2) (hfields : FieldsDecide floats fields) :
    FieldsDecide floats (field :: fields) := by
  unfold TextsDecide at hfield
  unfold FieldsDecide at hfields
  change (∀ item ∈ (field.1, field.2.canonical floats) :: canonicalFields floats fields,
      item.1.isUtf8 = true ∧ Utf8 (item.2.write floats)) ↔
    ∀ text ∈ field.1 :: (field.2.texts ++ textsOfFields fields), text.isUtf8 = true
  rw [List.forall_mem_cons, List.forall_mem_cons, List.forall_mem_append, hfields, hfield,
    and_assoc]

theorem textsDecide_obj {fields : List (Text × Json)} (hfields : FieldsDecide floats fields) :
    TextsDecide floats (.obj fields) := by
  have hmem (field : Text × JsonValue floats.Double) :
      field ∈ sortItems (canonicalFields floats fields) ↔ field ∈ canonicalFields floats fields :=
    (List.perm_insertionSort _ _).mem_iff
  unfold FieldsDecide at hfields
  refine Iff.trans (JsonValue.utf8_obj (sortItems (canonicalFields floats fields))) ?_
  exact (forall_congr' fun field ↦ imp_congr_left (hmem field)).trans hfields

theorem textsDecide_str (text : Text) : TextsDecide floats (.str text) := by
  have htext : (∀ t ∈ [text], t.isUtf8 = true) ↔ text.isUtf8 = true := List.forall_mem_singleton
  exact (utf8_quoteText text).trans htext.symm

/-- A value without texts. -/
theorem textsDecide_of_utf8 {v : Json} (htexts : v.texts = [])
    (h : Utf8 ((v.canonical floats).write floats)) : TextsDecide floats v := by
  rw [TextsDecide, htexts]
  exact iff_of_true h (List.forall_mem_nil _)

theorem textsDecide_bool (value : Bool) : TextsDecide floats (.bool value) := by
  refine textsDecide_of_utf8 rfl ?_
  cases value with
  | true => exact utf8_map_codePoint _
  | false => exact utf8_map_codePoint _

theorem textsDecide (v : Json) : TextsDecide floats v :=
  @Json.rec (TextsDecide floats) (ItemsDecide floats) (FieldsDecide floats)
    (fun field ↦ TextsDecide floats field.2)
    (textsDecide_of_utf8 rfl (utf8_map_codePoint ['n', 'u', 'l', 'l'])) textsDecide_bool
    (fun value ↦ textsDecide_of_utf8 rfl (utf8_of_numeric (writeDecimal_numeric value)))
    (fun _ _ ↦ textsDecide_of_utf8 rfl (utf8_of_numeric (floats.repr_numeric _)))
    textsDecide_str (fun _ hitems ↦ (JsonValue.utf8_arr _).trans hitems) (fun _ ↦ textsDecide_obj)
    (iff_of_true (List.forall_mem_nil _) (List.forall_mem_nil _)) (fun _ _ ↦ itemsDecide_cons)
    (iff_of_true (List.forall_mem_nil _) (List.forall_mem_nil _)) (fun _ _ ↦ fieldsDecide_cons)
    (fun _ _ h ↦ h) v

end Json

/-- A value has canonical bytes exactly if its integers are short and its texts can be encoded. -/
theorem canonicalJsonBytes_isSome_iff (floats : PythonFloats) (v : Json) :
    (canonicalJsonBytes floats v).isSome = true ↔
      (v.canonical floats).isWritable = true ∧ ∀ text ∈ v.texts, text.isUtf8 = true := by
  have htexts : (Text.mk ((v.canonical floats).write floats)).isUtf8 = true ↔
      ∀ text ∈ v.texts, text.isUtf8 = true := Json.textsDecide v
  rw [← htexts]
  unfold canonicalJsonBytes encodeUtf8
  split_ifs with hwritable hutf8
  · exact iff_of_true rfl ⟨hwritable, hutf8⟩
  · exact iff_of_false Bool.false_ne_true fun h ↦ hutf8 h.2
  · exact iff_of_false Bool.false_ne_true fun h ↦ hwritable h.1

end LlmGateway
