import LlmGateway.Guarantees.CanonicalJson
import LlmGateway.Monitor.Token

/-!
# Cursors come back as they went

The text of a cursor can stand in a URL as it is, and is read back as the cursor.
-/

namespace LlmGateway

theorem urlsafeAlphabet_eq : urlsafeAlphabet =
      ['A', 'B', 'C', 'D', 'E', 'F', 'G', 'H', 'I', 'J', 'K', 'L', 'M', 'N', 'O', 'P', 'Q', 'R',
      'S', 'T', 'U', 'V', 'W', 'X', 'Y', 'Z', 'a', 'b', 'c', 'd', 'e', 'f', 'g', 'h', 'i', 'j', 'k',
      'l', 'm', 'n', 'o', 'p', 'q', 'r', 's', 't', 'u', 'v', 'w', 'x', 'y', 'z', '0', '1', '2', '3',
      '4', '5', '6', '7', '8', '9', '-', '_'] :=
  String.toList_ofList

theorem length_urlsafeAlphabet : urlsafeAlphabet.length = 64 := by
  rw [urlsafeAlphabet_eq]
  rfl

theorem nodup_urlsafeAlphabet : urlsafeAlphabet.Nodup := by
  apply List.Nodup.of_map Char.toNat
  rw [urlsafeAlphabet_eq]
  decide

theorem urlsafeAlphabet_marks : ∀ c ∈ ['=', '+', '/'], c ∉ urlsafeAlphabet := by
  rw [urlsafeAlphabet_eq]
  simp

theorem val_lt_length (digit : Base64.Digit) : digit.val < urlsafeAlphabet.length := by
  rw [length_urlsafeAlphabet]
  exact digit.isLt

theorem writeDigit_eq (digit : Base64.Digit) :
    writeDigit digit = codePoint (urlsafeAlphabet.get ⟨digit.val, val_lt_length digit⟩) := by
  rw [writeDigit, List.getElem?_eq_getElem (val_lt_length digit), Option.getD_some,
    List.get_eq_getElem]

theorem writeDigit_injective : Function.Injective writeDigit := by
  intro a b h
  rw [writeDigit_eq, writeDigit_eq] at h
  exact Fin.ext (nodup_urlsafeAlphabet.getElem_inj_iff.1 (codePoint_injective h))

theorem writeDigit_mem (digit : Base64.Digit) :
    writeDigit digit ∈ urlsafeAlphabet.map codePoint := by
  rw [writeDigit_eq]
  exact List.mem_map_of_mem (List.getElem_mem _)

/-- A digit is none of the other characters. -/
theorem writeDigit_ne {c : Char} (hc : c ∈ ['=', '+', '/']) (digit : Base64.Digit) :
    writeDigit digit ≠ codePoint c := by
  intro h
  obtain ⟨d, hd, hcode⟩ := List.mem_map.1 (h ▸ writeDigit_mem digit)
  exact urlsafeAlphabet_marks c hc (codePoint_injective hcode ▸ hd)

theorem readDigit_writeDigit (digit : Base64.Digit) :
    readDigit (writeDigit digit) = some digit := by
  have hfind : (List.finRange 64).find? (fun d ↦ writeDigit d = writeDigit digit) = some digit := by
    cases hsearch : (List.finRange 64).find? (fun d ↦ writeDigit d = writeDigit digit) with
    | none =>
      have hnot := List.find?_eq_none.1 hsearch digit (List.mem_finRange digit)
      exact absurd (decide_eq_true rfl) hnot
    | some d =>
      have hcode : writeDigit d = writeDigit digit := by simpa using List.find?_some hsearch
      rw [writeDigit_injective hcode]
  rw [readDigit, if_neg (writeDigit_ne (by decide) digit), if_neg (writeDigit_ne (by decide) digit),
    hfind]

/-- The text of a cursor is made of URL-safe characters and decodes to the cursor. -/
theorem decodeMonitorCursor_encode {isoformat : ℕ → Text} {fromisoformat : Text → Option ℕ}
    {loads : List Base64.Byte → Option Json} (cursor : MonitorCursor Text)
    (hiso : fromisoformat (isoformat (ofLex cursor).1) = some (ofLex cursor).1)
    (hloads : loads (asciiBytes (cursorPayload (isoformat (ofLex cursor).1) (ofLex cursor).2)) =
      some (.obj [("at", .str (isoformat (ofLex cursor).1)), ("id", .str (ofLex cursor).2)]))
    (hid : (ofLex cursor).2 ≠ "") :
    decodeMonitorCursor fromisoformat loads (encodeMonitorCursor isoformat cursor) = some cursor ∧
      ∀ c ∈ encodeMonitorCursor isoformat cursor, c ∈ urlsafeAlphabet.map codePoint := by
  constructor
  · have hdecode := Base64.decode_encode readDigit_writeDigit
      (writeDigit_ne List.mem_cons_self)
      (asciiBytes (cursorPayload (isoformat (ofLex cursor).1) (ofLex cursor).2))
    have hat : Json.get? [("at", .str (isoformat (ofLex cursor).1)), ("id", .str (ofLex cursor).2)]
        "at" = some (.str (isoformat (ofLex cursor).1)) := rfl
    have hrecord : Json.get? [("at", .str (isoformat (ofLex cursor).1)),
        ("id", .str (ofLex cursor).2)] "id" = some (.str (ofLex cursor).2) := rfl
    unfold decodeMonitorCursor encodeMonitorCursor
    rw [hdecode]
    simp only [Option.bind_eq_bind, Option.bind_some, hloads, hat, hrecord, hiso, if_neg hid]
    rfl
  · intro c hc
    obtain ⟨digit, -, rfl⟩ := List.mem_map.1 hc
    exact writeDigit_mem digit

section Example

def epochText : Text := "1970-01-01T00:00:00+00:00"

/-- The first event of the epoch. -/
def epochCursor : MonitorCursor Text := toLex (0, Text.ofString "event:1")

theorem decodeMonitorCursor_encode_epoch :
    decodeMonitorCursor (fun text ↦ if text = epochText then some 0 else none)
        (fun _ ↦ some (.obj [("at", .str epochText), ("id", .str "event:1")]))
        (encodeMonitorCursor (fun _ ↦ epochText) epochCursor) = some epochCursor :=
  (decodeMonitorCursor_encode epochCursor (if_pos rfl) rfl (by decide)).1

end Example

end LlmGateway
