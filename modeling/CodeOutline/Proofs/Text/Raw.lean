import CodeOutline.Proofs.Text.Decode
import CodeOutline.Proofs.Text.Utf8
import CodeOutline.Text.Raw

/-! # Texts among raw texts

A text is found again in its bytes and is shown as it is. What is shown of bytes that are no text
has the same line ends.
-/

namespace CodeOutline.RawText

/-- The bytes are those of a text. -/
def IsText (r : RawText) : Prop :=
  ∃ s, r = ofText s

variable {r : RawText} {s : String}

@[simp] theorem text?_ofText (s : String) : (ofText s).text? = some s :=
  Utf8.text?_bytes s

@[simp] theorem shown_ofText (s : String) : (ofText s).shown = s := by
  rw [shown, Utf8.replacedText]
  have hd : Utf8.decode (ofText s).bytes = s.toList.map some := Utf8.decode_bytes s
  rw [hd]
  simp [Function.comp_def]

theorem IsText.text?_eq (h : r.IsText) : r.text? = some r.shown := by
  obtain ⟨s, rfl⟩ := h
  rw [text?_ofText, shown_ofText]

theorem IsText.ofText_shown (h : r.IsText) : ofText r.shown = r := by
  obtain ⟨s, rfl⟩ := h
  rw [shown_ofText]

theorem ofText_append (s t : String) : ofText (s ++ t) = ofText s ++ ofText t := by
  apply ext_bytes
  rw [bytes_append]
  simp [ofText]

theorem ascii_mem_bytes {a : Nat} (ha : a < 0x80) (s : String) :
    UInt8.ofNat a ∈ (ofText s).bytes ↔ Char.ofNat a ∈ s.toList := by
  rw [← Utf8.mem_replacedText ha]
  change Char.ofNat a ∈ (ofText s).shown.toList ↔ _
  rw [shown_ofText]

theorem lineFeed_mem_shown (r : RawText) : '\n' ∈ r.shown.toList ↔ 10 ∈ r.bytes :=
  Utf8.lineFeed_mem_replacedText r.bytes

end CodeOutline.RawText
