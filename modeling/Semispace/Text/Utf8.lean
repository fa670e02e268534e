/-!
# Bytes as text

Input arrives as bytes. It is text when the bytes are well-formed UTF-8, and the text is then the
only one with these bytes.
-/

namespace Semispace.Text

/-- The characters whose UTF-8 form the bytes are, if they are well formed. -/
def decodeUtf8 (bytes : List UInt8) : Option (List Char) :=
  (String.fromUTF8? ⟨bytes.toArray⟩).map String.toList

/-- The UTF-8 form of a text. -/
def encodeUtf8 (s : String) : List UInt8 :=
  s.toUTF8.toList

theorem toList_eq_data (b : ByteArray) : b.toList = b.data.toList := by
  have h : ∀ n i acc, i + n = b.size → ByteArray.toList.loop b i acc = acc.reverse ++ b.data.toList.drop i := by
    intro n
    induction n with
    | zero =>
      intro i acc hi
      have hlen : b.data.toList.length = b.size := Array.length_toList
      rw [ByteArray.toList.loop, if_neg (by omega), List.drop_eq_nil_of_le (by omega), List.append_nil]
    | succ n ih =>
      intro i acc hi
      have hlt : i < b.data.toList.length := by
        rw [Array.length_toList]
        change i < b.size
        omega
      have hget : b.get! i = b.data.toList[i] := by
        simp only [ByteArray.get!, Array.getElem_toList]
        exact getElem!_pos b.data i (by simpa using hlt)
      rw [ByteArray.toList.loop, if_pos (by omega), ih (i + 1) _ (by omega), List.drop_eq_getElem_cons hlt, hget]
      simp
  rw [ByteArray.toList, h b.size 0 [] (Nat.zero_add _)]
  rfl

theorem encodeUtf8_eq (s : String) : encodeUtf8 s = s.toList.flatMap String.utf8EncodeChar := by
  rw [encodeUtf8, toList_eq_data, String.toUTF8_eq_toByteArray, ← String.utf8Encode_toList, List.utf8Encode,
    List.toList_data_toByteArray]

theorem encodeUtf8_append (s t : String) : encodeUtf8 (s ++ t) = encodeUtf8 s ++ encodeUtf8 t := by
  simp [encodeUtf8_eq]

/-- Bytes are decoded to the text whose form they are. -/
theorem decodeUtf8_eq_some_iff {bytes : List UInt8} {cs : List Char} :
    decodeUtf8 bytes = some cs ↔ encodeUtf8 (String.ofList cs) = bytes := by
  have hform (s : String) : encodeUtf8 s = bytes ↔ s.toByteArray = ⟨bytes.toArray⟩ := by
    rw [encodeUtf8, toList_eq_data, String.toUTF8_eq_toByteArray]
    constructor
    · rintro rfl
      rfl
    · intro h
      rw [h]
  unfold decodeUtf8 String.fromUTF8?
  split
  · next hv =>
    rw [Option.map_some, Option.some.injEq, hform]
    constructor
    · intro h
      rw [← h, String.ofList_toList]
      rfl
    · intro h
      have he : String.fromUTF8 ⟨bytes.toArray⟩ hv = String.ofList cs := by
        rw [← String.toByteArray_inj, h]
        rfl
      rw [he, String.toList_ofList]
  · next hv =>
    refine iff_of_false (by simp) fun h => hv ?_
    rw [← (hform _).mp h]
    exact (String.ofList cs).isValidUTF8

end Semispace.Text
