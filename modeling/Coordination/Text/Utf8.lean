/-! # Texts as bytes

A text is read back from its bytes, and bytes that are a text are those of what is read from them. Bytes of ASCII
characters are the texts of those characters.
-/
namespace Coordination.Text.Utf8

theorem fromUTF8?_toUTF8 (text : String) : String.fromUTF8? text.toUTF8 = some text := by
  simp only [String.fromUTF8?, String.toUTF8_eq_toByteArray, dif_pos text.isValidUTF8]
  rfl

theorem toUTF8_of_fromUTF8? {bytes : ByteArray} {text : String} (h : String.fromUTF8? bytes = some text) :
    text.toUTF8 = bytes := by
  unfold String.fromUTF8? at h
  split at h
  · cases h
    rfl
  · cases h

/-! ## ASCII -/

theorem toList_eq_data (bytes : ByteArray) : bytes.toList = bytes.data.toList := by
  have hloop : ∀ i read, ByteArray.toList.loop bytes i read = read.reverse ++ bytes.data.toList.drop i := by
    intro i read
    fun_induction ByteArray.toList.loop bytes i read with
    | case1 i read hlt ih =>
      have hi : i < bytes.data.toList.length := by simpa using hlt
      have hget : bytes.get! i = bytes.data.toList[i] := getElem!_pos bytes.data i hlt
      rw [ih, List.drop_eq_getElem_cons hi, hget]
      simp
    | case2 i read hge =>
      have hi : bytes.data.toList.length ≤ i := by simpa using hge
      simp [List.drop_eq_nil_of_le hi]
  rw [ByteArray.toList, hloop]
  rfl

/-- The character that a byte stands for by its code. -/
def character (b : UInt8) : Char := Char.ofNat b.toNat

theorem toNat_character (b : UInt8) : (character b).toNat = b.toNat := by
  have hlt : b.toNat < 256 := b.toNat_lt
  rw [character, Char.ofNat, dif_pos (.inl (by omega))]
  rfl

/-- An ASCII character is encoded by the one byte that stands for it. -/
theorem utf8EncodeChar_character {b : UInt8} (h : b.toNat < 128) : String.utf8EncodeChar (character b) = [b] := by
  have hcode := toNat_character b
  have hsize : (character b).utf8Size = 1 := by
    rw [Char.utf8Size_eq_one_iff, UInt32.le_iff_toNat_le]
    show (character b).toNat ≤ 127
    omega
  have hbyte : (character b).val.toUInt8 = b := by
    apply UInt8.toNat_inj.1
    rw [UInt32.toNat_toUInt8]
    show (character b).toNat % 256 = b.toNat
    omega
  rw [String.utf8EncodeChar_eq_singleton hsize, hbyte]

theorem utf8Encode_characters {bytes : List UInt8} (h : ∀ b ∈ bytes, b.toNat < 128) :
    (bytes.map character).utf8Encode = bytes.toByteArray := by
  induction bytes with
  | nil => rfl
  | cons b bytes ih =>
    obtain ⟨hb, hbytes⟩ := List.forall_mem_cons.1 h
    rw [List.map_cons, List.utf8Encode_cons, List.utf8Encode_singleton, utf8EncodeChar_character hb, ih hbytes,
      ← List.toByteArray_append, List.singleton_append]

theorem toUTF8_characters {bytes : ByteArray} (h : ∀ b ∈ bytes.toList, b.toNat < 128) :
    (String.ofList (bytes.toList.map character)).toUTF8 = bytes := by
  rw [String.toUTF8_eq_toByteArray, String.toByteArray_ofList, utf8Encode_characters h]
  apply ByteArray.ext
  apply Array.toList_inj.1
  rw [List.toList_data_toByteArray, toList_eq_data]

end Coordination.Text.Utf8
