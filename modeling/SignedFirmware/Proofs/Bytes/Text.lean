import Mathlib.Data.List.Basic
import SignedFirmware.Bytes

/-!
# Bytes that spell a text

A text is found again from its bytes, and bytes that are ASCII characters from the text with these
characters.
-/

namespace SignedFirmware.Bytes

theorem toList_loop (b : ByteArray) (i : Nat) (front : Bytes) :
    ByteArray.toList.loop b i front = front.reverse ++ b.data.toList.drop i := by
  fun_induction ByteArray.toList.loop b i front with
  | case1 i front hi ih =>
    have hi : i < b.data.toList.length := hi
    have hget : b.get! i = b.data.toList[i] := by
      rw [ByteArray.get!, Array.getElem_toList]
      exact getElem!_pos b.data i hi
    rw [ih, hget, List.drop_eq_getElem_cons hi, List.reverse_cons, List.append_assoc,
      List.singleton_append]
  | case2 i front hi =>
    rw [List.drop_eq_nil_of_le (Nat.not_lt.1 hi), List.append_nil]

theorem ofString_eq (s : String) : ofString s = s.toByteArray.data.toList := by
  rw [ofString, ByteArray.toList, toList_loop, List.reverse_nil, List.nil_append, List.drop_zero]
  rfl

theorem toText?_ofString (s : String) : toText? (ofString s) = some s := by
  have hbytes : (⟨(ofString s).toArray⟩ : ByteArray) = s.toByteArray := by
    rw [ofString_eq, Array.toArray_toList]
  rw [toText?, hbytes, String.fromUTF8?, dif_pos s.isValidUTF8]
  rfl

/-! ## ASCII characters -/

/-- The text in which each byte is one character. -/
def ofAscii (b : Bytes) : String := String.ofList (b.map fun x ↦ Char.ofNat x.toNat)

theorem utf8EncodeChar_ofNat {x : UInt8} (h : x < 128) :
    String.utf8EncodeChar (Char.ofNat x.toNat) = [x] := by
  have hx : x.toNat < 128 := h
  have hchar : (Char.ofNat x.toNat).val.toNat = x.toNat := by
    rw [Char.ofNat, dif_pos (Or.inl (by omega))]
    rfl
  rw [String.utf8EncodeChar]
  simp only [hchar]
  rw [if_pos (by omega)]
  simp

theorem ofString_ofAscii {b : Bytes} (h : ∀ x ∈ b, x < 128) : ofString (ofAscii b) = b := by
  have hencode : (b.map fun x ↦ Char.ofNat x.toNat).flatMap String.utf8EncodeChar = b := by
    rw [List.flatMap_map, List.flatMap_congr fun x hx ↦ utf8EncodeChar_ofNat (h x hx)]
    exact List.flatMap_singleton' b
  rw [ofString_eq, ofAscii, String.toByteArray_ofList, List.utf8Encode, hencode,
    List.data_toByteArray]

end SignedFirmware.Bytes
