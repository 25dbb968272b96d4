import Mathlib.Tactic.SplitIfs
import SqlMetrics.Text.Utf8

/-! # The bytes of a text

A text becomes bytes character by character (`toList_toUTF8`), the bytes become the text again
(`decodeUtf8_utf8`), and a byte below `0x80` stands for the character of that number and for no
other (`eq_of_mem_utf8`). -/
set_option autoImplicit false
namespace SqlMetrics

def utf8 (text : List Char) : List UInt8 :=
  text.flatMap String.utf8EncodeChar

@[simp]
theorem utf8_nil : utf8 [] = [] := rfl

@[simp]
theorem utf8_cons (c : Char) (text : List Char) :
    utf8 (c :: text) = String.utf8EncodeChar c ++ utf8 text := rfl

@[simp]
theorem utf8_append (text behind : List Char) : utf8 (text ++ behind) = utf8 text ++ utf8 behind :=
  List.flatMap_append

theorem toList_loop (bytes : ByteArray) (start : Nat) (read : List UInt8) :
    ByteArray.toList.loop bytes start read = read.reverse ++ bytes.data.toList.drop start := by
  fun_induction ByteArray.toList.loop bytes start read with
  | case1 start read inside ih =>
      have there : start < bytes.data.toList.length := inside
      have byte : bytes.get! start = bytes.data.toList[start] := by
        simp [ByteArray.get!, inside]
      rw [ih, List.reverse_cons, List.append_assoc, List.drop_eq_getElem_cons there, byte]
      rfl
  | case2 start read outside =>
      have beyond : bytes.data.toList.length ≤ start := Nat.le_of_not_lt outside
      rw [List.drop_eq_nil_of_le beyond, List.append_nil]

theorem toList_toByteArray (bytes : List UInt8) : bytes.toByteArray.toList = bytes := by
  rw [ByteArray.toList, toList_loop, List.toList_data_toByteArray]
  rfl

theorem toList_toUTF8 (text : List Char) : (String.ofList text).toUTF8.toList = utf8 text := by
  rw [String.toUTF8_eq_toByteArray, String.toByteArray_ofList, List.utf8Encode, toList_toByteArray,
    utf8]

theorem decodeUtf8_toUTF8 (text : String) : decodeUtf8 text.toUTF8 = .ok text := by
  have valid : String.fromUTF8? text.toUTF8 = some text := by
    rw [String.toUTF8_eq_toByteArray, String.fromUTF8?, dif_pos text.isValidUTF8]
    rfl
  rw [decodeUtf8, valid]

theorem decodeUtf8_utf8 (text : List Char) :
    decodeUtf8 (utf8 text).toByteArray = .ok (String.ofList text) := by
  rw [← decodeUtf8_toUTF8, String.toUTF8_eq_toByteArray, String.toByteArray_ofList,
    List.utf8Encode, utf8]

theorem utf8EncodeChar_of_lt {c : Char} (small : c.toNat < 0x80) :
    String.utf8EncodeChar c = [UInt8.ofNat c.toNat] := by
  rw [String.utf8EncodeChar]
  exact if_pos (Nat.le_of_lt_succ small)

theorem le_of_mem_utf8EncodeChar {c : Char} {byte : UInt8} (great : 0x80 ≤ c.toNat)
    (among : byte ∈ String.utf8EncodeChar c) : 0x80 ≤ byte.toNat := by
  have single : ¬c.val.toNat ≤ 0x7f := Nat.not_le_of_lt great
  simp only [String.utf8EncodeChar, if_neg single] at among
  split_ifs at among <;> simp only [List.mem_cons, List.not_mem_nil, or_false] at among <;>
    rcases among with rfl | rfl | rfl | rfl <;> simp only [UInt8.toNat_ofNat'] <;> omega

/-- The first byte of a character of three bytes tells that it is one. -/
theorem length_utf8EncodeChar_of_head {c : Char} {first : UInt8}
    (head : (String.utf8EncodeChar c).head? = some first) (three : first.toNat / 16 = 14) :
    (String.utf8EncodeChar c).length = 3 := by
  unfold String.utf8EncodeChar at head ⊢
  dsimp only at head ⊢
  split_ifs at head ⊢ <;> simp only [List.head?_cons, Option.some.injEq] at head <;>
    subst head <;> simp only [UInt8.toNat_ofNat', List.length_cons, List.length_nil] at three ⊢ <;>
    omega

theorem eq_of_mem_utf8 {text : List Char} {byte : UInt8} (small : byte.toNat < 0x80)
    (among : byte ∈ utf8 text) : Char.ofNat byte.toNat ∈ text := by
  obtain ⟨c, inside, encoded⟩ := List.mem_flatMap.mp among
  by_cases ascii : c.toNat < 0x80
  · rw [utf8EncodeChar_of_lt ascii, List.mem_singleton] at encoded
    have number : byte.toNat = c.toNat := by
      rw [encoded, UInt8.toNat_ofNat']
      omega
    rw [number, Char.ofNat_toNat]
    exact inside
  · have great := le_of_mem_utf8EncodeChar (Nat.le_of_not_lt ascii) encoded
    omega

end SqlMetrics
