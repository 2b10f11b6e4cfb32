import Mathlib.Data.String.Basic
import Mathlib.Tactic.IntervalCases
import ScriptVault.Text.Percent
import ScriptVault.Text.Pieces

/-!
# Percent — texts as bytes, and bytes as escapes

The bytes of a text are those of its characters, one after the other (`bytes_eq`), and they are as many as the text
was counted to have (`utf8ByteSize_ofList`).  They give the text back (`ofBytes?_bytes`) and keep the order of texts:
the lesser text has the lesser bytes (`bytes_lt_iff`).  A text with any of its characters escaped, as long as every
percent sign is, reads back as the text (`decode?_of_encodes`).
-/

namespace ScriptVault.Text

theorem utf8ByteSize_ofList (s : List Char) : (String.ofList s).utf8ByteSize = byteLength s := by
  induction s with
  | nil => rfl
  | cons c s ih =>
    have hcons : String.ofList (c :: s) = String.singleton c ++ String.ofList s := by
      apply String.toList_injective
      simp
    rw [hcons, String.utf8ByteSize_append, String.utf8ByteSize_singleton, ih, byteLength_cons]

theorem byteLength_toList (s : String) : byteLength s.toList = s.utf8ByteSize := by
  rw [← utf8ByteSize_ofList, String.ofList_toList]

namespace Percent

theorem toList_loop (b : ByteArray) (i : Nat) (acc : List UInt8) :
    ByteArray.toList.loop b i acc = acc.reverse ++ b.data.toList.drop i := by
  fun_induction ByteArray.toList.loop b i acc with
  | case1 i acc hlt ih =>
    have hlength : i < b.data.toList.length := by simpa using hlt
    have hget : b.get! i = b.data.toList[i] := by simp [ByteArray.get!, hlt]
    rw [ih, List.drop_eq_getElem_cons hlength, hget]
    simp
  | case2 i acc hlt =>
    rw [List.drop_eq_nil_of_le (by simpa using hlt), List.append_nil]

theorem bytes_eq (s : List Char) : bytes s = s.flatMap String.utf8EncodeChar := by
  have hencode : (String.ofList s).toUTF8 = (s.flatMap String.utf8EncodeChar).toByteArray := rfl
  rw [bytes, hencode, ByteArray.toList, toList_loop]
  simp

@[simp] theorem bytes_nil : bytes [] = [] := by rw [bytes_eq, List.flatMap_nil]

theorem bytes_cons (c : Char) (s : List Char) : bytes (c :: s) = String.utf8EncodeChar c ++ bytes s := by
  rw [bytes_eq, bytes_eq, List.flatMap_cons]

theorem bytes_append (s t : List Char) : bytes (s ++ t) = bytes s ++ bytes t := by
  rw [bytes_eq, bytes_eq, bytes_eq, List.flatMap_append]

/-- The bytes of a text spell it. -/
theorem ofBytes?_bytes (s : List Char) : ofBytes? (bytes s) = some s := by
  have hencode : (⟨(bytes s).toArray⟩ : ByteArray) = s.utf8Encode := by
    rw [bytes_eq, List.utf8Encode]
    apply ByteArray.ext
    rw [List.data_toByteArray]
  rw [ofBytes?, hencode, String.fromUTF8?, dif_pos ByteArray.isValidUTF8_utf8Encode]
  exact congrArg some String.toList_ofList

/-! ### The order of texts -/

/-- The first byte in which two characters differ decides like the characters, and there is one. -/
theorem encodeChar_lt {c d : Char} (h : c < d) (s t : List UInt8) :
    String.utf8EncodeChar c ++ s < String.utf8EncodeChar d ++ t := by
  have hlt : c.val.toNat < d.val.toNat := h
  have hmax : d.val.toNat < 1114112 := by
    have hvalid := d.valid
    rw [UInt32.isValidChar, Nat.isValidChar] at hvalid
    omega
  unfold String.utf8EncodeChar
  simp only
  split_ifs
  all_goals
    simp (disch := omega) only [List.cons_append, List.nil_append, List.cons_lt_cons_iff, UInt8.lt_iff_toNat_lt,
      ← UInt8.toNat_inj, UInt8.toNat_ofNat', Nat.mod_eq_of_lt]
    omega

theorem bytes_lt {s t : List Char} (h : s < t) : bytes s < bytes t := by
  induction h with
  | @nil d t =>
    rw [bytes_nil, bytes_cons]
    obtain ⟨b, bs, hb⟩ := List.exists_cons_of_ne_nil (@String.utf8EncodeChar_ne_nil d)
    rw [hb]
    exact List.nil_lt_cons ..
  | @cons c s t _ ih =>
    rw [bytes_cons, bytes_cons]
    exact List.append_left_lt ih
  | @rel c s d t hcd =>
    rw [bytes_cons, bytes_cons]
    exact encodeChar_lt hcd ..

/-- Texts are ordered by their bytes. -/
theorem bytes_lt_iff {s t : String} : bytes s.toList < bytes t.toList ↔ s < t := by
  constructor
  · intro h
    by_contra hst
    rcases lt_or_eq_of_le (not_lt.1 hst) with hts | rfl
    · exact List.lt_asymm h (bytes_lt (String.lt_iff_toList_lt.1 hts))
    · exact List.lt_irrefl _ h
  · intro h
    exact bytes_lt (String.lt_iff_toList_lt.1 h)

/-! ### Escapes -/

/-- A digit of base sixteen, in either case. -/
def IsDigit (n : Nat) (c : Char) : Prop := n < 16 ∧ (c = Nat.digitChar n ∨ c = (Nat.digitChar n).toUpper)

/-- Every byte of some is written as an escape. -/
inductive Escapes : List UInt8 → List Char → Prop
  | nil : Escapes [] []
  | cons {b : UInt8} {bs : List UInt8} {high low : Char} {e : List Char} :
    IsDigit (b.toNat / 16) high → IsDigit (b.toNat % 16) low → Escapes bs e →
      Escapes (b :: bs) ('%' :: high :: low :: e)

/-- A text is written with some of its characters escaped, and every percent sign is one of them. -/
inductive Encodes : List Char → List Char → Prop
  | nil : Encodes [] []
  | kept {c : Char} {s w : List Char} : c ≠ '%' → Encodes s w → Encodes (c :: s) (c :: w)
  | escaped {c : Char} {s e w : List Char} : Escapes (bytes [c]) e → Encodes s w → Encodes (c :: s) (e ++ w)

theorem IsDigit.byte {n : Nat} {c : Char} (h : IsDigit n c) :
    ∃ b, String.utf8EncodeChar c = [b] ∧ hexByte? b = some n := by
  obtain ⟨hn, hc⟩ := h
  interval_cases n <;> rcases hc with rfl | rfl <;> exact ⟨_, rfl, rfl⟩

theorem decodeBytes_kept {b : UInt8} (hb : b ≠ 0x25) (rest : List UInt8) :
    decodeBytes (b :: rest) = b :: decodeBytes rest := by
  rw [decodeBytes]
  intro _ _ _ h
  exact absurd h hb

/-- The percent sign is the only character with its byte. -/
theorem ne_of_mem_encodeChar {c : Char} (hc : c ≠ '%') {b : UInt8} (hb : b ∈ String.utf8EncodeChar c) :
    b ≠ 0x25 := by
  have hval : c.val.toNat ≠ 0x25 := by
    intro h
    exact hc (Char.ext (UInt32.toNat_inj.1 h))
  rintro rfl
  unfold String.utf8EncodeChar at hb
  simp only at hb
  split_ifs at hb
  all_goals
    simp only [List.mem_cons, List.not_mem_nil, or_false, ← UInt8.toNat_inj, UInt8.toNat_ofNat',
      UInt8.toNat_ofNat] at hb
    omega

theorem decodeBytes_char {c : Char} (hc : c ≠ '%') (rest : List UInt8) :
    decodeBytes (String.utf8EncodeChar c ++ rest) = String.utf8EncodeChar c ++ decodeBytes rest := by
  have hplain : ∀ b ∈ String.utf8EncodeChar c, b ≠ 0x25 := fun b hb => ne_of_mem_encodeChar hc hb
  generalize String.utf8EncodeChar c = bs at hplain
  induction bs with
  | nil => rfl
  | cons b bs ih =>
    rw [List.cons_append, decodeBytes_kept (hplain b (by simp)), ih fun x hx => hplain x (by simp [hx])]
    rfl

theorem decodeBytes_escapes {bs : List UInt8} {e : List Char} (h : Escapes bs e) (rest : List UInt8) :
    decodeBytes (bytes e ++ rest) = bs ++ decodeBytes rest := by
  induction h with
  | nil => rw [bytes_nil, List.nil_append, List.nil_append]
  | @cons b bs high low e hhigh hlow _ ih =>
    obtain ⟨x, hx, hhex⟩ := hhigh.byte
    obtain ⟨y, hy, hlex⟩ := hlow.byte
    have hsign : String.utf8EncodeChar '%' = [0x25] := rfl
    have hbyte : UInt8.ofNat (16 * (b.toNat / 16) + b.toNat % 16) = b := by
      rw [Nat.div_add_mod, UInt8.ofNat_toNat]
    rw [bytes_cons, bytes_cons, bytes_cons, hsign, hx, hy]
    simp only [List.cons_append, List.nil_append]
    rw [decodeBytes, hhex, hlex]
    simp only [hbyte, ih]

theorem decodeBytes_encodes {s w : List Char} (h : Encodes s w) : decodeBytes (bytes w) = bytes s := by
  induction h with
  | nil => simp [decodeBytes]
  | kept hc _ ih => rw [bytes_cons, bytes_cons, decodeBytes_char hc, ih]
  | @escaped c s e w he _ ih => rw [bytes_append, decodeBytes_escapes he, ih, ← bytes_append, List.singleton_append]

theorem decode?_of_encodes {s w : List Char} (h : Encodes s w) : decode? w = some s := by
  rw [decode?, decodeBytes_encodes h, ofBytes?_bytes]

theorem encodes_self {s : List Char} (h : '%' ∉ s) : Encodes s s := by
  induction s with
  | nil => exact .nil
  | cons c s ih =>
    simp only [List.mem_cons, not_or] at h
    exact .kept (Ne.symm h.1) (ih h.2)

/-- Escaping a set of characters with the percent sign in it is one way to write a text. -/
theorem encodes_encode {set : Char → Bool} (hset : set '%' = true) (s : List Char) : Encodes s (encode set s) := by
  have hdigit : ∀ n, n < 16 → IsDigit n (upperHex n) := by
    intro n hn
    refine ⟨hn, Or.inr ?_⟩
    interval_cases n <;> rfl
  have hescape : ∀ bs : List UInt8, Escapes bs (bs.flatMap escape) := by
    intro bs
    induction bs with
    | nil => exact .nil
    | cons b bs ih =>
      have hb := b.toNat_lt
      exact .cons (hdigit _ (by omega)) (hdigit _ (by omega)) ih
  induction s with
  | nil => exact .nil
  | cons c s ih =>
    rw [encode, List.flatMap_cons, ← encode]
    split
    · exact .escaped (hescape _) ih
    · next hc =>
      refine .kept ?_ ih
      rintro rfl
      simp [hset] at hc

end Percent

end ScriptVault.Text
