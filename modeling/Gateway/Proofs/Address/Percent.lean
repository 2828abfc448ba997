import Gateway.Address.Percent
import Gateway.Bytes.Hex
import Mathlib.Data.List.Basic

/-!
# Reading percent encoding

A percent-encoded text holds none of the characters that separate the parts of a URL
(`notMem_encode`), and reads back as the text that was encoded (`decode?_encode`). So no two
texts are encoded alike.
-/

namespace Gateway.Percent

/-- The characters between the parts of a URL. -/
def separators : List Char := [':', '@', '/', ',', '?', '#', '&', '=']

/-- The bytes that a text stands for, if each percent sign has its two digits. -/
def decodeBytes? : List Char → Option (List UInt8)
  | [] => some []
  | '%' :: a :: b :: cs => do
    let high ← Hex.value? a
    let low ← Hex.value? b
    let bytes ← decodeBytes? cs
    pure (UInt8.ofNat (16 * high + low) :: bytes)
  | c :: cs => if c = '%' then none else (decodeBytes? cs).map (String.utf8EncodeChar c ++ ·)

/-- The text that a percent-encoded text stands for. -/
def decode? (cs : List Char) : Option String :=
  (decodeBytes? cs).bind fun bytes => String.fromUTF8? bytes.toByteArray

/-! ## One byte -/

theorem value?_digit : ∀ n < 16, Hex.value? (digit n) = some n := by decide

theorem isUnreserved_lt {b : UInt8} (h : isUnreserved b) : b.toNat < 127 ∧ b.toNat ≠ 37 := by
  simp [isUnreserved, UInt8.le_iff_toNat_le, ← UInt8.toNat_inj] at h
  omega

theorem toNat_ofNat (b : UInt8) : (Char.ofNat b.toNat).toNat = b.toNat := by
  have hb : b.toNat < 256 := b.toNat_lt
  have hvalid : b.toNat.isValidChar := .inl (by omega)
  rw [Char.ofNat, dif_pos hvalid]
  rfl

theorem separators_reserved : ∀ c ∈ separators, ¬ isUnreserved (UInt8.ofNat c.toNat) := by
  simp [separators, isUnreserved]

theorem digit_notMem : ∀ n < 16, digit n ∉ separators := by decide

theorem notMem_ofByte {c : Char} (hc : c ∈ separators) (b : UInt8) : c ∉ ofByte b := by
  unfold ofByte
  split
  · rename_i hplain
    intro h
    have hbyte : UInt8.ofNat c.toNat = b := by
      rw [List.mem_singleton.mp h, toNat_ofNat, UInt8.ofNat_toNat]
    exact separators_reserved c hc (hbyte ▸ hplain)
  · have hb : b.toNat < 256 := b.toNat_lt
    intro h
    simp only [List.mem_cons, List.not_mem_nil, or_false] at h
    rcases h with rfl | rfl | rfl
    · exact absurd hc (by decide)
    · exact digit_notMem _ (by omega) hc
    · exact digit_notMem _ (by omega) hc

theorem utf8EncodeChar_ofNat {b : UInt8} (h : isUnreserved b) :
    Char.ofNat b.toNat ≠ '%' ∧ String.utf8EncodeChar (Char.ofNat b.toNat) = [b] := by
  obtain ⟨hlt, hne⟩ := isUnreserved_lt h
  have hchar := toNat_ofNat b
  constructor
  · intro heq
    rw [heq] at hchar
    exact hne hchar.symm
  · have hsize : (Char.ofNat b.toNat).utf8Size = 1 := by
      rw [Char.utf8Size_eq_one_iff, UInt32.le_iff_toNat_le]
      show (Char.ofNat b.toNat).toNat ≤ 127
      omega
    rw [String.utf8EncodeChar_eq_singleton hsize]
    congr 1
    apply UInt8.toNat_inj.mp
    show (Char.ofNat b.toNat).toNat % 256 = b.toNat
    omega

theorem decodeBytes?_ofByte (b : UInt8) (cs : List Char) :
    decodeBytes? (ofByte b ++ cs) = (decodeBytes? cs).map (b :: ·) := by
  have hb : b.toNat < 256 := b.toNat_lt
  unfold ofByte
  split
  · rename_i hplain
    obtain ⟨hne, hbyte⟩ := utf8EncodeChar_ofNat hplain
    simp [decodeBytes?, hne, hbyte]
  · have hhigh : Hex.value? (digit (b.toNat / 16)) = some (b.toNat / 16) :=
      value?_digit _ (by omega)
    have hlow : Hex.value? (digit (b.toNat % 16)) = some (b.toNat % 16) :=
      value?_digit _ (by omega)
    have hsum : UInt8.ofNat (16 * (b.toNat / 16) + b.toNat % 16) = b := by
      rw [Nat.div_add_mod, UInt8.ofNat_toNat]
    show (do
      let high ← Hex.value? (digit (b.toNat / 16))
      let low ← Hex.value? (digit (b.toNat % 16))
      let bytes ← decodeBytes? cs
      pure (UInt8.ofNat (16 * high + low) :: bytes)) = _
    rw [hhigh, hlow]
    show (decodeBytes? cs).bind (fun bytes =>
      some (UInt8.ofNat (16 * (b.toNat / 16) + b.toNat % 16) :: bytes)) = _
    rw [hsum]
    exact Option.map_eq_bind.symm

/-! ## Texts -/

theorem toList_loop (bytes : ByteArray) (i : Nat) (acc : List UInt8) :
    ByteArray.toList.loop bytes i acc = acc.reverse ++ bytes.data.toList.drop i := by
  induction i, acc using ByteArray.toList.loop.induct bytes with
  | case1 i acc hi ih =>
    have hdrop : bytes.data.toList.drop i =
        bytes.data[i] :: bytes.data.toList.drop (i + 1) := by
      rw [List.drop_eq_getElem_cons (by simpa using hi)]
      rfl
    have hget : bytes.get! i = bytes.data[i] := by simp [ByteArray.get!, hi]
    rw [ByteArray.toList.loop, if_pos hi, ih, hdrop, hget]
    simp
  | case2 i acc hi =>
    have hdrop : bytes.data.toList.drop i = [] := List.drop_of_length_le (by simpa using hi)
    rw [ByteArray.toList.loop, if_neg hi, hdrop, List.append_nil]

/-- The bytes of a text make up that text. -/
theorem fromUTF8?_toList (s : String) : String.fromUTF8? s.toUTF8.toList.toByteArray = some s := by
  have hbytes : s.toUTF8.toList.toByteArray = s.toByteArray := by
    have hlist : s.toUTF8.toList = s.toByteArray.data.toList := by
      rw [String.toUTF8_eq_toByteArray, ByteArray.toList, toList_loop]
      simp
    rw [hlist]
    exact ByteArray.ext (by simp)
  rw [hbytes, String.fromUTF8?, dif_pos s.isValidUTF8]
  rfl

theorem decodeBytes?_flatMap (bytes : List UInt8) :
    decodeBytes? (bytes.flatMap ofByte) = some bytes := by
  induction bytes with
  | nil => rfl
  | cons b bytes ih => rw [List.flatMap_cons, decodeBytes?_ofByte, ih, Option.map_some]

theorem toList_encode (s : String) : (encode s).toList = s.toUTF8.toList.flatMap ofByte :=
  String.toList_ofList

/-- Encoding can be undone. -/
theorem decode?_encode (s : String) : decode? (encode s).toList = some s := by
  rw [decode?, toList_encode, decodeBytes?_flatMap, Option.bind_some, fromUTF8?_toList]

/-- No separator is left by encoding. -/
theorem notMem_encode {c : Char} (hc : c ∈ separators) (s : String) : c ∉ (encode s).toList := by
  intro h
  rw [toList_encode, List.mem_flatMap] at h
  obtain ⟨b, -, hb⟩ := h
  exact notMem_ofByte hc b hb

theorem encode_injective {s t : String} (h : (encode s).toList = (encode t).toList) : s = t := by
  have hs := decode?_encode s
  rw [h, decode?_encode] at hs
  exact (Option.some.inj hs).symm

end Gateway.Percent
