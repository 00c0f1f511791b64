import GuidedTour.Glob.Basic
import Mathlib.Data.List.Infix

namespace GuidedTour.Glob

open scoped List

/-!
# Paths and their bytes

Patterns are matched byte by byte, and what they match is wanted character by character.

* `encode` — the bytes of a row of characters; `bytesOf_eq` says that a path is matched by these;
* `encodeChar_ascii`, `le_of_mem_encodeChar` — an ASCII character is one byte, and no byte of
  another character looks like one;
* `encode_injective`, `suffix_encode_iff` — bytes tell the characters, also at the end of a path,
  since no character ends with the bytes of another one.
-/

variable {s t : List Char} {c : Char} {b : UInt8}

/-- The bytes of a row of characters. -/
def encode (s : List Char) : List UInt8 := s.flatMap String.utf8EncodeChar

@[simp] theorem encode_nil : encode [] = [] := rfl

@[simp] theorem encode_cons (c : Char) (s : List Char) :
    encode (c :: s) = String.utf8EncodeChar c ++ encode s := rfl

@[simp] theorem encode_append (s t : List Char) : encode (s ++ t) = encode s ++ encode t :=
  List.flatMap_append

/-- The bytes of an array, from one place on. -/
theorem toListLoop_eq (bytes : ByteArray) (i : Nat) (done : List UInt8) :
    ByteArray.toList.loop bytes i done = done.reverse ++ bytes.data.toList.drop i := by
  fun_induction ByteArray.toList.loop bytes i done with
  | case1 i done hlt ih =>
    have hi : i < bytes.data.toList.length := by simpa using hlt
    have hget : bytes.get! i = bytes.data.toList[i] := by
      show bytes.data[i]! = _
      rw [getElem!_pos bytes.data i hlt]
      rfl
    rw [ih, List.drop_eq_getElem_cons hi, hget, List.reverse_cons, List.append_assoc]
    rfl
  | case2 i done hge =>
    have hi : bytes.data.toList.length ≤ i := by simpa using hge
    rw [List.drop_eq_nil_of_le hi, List.append_nil]

/-- The bytes of a path are those of its characters. -/
theorem bytesOf_eq (path : String) : bytesOf path = encode path.toList := by
  have hbytes : path.toByteArray = (encode path.toList).toByteArray := by
    conv_lhs => rw [← String.ofList_toList (s := path)]
    exact String.toByteArray_ofList
  show path.toByteArray.toList = encode path.toList
  unfold ByteArray.toList
  rw [toListLoop_eq, hbytes]
  simp

/-- An ASCII character is one byte. -/
theorem encodeChar_ascii (hc : c.toNat < 128) :
    String.utf8EncodeChar c = [UInt8.ofNat c.toNat] := by
  unfold String.utf8EncodeChar
  exact if_pos (Nat.le_of_lt_succ hc)

theorem toNat_byte (hc : c.toNat < 128) : (UInt8.ofNat c.toNat).toNat = c.toNat :=
  UInt8.toNat_ofNat_of_lt' (Nat.lt_trans hc (by decide))

/-- No byte of a character outside ASCII is one of ASCII. -/
theorem le_of_mem_encodeChar (hc : 128 ≤ c.toNat) (hb : b ∈ String.utf8EncodeChar c) :
    128 ≤ b.toNat := by
  have hbytes : ∀ n < 256, 128 ≤ n → 128 ≤ (UInt8.ofNat n).toNat := by
    intro n hn hle
    rwa [UInt8.toNat_ofNat_of_lt' hn]
  unfold String.utf8EncodeChar at hb
  have hval : ¬ c.val.toNat ≤ 127 := Nat.not_le.mpr hc
  simp only [if_neg hval] at hb
  -- Characters of two, three and four bytes, each of which has its highest bit set.
  split at hb
  · simp only [List.mem_cons, List.not_mem_nil, or_false] at hb
    rcases hb with rfl | rfl <;> exact hbytes _ (by omega) (by omega)
  · split at hb
    · simp only [List.mem_cons, List.not_mem_nil, or_false] at hb
      rcases hb with rfl | rfl | rfl <;> exact hbytes _ (by omega) (by omega)
    · simp only [List.mem_cons, List.not_mem_nil, or_false] at hb
      rcases hb with rfl | rfl | rfl | rfl <;> exact hbytes _ (by omega) (by omega)

/-- Bytes that begin with an ASCII character begin with no other one. -/
theorem encodeChar_append_inj {d : Char} {u v : List UInt8} (hd : d.toNat < 128)
    (h : String.utf8EncodeChar c ++ u = String.utf8EncodeChar d ++ v) : c = d ∧ u = v := by
  rw [encodeChar_ascii hd] at h
  by_cases hc : c.toNat < 128
  · rw [encodeChar_ascii hc] at h
    obtain ⟨hbyte, huv⟩ := List.cons.inj h
    have hnat : c.toNat = d.toNat := by
      have := congrArg UInt8.toNat hbyte
      rwa [toNat_byte hc, toNat_byte hd] at this
    exact ⟨Char.ext (UInt32.toNat_inj.mp hnat), huv⟩
  · exfalso
    obtain ⟨b, bs, hbytes⟩ := List.exists_cons_of_ne_nil (String.utf8EncodeChar_ne_nil (c := c))
    -- Any other character begins with a byte beyond ASCII.
    have hlarge := le_of_mem_encodeChar (b := b) (Nat.not_lt.mp hc) (by simp [hbytes])
    rw [hbytes] at h
    obtain ⟨rfl, -⟩ := List.cons.inj h
    rw [toNat_byte hd] at hlarge
    omega

/-! ### From bytes back to characters -/

/-- No two texts have the same bytes. -/
theorem encode_injective (h : encode s = encode t) : s = t := by
  have hbytes : (String.ofList s).toByteArray = (String.ofList t).toByteArray := by
    rw [String.toByteArray_ofList, String.toByteArray_ofList]
    exact congrArg List.toByteArray h
  exact String.ofList_injective (String.toByteArray_inj.mp hbytes)

/-- Only the empty text has no bytes. -/
theorem encode_eq_nil_iff : encode s = [] ↔ s = [] := by
  constructor
  · exact fun h => encode_injective (t := []) h
  · rintro rfl
    rfl

/-- The bytes of a row of characters do not begin within a character. -/
theorem not_inside_char {u v w : List UInt8} (hc : String.utf8EncodeChar c = u ++ v) (hu : u ≠ [])
    (hv : v ≠ []) : encode s ≠ v ++ w := by
  intro h
  obtain ⟨b, v, rfl⟩ := List.exists_cons_of_ne_nil hv
  cases s with
  | nil => cases h
  | cons d s =>
    have hd : 0 < (String.utf8EncodeChar d).length :=
      List.length_pos_iff.mpr String.utf8EncodeChar_ne_nil
    -- the byte begins one character, and lies inside of another
    have hbegins : b = (String.utf8EncodeChar d)[0] := by
      have hhead := congrArg List.head? h
      rw [encode_cons, List.head?_append_of_ne_nil _ String.utf8EncodeChar_ne_nil] at hhead
      rw [List.head?_eq_getElem?, List.getElem?_eq_getElem hd] at hhead
      exact (Option.some.inj hhead).symm
    have hlength : u.length < (String.utf8EncodeChar c).length := by
      rw [hc, List.length_append, List.length_cons]
      omega
    have hinside : b = (String.utf8EncodeChar c)[u.length] := by
      have hget : (u ++ b :: v)[u.length]? = some b := by simp
      rw [← hc, List.getElem?_eq_getElem hlength] at hget
      exact (Option.some.inj hget).symm
    have hfirst : b.IsUTF8FirstByte := by
      rw [hbegins]
      exact UInt8.isUTF8FirstByte_getElem_utf8EncodeChar.mpr rfl
    rw [hinside] at hfirst
    exact hu (List.length_eq_zero_iff.mp (UInt8.isUTF8FirstByte_getElem_utf8EncodeChar.mp hfirst))

/-- A path ends with some bytes exactly if it ends with their characters. -/
theorem suffix_encode_iff : encode t <:+ encode s ↔ t <:+ s := by
  constructor
  · intro h
    induction s with
    | nil =>
      have hnil : encode t = [] := List.suffix_nil.mp h
      rw [encode_eq_nil_iff.mp hnil]
    | cons c s ih =>
      obtain ⟨u, hu⟩ := h
      rw [encode_cons] at hu
      rcases List.append_eq_append_iff.mp hu with ⟨v, hc, hv⟩ | ⟨v, hc, hv⟩
      · by_cases hunil : u = []
        · -- the bytes are those of all characters
          have hall : encode t = encode (c :: s) := by simpa [hunil] using hu
          rw [encode_injective hall]
        · by_cases hvnil : v = []
          · exact (ih ⟨[], by simpa [hvnil] using hv⟩).trans (List.suffix_cons c s)
          · exact absurd hv (not_inside_char hc hunil hvnil)
      · exact (ih ⟨v, hv.symm⟩).trans (List.suffix_cons c s)
  · rintro ⟨u, rfl⟩
    rw [encode_append]
    exact List.suffix_append _ _

end GuidedTour.Glob
