/-
  WebBaseline.Proofs.Glob.Bytes

  The bytes of a text, character by character.

    * texts with the same bytes are the same (`bytes_injective`);
    * where a byte below 128 stands among the bytes of a text, its character
      stands in the text (`exists_of_bytes_eq`), for all bytes of every other
      character are greater (`le_of_mem_bytesOf`).
-/

import WebBaseline.Glob.Match

namespace WebBaseline.Glob

/-- The bytes of characters in a row. -/
def bytes (cs : List Char) : List UInt8 := cs.flatMap bytesOf

theorem bytes_nil : bytes [] = [] := rfl

theorem bytes_cons (c : Char) (cs : List Char) : bytes (c :: cs) = bytesOf c ++ bytes cs :=
  List.flatMap_cons

theorem bytes_append (cs ds : List Char) : bytes (cs ++ ds) = bytes cs ++ bytes ds :=
  List.flatMap_append

/-! ## The bytes of a text -/

theorem toList_loop (b : ByteArray) (i : Nat) (read : List UInt8) :
    ByteArray.toList.loop b i read = read.reverse ++ b.data.toList.drop i := by
  -- the induction is on what is left of the array
  induction i, read using ByteArray.toList.loop.induct b with
  | case1 i read hi ih =>
    have hi' : i < b.data.toList.length := hi
    have hget : b.get! i = b.data.toList[i] := getElem!_pos b.data i hi
    rw [ByteArray.toList.loop, if_pos hi, ih, List.reverse_cons, List.append_assoc, hget,
      List.drop_eq_getElem_cons hi']
    rfl
  | case2 i read hi =>
    rw [ByteArray.toList.loop, if_neg hi,
      List.drop_eq_nil_of_le (Nat.le_of_not_lt hi : b.data.toList.length ≤ i), List.append_nil]

theorem toList_eq (b : ByteArray) : b.toList = b.data.toList := toList_loop b 0 []

theorem bytesOf_eq (c : Char) : bytesOf c = String.utf8EncodeChar c := by
  have hbytes : c.toString.toUTF8 = (String.utf8EncodeChar c).toByteArray := by
    show (String.singleton c).toByteArray = _
    rw [String.toByteArray_singleton, List.utf8Encode_singleton]
  rw [bytesOf, hbytes, toList_eq, List.toList_data_toByteArray]

theorem toList_toUTF8 (s : String) : s.toUTF8.toList = bytes s.toList := by
  have hencode : s.toUTF8 = s.toList.utf8Encode := String.utf8Encode_toList.symm
  rw [hencode, toList_eq, List.utf8Encode, List.toList_data_toByteArray, bytes]
  exact congrArg (List.flatMap · s.toList) (funext (fun c => (bytesOf_eq c).symm))

theorem bytes_injective {cs ds : List Char} (h : bytes cs = bytes ds) : cs = ds := by
  have hlist : (String.ofList cs).toUTF8.toList = (String.ofList ds).toUTF8.toList := by
    rw [toList_toUTF8, toList_toUTF8, String.toList_ofList, String.toList_ofList, h]
  rw [toList_eq, toList_eq] at hlist
  have hbytes : (String.ofList cs).toByteArray = (String.ofList ds).toByteArray :=
    ByteArray.ext (Array.toList_inj.1 hlist)
  exact String.ofList_injective (String.toByteArray_inj.1 hbytes)

/-! ## Single bytes -/

theorem not_ofNat_lt {x m k : Nat} (hm : 0 < m) (hk : 128 ≤ k) (hroom : m + k ≤ 256) :
    ¬ UInt8.ofNat (x % m + k) < 128 := by
  have hlt := Nat.mod_lt x hm
  rw [UInt8.lt_iff_toNat_lt, UInt8.toNat_ofNat', Nat.mod_eq_of_lt (by omega)]
  exact Nat.not_lt.2 (Nat.le_trans hk (Nat.le_add_left k (x % m)))

/-- A character that has a byte below 128 has no other one. -/
theorem bytesOf_eq_singleton {c : Char} {b : UInt8} (hmem : b ∈ bytesOf c) (hb : b < 128) :
    bytesOf c = [b] := by
  -- the bytes after the first one, and the first one of several, have their high bit set
  have htail : ∀ x, ¬ UInt8.ofNat (x % 0x40 + 0x80) < 128 := fun x =>
    not_ofNat_lt (by decide) (by decide) (by decide)
  have htwo : ∀ x, ¬ UInt8.ofNat (x % 0x20 + 0xc0) < 128 := fun x =>
    not_ofNat_lt (by decide) (by decide) (by decide)
  have hthree : ∀ x, ¬ UInt8.ofNat (x % 0x10 + 0xe0) < 128 := fun x =>
    not_ofNat_lt (by decide) (by decide) (by decide)
  have hfour : ∀ x, ¬ UInt8.ofNat (x % 0x08 + 0xf0) < 128 := fun x =>
    not_ofNat_lt (by decide) (by decide) (by decide)
  have hnot : ∀ bs : List UInt8, (∀ x ∈ bs, ¬ x < 128) → b ∉ bs := fun bs hbs hmem =>
    hbs b hmem hb
  rw [bytesOf_eq, String.utf8EncodeChar] at hmem ⊢
  split at hmem
  · rw [if_pos ‹_›, List.mem_singleton.1 hmem]
  · split at hmem
    · exact absurd hmem (hnot _ (by simp only [List.forall_mem_cons, htwo, htail]; simp))
    · split at hmem
      · exact absurd hmem (hnot _ (by simp only [List.forall_mem_cons, hthree, htail]; simp))
      · exact absurd hmem (hnot _ (by simp only [List.forall_mem_cons, hfour, htail]; simp))

/-- Where the byte of a character stands among those of a text, the character
    stands in the text. -/
theorem exists_of_bytes_eq {a : Char} {b : UInt8} (ha : bytesOf a = [b]) (hb : b < 128)
    {cs : List Char} {u v : List UInt8} (h : bytes cs = u ++ b :: v) :
    ∃ front back, cs = front ++ a :: back ∧ bytes front = u ∧ bytes back = v := by
  induction cs generalizing u with
  | nil => simp [bytes_nil] at h
  | cons c cs ih =>
    rw [bytes_cons, List.append_eq_append_iff] at h
    -- the byte stands behind those of the first character, or is one of them
    have hbehind : ∀ {w}, u = bytesOf c ++ w → bytes cs = w ++ b :: v →
        ∃ front back, c :: cs = front ++ a :: back ∧ bytes front = u ∧ bytes back = v := by
      rintro w rfl hcs
      obtain ⟨front, back, rfl, rfl, rfl⟩ := ih hcs
      exact ⟨c :: front, back, rfl, bytes_cons c front, rfl⟩
    rcases h with ⟨w, hu, hcs⟩ | ⟨w, hc, hv⟩
    · exact hbehind hu hcs
    · cases w with
      | nil => exact hbehind (w := []) (by rw [hc, List.append_nil, List.append_nil]) hv.symm
      | cons x w =>
        obtain ⟨rfl, rfl⟩ := List.cons.inj hv
        have honly := bytesOf_eq_singleton (c := c) (by rw [hc]; simp) hb
        rw [honly] at hc
        obtain ⟨rfl, rfl⟩ : u = [] ∧ w = [] := by
          have hlength := congrArg List.length hc
          simp only [List.length_append, List.length_cons, List.length_nil] at hlength
          exact ⟨List.length_eq_zero_iff.1 (by omega), List.length_eq_zero_iff.1 (by omega)⟩
        have hsame : [c] = [a] := bytes_injective (by
          rw [bytes_cons, bytes_cons, honly, ha])
        exact ⟨[], cs, by rw [(List.cons.inj hsame).1]; rfl, rfl, rfl⟩

theorem bytesOf_slash : bytesOf '/' = [47] := by
  rw [bytesOf_eq]
  rfl

theorem bytesOf_dot : bytesOf '.' = [46] := by
  rw [bytesOf_eq]
  rfl

end WebBaseline.Glob
