/-
  WebBaseline.Proofs.Text.ByteOrder

  Texts are ordered by their characters as they are by their bytes.

    * the bytes of a character are a first byte, which grows with the code point,
      and `tailLength` bytes with six bits each (`bytesOf_eq_cons`);
    * so of two characters the smaller one has the smaller bytes, whatever bytes
      follow (`bytesOf_append_lt`);
    * so texts compare alike, character by character and byte by byte
      (`lt_iff_bytes_lt`).
-/

import Mathlib.Algebra.Group.Nat.Defs
import Mathlib.Tactic.SplitIfs
import WebBaseline.Proofs.Glob.Bytes

namespace WebBaseline.Text

open WebBaseline.Glob (bytes bytes_nil bytes_cons bytesOf bytesOf_eq bytes_injective toList_toUTF8)

/-! ## The bytes of a character -/

/-- How many bytes follow the first one of a code point. -/
def tailLength (v : Nat) : Nat :=
  if v ≤ 0x7f then 0 else if v ≤ 0x7ff then 1 else if v ≤ 0xffff then 2 else 3

/-- The first byte of a code point. -/
def firstByte (v : Nat) : Nat :=
  if v ≤ 0x7f then v
  else if v ≤ 0x7ff then v / 64 + 0xc0
  else if v ≤ 0xffff then v / 4096 + 0xe0
  else v / 262144 + 0xf0

/-- The last `k` bytes of a code point, six bits in each. -/
def tailBytes : Nat → Nat → List UInt8
  | 0, _ => []
  | k + 1, v => UInt8.ofNat (v / 64 ^ k % 64 + 0x80) :: tailBytes k v

theorem val_lt (c : Char) : c.val.toNat < 0x110000 := by
  rcases c.valid with hlow | ⟨-, hhigh⟩
  · exact Nat.lt_trans hlow (by decide)
  · exact hhigh

theorem bytesOf_eq_cons (c : Char) :
    bytesOf c = UInt8.ofNat (firstByte c.val.toNat) ::
      tailBytes (tailLength c.val.toNat) c.val.toNat := by
  have hc := val_lt c
  rw [bytesOf_eq, String.utf8EncodeChar, firstByte, tailLength]
  generalize c.val.toNat = v at hc ⊢
  split_ifs with h₁ h₂ h₃
  · rfl
  · have hfirst : v / 64 % 32 = v / 64 := Nat.mod_eq_of_lt (by omega)
    simp only [tailBytes, hfirst, Nat.pow_zero, Nat.div_one]
  · have hfirst : v / 4096 % 16 = v / 4096 := Nat.mod_eq_of_lt (by omega)
    simp only [tailBytes, hfirst, Nat.pow_zero, Nat.div_one, Nat.pow_one]
  · have hfirst : v / 262144 % 8 = v / 262144 := Nat.mod_eq_of_lt (by omega)
    simp only [tailBytes, hfirst, Nat.pow_zero, Nat.div_one, Nat.pow_one, Nat.reducePow]

/-! ## Their order -/

theorem ofNat_cons_lt {x y : Nat} {us vs : List UInt8} (hy : y < 256)
    (h : x < y ∨ x = y ∧ us < vs) : UInt8.ofNat x :: us < UInt8.ofNat y :: vs := by
  rw [List.cons_lt_cons_iff]
  rcases h with hlt | ⟨rfl, hrest⟩
  · left
    rw [UInt8.lt_iff_toNat_lt, UInt8.toNat_ofNat', UInt8.toNat_ofNat', Nat.mod_eq_of_lt hy,
      Nat.mod_eq_of_lt (by omega)]
    exact hlt
  · exact Or.inr ⟨rfl, hrest⟩

theorem tailBytes_append_lt {k v w : Nat} (h : v % 64 ^ k < w % 64 ^ k) (us vs : List UInt8) :
    tailBytes k v ++ us < tailBytes k w ++ vs := by
  induction k with
  | zero =>
    rw [Nat.pow_zero, Nat.mod_one, Nat.mod_one] at h
    exact absurd h (Nat.lt_irrefl 0)
  | succ k ih =>
    -- the digit in front decides, or the rest if it is the same
    have hv : v % 64 ^ (k + 1) = v % 64 ^ k + 64 ^ k * (v / 64 ^ k % 64) := Nat.mod_mul
    have hw : w % 64 ^ (k + 1) = w % 64 ^ k + 64 ^ k * (w / 64 ^ k % 64) := Nat.mod_mul
    refine ofNat_cons_lt (by omega) ?_
    rcases Nat.lt_trichotomy (v / 64 ^ k % 64) (w / 64 ^ k % 64) with hlt | heq | hgt
    · exact Or.inl (Nat.add_lt_add_right hlt 0x80)
    · rw [hv, hw, heq] at h
      exact Or.inr ⟨by rw [heq], ih (Nat.lt_of_add_lt_add_right h)⟩
    · have hmod : w % 64 ^ k < 64 ^ k := Nat.mod_lt w (Nat.pow_pos (by decide))
      have hmul : 64 ^ k * (w / 64 ^ k % 64 + 1) ≤ 64 ^ k * (v / 64 ^ k % 64) :=
        Nat.mul_le_mul_left _ hgt
      rw [Nat.mul_add, Nat.mul_one] at hmul
      omega

/-- A greater code point has a greater first byte, or as many bytes after the same
    first one. -/
theorem firstByte_lt_or {v w : Nat} (h : v < w) :
    firstByte v < firstByte w ∨
      firstByte v = firstByte w ∧ tailLength v = tailLength w ∧
        v % 64 ^ tailLength v < w % 64 ^ tailLength v := by
  unfold firstByte tailLength
  split_ifs <;> simp only [Nat.reducePow, true_and] <;> omega

/-- The smaller of two characters has the smaller bytes, whatever bytes follow. -/
theorem bytesOf_append_lt {c d : Char} (h : c < d) (us vs : List UInt8) :
    bytesOf c ++ us < bytesOf d ++ vs := by
  have hlt : c.val.toNat < d.val.toNat := UInt32.lt_iff_toNat_lt.1 (Char.lt_def.1 h)
  have hbyte : firstByte d.val.toNat < 256 := by
    have hd := val_lt d
    unfold firstByte
    split_ifs <;> omega
  rw [bytesOf_eq_cons, bytesOf_eq_cons]
  refine ofNat_cons_lt hbyte ?_
  rcases firstByte_lt_or hlt with hfirst | ⟨hfirst, hlength, htail⟩
  · exact Or.inl hfirst
  · rw [← hlength]
    exact Or.inr ⟨hfirst, tailBytes_append_lt htail us vs⟩

/-! ## Texts -/

theorem bytes_lt_of_lt {cs ds : List Char} (h : cs < ds) : bytes cs < bytes ds := by
  induction cs generalizing ds with
  | nil =>
    cases ds with
    | nil => exact absurd h (List.not_lt_nil [])
    | cons d ds =>
      rw [bytes_nil, bytes_cons, bytesOf_eq_cons]
      exact List.nil_lt_cons _ _
  | cons c cs ih =>
    cases ds with
    | nil => exact absurd h (List.not_lt_nil (c :: cs))
    | cons d ds =>
      rw [bytes_cons, bytes_cons]
      rcases List.cons_lt_cons_iff.1 h with hlt | ⟨rfl, hrest⟩
      · exact bytesOf_append_lt hlt (bytes cs) (bytes ds)
      · exact List.append_left_lt (ih hrest)

/-- Texts compare alike, character by character and byte by byte. -/
theorem lt_iff_bytes_lt (s t : String) : s < t ↔ s.toUTF8.toList < t.toUTF8.toList := by
  rw [toList_toUTF8, toList_toUTF8]
  constructor
  · intro h
    exact bytes_lt_of_lt (String.lt_iff.1 h)
  · intro h
    refine Decidable.by_contra fun hnot => ?_
    rcases List.le_iff_lt_or_eq.1 (String.not_lt.1 hnot) with hlt | heq
    · exact List.lt_asymm h (bytes_lt_of_lt hlt)
    · rw [heq] at h
      exact List.lt_irrefl _ h

end WebBaseline.Text
