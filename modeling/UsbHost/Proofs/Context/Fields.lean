import Mathlib.Algebra.Group.Nat.Defs
import UsbHost.Context.Dwords

/-!
Fields of contexts, bit by bit. A field that lies inside its word takes exactly its own bits from
what is put into it, and all the others from the word. So what has been put is read back, cut to the
width of the field, and a field of another dword, or without a common bit, reads what it has read
before.
-/

namespace UsbHost

namespace Bits.Field

/-- Bit `i` of a word. -/
def bit (word : UInt32) (i : Nat) : Bool := word.toBitVec.getLsbD i

/-- The field lies inside a word. -/
structure Valid (f : Field) : Prop where
  low_lt : f.low < 32
  fits : f.low + f.width ≤ 32

instance (f : Field) : Decidable f.Valid :=
  decidable_of_iff (f.low < 32 ∧ f.low + f.width ≤ 32)
    ⟨fun ⟨hl, h⟩ => ⟨hl, h⟩, fun ⟨hl, h⟩ => ⟨hl, h⟩⟩

/-- The fields have no bit in common. -/
def Disjoint (f g : Field) : Prop := f.low + f.width ≤ g.low ∨ g.low + g.width ≤ f.low

instance (f g : Field) : Decidable (f.Disjoint g) := inferInstanceAs (Decidable (_ ∨ _))

theorem ext_bits {u v : UInt32} (h : ∀ i < 32, bit u i = bit v i) : u = v := by
  rw [← UInt32.toBitVec_inj]
  exact BitVec.eq_of_getLsbD_eq h

variable {f g : Field}

@[simp] theorem bit_and (u v : UInt32) (i : Nat) : bit (u &&& v) i = (bit u i && bit v i) := by
  rw [bit, UInt32.toBitVec_and, BitVec.getLsbD_and]
  rfl

theorem bit_mask (h : f.Valid) (i : Nat) : bit f.mask i = decide (i < f.width) := by
  have hlt : 1 <<< f.width - 1 < 2 ^ 32 := by
    have hpow : 2 ^ f.width ≤ 2 ^ 32 :=
      Nat.pow_le_pow_right (by decide) (Nat.le_trans (Nat.le_add_left _ _) h.fits)
    have hpos := Nat.two_pow_pos f.width
    rw [Nat.one_shiftLeft]
    omega
  rw [bit, mask, BitVec.getLsbD, UInt32.toNat_toBitVec, UInt32.toNat_ofNat_of_lt' hlt,
    Nat.one_shiftLeft, Nat.testBit_two_pow_sub_one]

/-- A shift by less than 32 is a shift by that much. -/
theorem toNat_shift {k : Nat} (hk : k < 32) : ((UInt32.ofNat k).toBitVec % 32).toNat = k := by
  have hword : k < UInt32.size := Nat.lt_trans hk (by decide)
  rw [BitVec.toNat_umod, UInt32.toNat_toBitVec, UInt32.toNat_ofNat_of_lt' hword]
  exact Nat.mod_eq_of_lt hk

theorem bit_shiftLeft (word : UInt32) {k i : Nat} (hk : k < 32) (hi : i < 32) :
    bit (word <<< UInt32.ofNat k) i = (decide (k ≤ i) && bit word (i - k)) := by
  rw [bit, UInt32.toBitVec_shiftLeft, BitVec.shiftLeft_eq', BitVec.getLsbD_shiftLeft,
    toNat_shift hk, decide_eq_true hi, Bool.true_and, ← decide_not]
  simp only [Nat.not_lt, bit]

theorem bit_shiftRight (word : UInt32) {k : Nat} (hk : k < 32) (i : Nat) :
    bit (word >>> UInt32.ofNat k) i = bit word (k + i) := by
  rw [bit, UInt32.toBitVec_shiftRight, BitVec.ushiftRight_eq', BitVec.getLsbD_ushiftRight,
    toNat_shift hk, bit]

/-- What is cut to the width of a field, as a number. -/
theorem toNat_and_mask (h : f.Valid) (value : UInt32) :
    (value &&& f.mask).toNat = value.toNat % 2 ^ f.width := by
  refine Nat.eq_of_testBit_eq fun i => ?_
  change bit (value &&& f.mask) i = _
  rw [bit_and, bit_mask h, Nat.testBit_mod_two_pow, Bool.and_comm]
  rfl

/-! ### Reading and writing -/

theorem bit_get (h : f.Valid) (word : UInt32) (i : Nat) :
    bit (f.get word) i = (decide (i < f.width) && bit word (f.low + i)) := by
  simp [get, bit_shiftRight word h.low_lt, bit_mask h, Bool.and_comm]

/-- What is read from a field, as a number. -/
theorem toNat_get (h : f.Valid) (word : UInt32) :
    (f.get word).toNat = word.toNat / 2 ^ f.low % 2 ^ f.width := by
  refine Nat.eq_of_testBit_eq fun i => ?_
  change bit (f.get word) i = _
  rw [bit_get h, Nat.testBit_mod_two_pow, Nat.testBit_div_two_pow, Nat.add_comm]
  rfl

/-- Writing a field writes its own bits and no others. -/
theorem bit_put (h : f.Valid) (value word : UInt32) {i : Nat} (hi : i < 32) :
    bit (f.put value word) i =
      if f.low ≤ i ∧ i < f.low + f.width then bit value (i - f.low) else bit word i := by
  have hor : bit (f.put value word) i =
      (bit word i && !bit (f.mask <<< UInt32.ofNat f.low) i ||
        bit ((value &&& f.mask) <<< UInt32.ofNat f.low) i) := by
    rw [put, bit, UInt32.toBitVec_or, BitVec.getLsbD_or, UInt32.toBitVec_and, BitVec.getLsbD_and,
      UInt32.toBitVec_not, BitVec.getLsbD_not, decide_eq_true hi, Bool.true_and]
    rfl
  rw [hor, bit_shiftLeft _ h.low_lt hi, bit_shiftLeft _ h.low_lt hi, bit_and, bit_mask h]
  by_cases hlow : f.low ≤ i
  · by_cases hwidth : i - f.low < f.width
    · have hin : i < f.low + f.width := by omega
      simp [hlow, hwidth, hin]
    · have hout : ¬ i < f.low + f.width := by omega
      simp [hwidth, hout]
  · simp [hlow]

/-- What has been put into a field is read back, cut to its width. -/
@[simp] theorem get_put_self (h : f.Valid) (value word : UInt32) :
    f.get (f.put value word) = value &&& f.mask := by
  refine ext_bits fun i hi => ?_
  rw [bit_get h, bit_and, bit_mask h, Bool.and_comm]
  by_cases hwidth : i < f.width
  · have hfits := h.fits
    rw [bit_put h value word (by omega), if_pos (by omega), Nat.add_sub_cancel_left]
  · rw [decide_eq_false hwidth, Bool.and_false, Bool.and_false]

/-- A field without a common bit reads what it has read before. -/
theorem get_put_of_disjoint (hf : f.Valid) (hg : g.Valid) (h : f.Disjoint g)
    (value word : UInt32) : f.get (g.put value word) = f.get word := by
  refine ext_bits fun i hi => ?_
  rw [bit_get hf, bit_get hf]
  by_cases hwidth : i < f.width
  · have hfits := hf.fits
    have hout : ¬ (g.low ≤ f.low + i ∧ f.low + i < g.low + g.width) := by
      unfold Disjoint at h
      omega
    rw [bit_put hg value word (by omega), if_neg hout]
  · rw [decide_eq_false hwidth, Bool.false_and, Bool.false_and]

/-- The last value that is put into a field stays. -/
@[simp] theorem put_put_self (h : f.Valid) (value value' word : UInt32) :
    f.put value (f.put value' word) = f.put value word := by
  refine ext_bits fun i hi => ?_
  rw [bit_put h _ _ hi, bit_put h value word hi]
  split
  · rfl
  · rename_i hout
    rw [bit_put h _ _ hi, if_neg hout]

/-- Putting back what has been read changes nothing. -/
@[simp] theorem put_get_self (h : f.Valid) (word : UInt32) : f.put (f.get word) word = word := by
  refine ext_bits fun i hi => ?_
  rw [bit_put h _ _ hi]
  split
  · rename_i hin
    rw [bit_get h, decide_eq_true (by omega), Bool.true_and, Nat.add_sub_cancel' hin.1]
  · rfl

end Bits.Field

namespace Context.Dwords

open Bits (Field)

variable {f g : Field} {i j : Fin dwordCount}

@[simp] theorem get_store_self (d : Dwords) (i : Fin dwordCount) (value : UInt32) :
    (d.store i value).get i = value :=
  Vector.getElem_set_self _

@[simp] theorem get_store_ne (d : Dwords) (h : i ≠ j) (value : UInt32) :
    (d.store j value).get i = d.get i :=
  Vector.getElem_set_ne _ _ fun hji => h (Fin.ext hji.symm)

@[simp] theorem store_store_self (d : Dwords) (i : Fin dwordCount) (value value' : UInt32) :
    (d.store i value').store i value = d.store i value := by
  ext k hk
  by_cases hik : i.val = k <;> simp [store, hik]

@[simp] theorem store_get_self (d : Dwords) (i : Fin dwordCount) : d.store i (d.get i) = d := by
  ext k hk
  simp only [store, Vector.getElem_set]
  split
  · rename_i hik
    subst hik
    rfl
  · rfl

/-- What has been put into a field is read back, cut to its width. -/
@[simp] theorem field_put_self (hf : f.Valid) (d : Dwords) (i : Fin dwordCount) (value : UInt32) :
    (d.put i f value).field i f = value &&& f.mask := by
  simp [field, put, hf]

/-- Another field reads what it has read before. -/
theorem field_put_other (hf : f.Valid) (hg : g.Valid) (h : i ≠ j ∨ f.Disjoint g) (d : Dwords)
    (value : UInt32) : (d.put j g value).field i f = d.field i f := by
  rw [field, put]
  by_cases hij : i = j
  · subst hij
    simp [Field.get_put_of_disjoint hf hg (h.resolve_left fun hne => hne rfl), field]
  · simp [hij, field]

@[simp] theorem put_put_self (hf : f.Valid) (d : Dwords) (i : Fin dwordCount)
    (value value' : UInt32) : (d.put i f value').put i f value = d.put i f value := by
  simp [put, hf]

@[simp] theorem put_field_self (hf : f.Valid) (d : Dwords) (i : Fin dwordCount) :
    d.put i f (d.field i f) = d := by
  simp [put, field, hf]

end Context.Dwords

end UsbHost
