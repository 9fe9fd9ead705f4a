import UsbHost.Frame.Number

/-!
Frames in a window. Frame numbers wrap, so their order is circular and says nothing about frames far
apart. Within a window of less than half the range it is the order of the frames themselves.
-/

namespace UsbHost.Frame

/-- The number of a frame that is counted without wrap. -/
def numberOf (frame : Nat) : UInt16 := .ofNat (frame % 0x4000)

/-- The widest span of frames whose order can be told from their numbers. -/
def window : Nat := 0x1ffe

@[simp] theorem toNat_numberOf (frame : Nat) : (numberOf frame).toNat = frame % 0x4000 := by
  rw [numberOf, UInt16.toNat_ofNat']
  omega

theorem toNat_and_maxNumber (frame : UInt16) :
    (frame &&& maxNumber).toNat = frame.toNat % 0x4000 := by
  have hmask : maxNumber.toNat = 2 ^ 14 - 1 := rfl
  rw [UInt16.toNat_and, hmask, Nat.and_two_pow_sub_one_eq_mod]

/-- How far `a` is ahead of `b`. -/
theorem toNat_sub_and_maxNumber {a b : UInt16} (hb : b.toNat < 0x4000) :
    ((a - b) &&& maxNumber).toNat = (a.toNat + 0x4000 - b.toNat) % 0x4000 := by
  rw [toNat_and_maxNumber, UInt16.toNat_sub]
  omega

/-- Of frames that are not too far apart, the numbers tell whether one is ahead of the other by no
more than a window. -/
theorem isLater_numberOf_iff {frame frame' : Nat} (h : frame < frame' + 0x4000)
    (h' : frame' ≤ frame + 0x2000) :
    isLater (numberOf frame) (numberOf frame') = true ↔
      frame' < frame ∧ frame ≤ frame' + window := by
  have hahead : ((numberOf frame - numberOf frame') &&& maxNumber).toNat =
      (frame % 0x4000 + 0x4000 - frame' % 0x4000) % 0x4000 := by
    rw [toNat_sub_and_maxNumber (by rw [toNat_numberOf]; omega), toNat_numberOf, toNat_numberOf]
  have hsame : numberOf frame = numberOf frame' ↔ frame % 0x4000 = frame' % 0x4000 := by
    rw [← UInt16.toNat_inj, toNat_numberOf, toNat_numberOf]
  have hhalf : (maxNumber >>> 1).toNat = 0x1fff := rfl
  rw [isLater, Bool.and_eq_true, bne_iff_ne, decide_eq_true_iff, ne_eq, hsame,
    UInt16.lt_iff_toNat_lt, hahead, hhalf]
  unfold window
  omega

theorem isLater_numberOf {frame frame' : Nat} (h : frame ≤ frame' + window)
    (h' : frame' ≤ frame + window) :
    isLater (numberOf frame) (numberOf frame') = decide (frame' < frame) := by
  have hiff : isLater (numberOf frame) (numberOf frame') = true ↔ _ :=
    isLater_numberOf_iff (by unfold window at h; omega) (by unfold window at h'; omega)
  rw [Bool.eq_iff_iff, hiff, decide_eq_true_iff]
  exact and_iff_left h

end UsbHost.Frame
