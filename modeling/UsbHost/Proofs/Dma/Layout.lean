import Mathlib.Algebra.Group.Nat.Defs
import UsbHost.Proofs.Ring.Positions

/-!
Layouts of shared memory. The alignment that keeps a block inside one window is the least power of
two that is not below its size. So every structure of at most 64 KiB has a layout, whose alignment
is at most 64 KiB as well, and a ring has one exactly if its TRBs fill at most 64 KiB.
-/

open private Nat.nextPowerOfTwo.go from Init.Data.Nat.Power2.Basic

namespace UsbHost.Dma

/-! ### The next power of two -/

/-- The search goes from one power to the next, until `n` is reached. -/
theorem nextPowerOfTwo_step (n power : Nat) (h : 0 < power) :
    Nat.nextPowerOfTwo.go n power h =
      if power < n then Nat.nextPowerOfTwo.go n (power * 2) (Nat.mul_pos h (by decide))
      else power := by
  rw [Nat.nextPowerOfTwo.go]

theorem le_search (n power : Nat) (h : 0 < power) : n ≤ Nat.nextPowerOfTwo.go n power h := by
  rw [nextPowerOfTwo_step]
  split
  · exact le_search n (power * 2) _
  · rename_i hle
    exact Nat.le_of_not_lt hle
termination_by n - power

/-- The search does not pass a power that is not below `n`. -/
theorem search_le {n i k : Nat} (hi : i ≤ k) (hn : n ≤ 2 ^ k) (h : 0 < 2 ^ i) :
    Nat.nextPowerOfTwo.go n (2 ^ i) h ≤ 2 ^ k := by
  rw [nextPowerOfTwo_step]
  split
  · rename_i hlt
    have hsucc : i + 1 ≤ k := (Nat.pow_lt_pow_iff_right (by decide)).1 (Nat.lt_of_lt_of_le hlt hn)
    simp only [← Nat.pow_succ]
    exact search_le hsucc hn _
  · exact Nat.pow_le_pow_right (by decide) hi
termination_by k - i

theorem le_nextPowerOfTwo (n : Nat) : n ≤ n.nextPowerOfTwo := le_search n 1 _

theorem nextPowerOfTwo_le {n k : Nat} (h : n ≤ 2 ^ k) : n.nextPowerOfTwo ≤ 2 ^ k :=
  search_le (Nat.zero_le k) h (by decide)

@[simp] theorem nextPowerOfTwo_two_pow (k : Nat) : (2 ^ k).nextPowerOfTwo = 2 ^ k :=
  Nat.le_antisymm (nextPowerOfTwo_le (Nat.le_refl _)) (le_nextPowerOfTwo _)

/-! ### Layouts -/

namespace Layout

/-- The layout of a structure: as many bytes as asked for, in a window that it does not leave. -/
def ofStructure (size : Nat) : Layout := ⟨size, max structureAlign size.nextPowerOfTwo⟩

theorem exists_align_ofStructure {size : Nat} (h : size ≤ structureBoundary) :
    ∃ k, (ofStructure size).align = 2 ^ k ∧ 2 ^ k ≤ structureBoundary := by
  obtain ⟨k, hk⟩ := Nat.isPowerOfTwo_nextPowerOfTwo size
  have hle : size.nextPowerOfTwo ≤ 2 ^ 16 := nextPowerOfTwo_le h
  rcases Nat.le_total structureAlign size.nextPowerOfTwo with hcase | hcase
  · exact ⟨k, (Nat.max_eq_right hcase).trans hk, hk ▸ hle⟩
  · exact ⟨6, Nat.max_eq_left hcase, by decide⟩

theorem isAllocatable_ofStructure {size : Nat} (h : size ≤ structureBoundary) :
    (ofStructure size).isAllocatable = true := by
  obtain ⟨k, hk, hle⟩ := exists_align_ofStructure h
  have hsize : (ofStructure size).size + (ofStructure size).align ≤ maxSize := calc
    _ ≤ structureBoundary + structureBoundary := Nat.add_le_add h (hk ▸ hle)
    _ ≤ maxSize := by decide
  rw [isAllocatable, hk, nextPowerOfTwo_two_pow, ← hk, decide_eq_true hsize, beq_self_eq_true]
  rfl

/-- The layout that stands for a request. -/
def requested (size align boundary : Nat) : Layout :=
  ⟨size, max (max align 1) (if boundary = 0 then 1 else size.nextPowerOfTwo)⟩

/-- A size that the boundary has room for is granted if its layout can be allocated. -/
theorem make_run {size align boundary : Nat} (hpos : 0 < size)
    (hroom : boundary = 0 ∨ size ≤ boundary ∧ size.nextPowerOfTwo < UInt64.size) :
    (make size align boundary).run =
      if (requested size align boundary).isAllocatable then
        .ok (.ok (requested size align boundary))
      else .ok (.error (.invalidArgument "align" "not a power of two")) := by
  have hfinish : ∀ window, window = (if boundary = 0 then 1 else size.nextPowerOfTwo) →
      (if (!Layout.isAllocatable ⟨size, max (max align 1) window⟩) = true then
        throw (.invalidArgument "align" "not a power of two")
      else pure ⟨size, max (max align 1) window⟩ : Attempt Layout).run =
      if (requested size align boundary).isAllocatable then
        .ok (.ok (requested size align boundary))
      else .ok (.error (.invalidArgument "align" "not a power of two")) := by
    rintro _ rfl
    unfold requested
    cases Layout.isAllocatable _ <;> rfl
  unfold make
  rcases hroom with rfl | ⟨hle, hword⟩
  · simp only [if_neg (Nat.ne_of_gt hpos)]
    exact hfinish 1 rfl
  · have hboundary : boundary ≠ 0 := by omega
    have hwindow : windowFor size = .ok size.nextPowerOfTwo := if_pos hword
    simp only [if_neg (Nat.ne_of_gt hpos), Nat.not_lt.2 hle, decide_false, Bool.and_false,
      Bool.false_eq_true, if_false, if_neg hboundary, hwindow]
    exact hfinish _ (if_neg hboundary).symm

/-- Structures of up to 64 KiB have a layout. -/
theorem forStructure_run {size : Nat} (hpos : 0 < size) (h : size ≤ structureBoundary) :
    (forStructure size).run = .ok (.ok (ofStructure size)) := by
  have hlt : size.nextPowerOfTwo < UInt64.size :=
    Nat.lt_of_le_of_lt (nextPowerOfTwo_le (k := 16) h) (by decide)
  rw [forStructure, make_run hpos (.inr ⟨h, hlt⟩)]
  exact if_pos (isAllocatable_ofStructure h)

end Layout

end UsbHost.Dma

namespace UsbHost.Ring

variable {count : Nat}

theorem layout_run (hmin : Config.minRingSize ≤ count) (hfour : count % 4 = 0)
    (hfits : count * Trb.byteSize ≤ Dma.structureBoundary) :
    (layout count).run = .ok (.ok (.ofStructure (count * Trb.byteSize))) := by
  have hcheck : Config.checkRingSize "trb_count" count = .ok () :=
    Config.checkRingSize_eq_ok.2 ⟨hmin, hfour⟩
  have hword : ¬ UInt64.size ≤ count * Trb.byteSize :=
    Nat.not_le.2 (Nat.lt_of_le_of_lt hfits (by decide))
  have hpos : 0 < count * Trb.byteSize :=
    Nat.mul_pos (Nat.lt_of_lt_of_le (by decide) hmin) (by decide)
  unfold layout
  rw [hcheck]
  simp only [if_neg hword, if_neg (Nat.not_lt.2 hfits)]
  exact Dma.Layout.forStructure_run hpos hfits

/-- A ring has a layout exactly if it passes the check of its size and fills at most one
segment. -/
theorem exists_layout_iff :
    (∃ placed, (layout count).run = .ok (.ok placed)) ↔
      Config.minRingSize ≤ count ∧ count % 4 = 0 ∧
        count * Trb.byteSize ≤ Dma.structureBoundary :=
  ⟨fun ⟨_, h⟩ => layout_bounds h, fun ⟨hmin, hfour, hfits⟩ => ⟨_, layout_run hmin hfour hfits⟩⟩

end UsbHost.Ring
