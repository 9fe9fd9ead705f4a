import UsbHost.Proofs.Dma.Layout
import UsbHost.Ring.Basic

/-!
Where shared memory comes to lie. The allocator knows nothing of boundaries; it is only asked for
an alignment. Of two powers of two the smaller one divides the larger one, so a block that is
aligned to a power of two, and not larger than it, stays between two neighbouring multiples of every
larger power. This is why the alignment that a layout asks for keeps the memory inside its window,
whichever address the allocator chooses, also when the size is the boundary itself, and when the
caller wants more alignment than that.
-/

namespace UsbHost.Dma

variable {size align boundary address : Nat}

/-! ### Windows -/

/-- A multiple of the boundary lies inside the block of `size` bytes at `address`. -/
def Crosses (boundary address size : Nat) : Prop :=
  ∃ m, boundary ∣ m ∧ address < m ∧ m < address + size

/-- Of two powers of two the smaller one divides the larger one. -/
theorem dvd_of_isPowerOfTwo {m n : Nat} (hm : m.isPowerOfTwo) (hn : n.isPowerOfTwo) (h : m ≤ n) :
    m ∣ n := by
  obtain ⟨i, rfl⟩ := hm
  obtain ⟨k, rfl⟩ := hn
  exact Nat.pow_dvd_pow 2 ((Nat.pow_le_pow_iff_right (by decide)).1 h)

theorem isPowerOfTwo_max {m n : Nat} (hm : m.isPowerOfTwo) (hn : n.isPowerOfTwo) :
    (max m n).isPowerOfTwo := by
  rcases Nat.le_total m n with h | h
  · rwa [Nat.max_eq_right h]
  · rwa [Nat.max_eq_left h]

/-- An aligned block that is not larger than its alignment crosses none of its multiples. -/
theorem not_crosses_of_dvd {window : Nat} (hsize : size ≤ window) (haddress : window ∣ address)
    (hboundary : window ∣ boundary) : ¬ Crosses boundary address size := by
  rintro ⟨m, hm, hbelow, habove⟩
  -- A multiple of the boundary is one of the window, and so a window away from the address.
  have hdvd : window ∣ m - address := Nat.dvd_sub (Nat.dvd_trans hboundary hm) haddress
  have hle : window ≤ m - address := Nat.le_of_dvd (by omega) hdvd
  omega

/-- A block that does not cross the boundary ends in the window that it starts in. -/
theorem end_le_of_not_crosses (hpos : 0 < boundary) (h : ¬ Crosses boundary address size) :
    address + size ≤ (address / boundary + 1) * boundary := by
  refine Nat.le_of_not_lt fun hend => h ⟨_, Nat.dvd_mul_left _ _, ?_, hend⟩
  rw [Nat.mul_comm]
  exact Nat.lt_mul_div_succ address hpos

namespace Layout

/-- The allocator may put a block with this layout at `address`. -/
def Admits (layout : Layout) (address : Nat) : Prop := layout.align ∣ address

instance (layout : Layout) (address : Nat) : Decidable (layout.Admits address) :=
  inferInstanceAs (Decidable (_ ∣ _))

/-! ### What is asked for -/

theorem isPowerOfTwo_requested (size boundary : Nat) (halign : align.isPowerOfTwo) :
    (requested size align boundary).align.isPowerOfTwo := by
  refine isPowerOfTwo_max (isPowerOfTwo_max halign ⟨0, rfl⟩) ?_
  split
  · exact ⟨0, rfl⟩
  · exact Nat.isPowerOfTwo_nextPowerOfTwo size

theorem align_dvd_requested (halign : align.isPowerOfTwo) :
    align ∣ (requested size align boundary).align :=
  dvd_of_isPowerOfTwo halign (isPowerOfTwo_requested size boundary halign)
    (Nat.le_trans (Nat.le_max_left align 1) (Nat.le_max_left _ _))

theorem nextPowerOfTwo_dvd_requested (halign : align.isPowerOfTwo) (hboundary : boundary ≠ 0) :
    size.nextPowerOfTwo ∣ (requested size align boundary).align := by
  refine dvd_of_isPowerOfTwo (Nat.isPowerOfTwo_nextPowerOfTwo size)
    (isPowerOfTwo_requested size boundary halign) ?_
  rw [requested, if_neg hboundary]
  exact Nat.le_max_right _ _

theorem isAllocatable_iff {layout : Layout} (h : layout.align.isPowerOfTwo) :
    layout.isAllocatable = true ↔ layout.size + layout.align ≤ maxSize := by
  obtain ⟨k, hk⟩ := h
  simp [isAllocatable, hk]

/-- Wherever the block comes to lie, it is aligned, and inside one window. -/
theorem kept_of_requested (halign : align.isPowerOfTwo)
    (hboundary : boundary = 0 ∨ boundary.isPowerOfTwo) (hroom : boundary = 0 ∨ size ≤ boundary)
    (haddress : (requested size align boundary).Admits address) :
    align ∣ address ∧ (boundary ≠ 0 → ¬ Crosses boundary address size) := by
  refine ⟨Nat.dvd_trans (align_dvd_requested halign) haddress, fun hne => ?_⟩
  have hpower : boundary.isPowerOfTwo := hboundary.resolve_left hne
  -- The boundary is itself a power of two that is not below the size, if not the least one.
  have hwindow : size.nextPowerOfTwo ≤ boundary := by
    obtain ⟨k, rfl⟩ := hpower
    exact nextPowerOfTwo_le (hroom.resolve_left hne)
  exact not_crosses_of_dvd (le_nextPowerOfTwo size)
    (Nat.dvd_trans (nextPowerOfTwo_dvd_requested halign hne) haddress)
    (dvd_of_isPowerOfTwo (Nat.isPowerOfTwo_nextPowerOfTwo size) hpower hwindow)

/-! ### What is answered -/

/-- The answers to a request for memory. What is refused has no bytes, or more than the boundary
has room for, or more than the allocator can span. -/
inductive Answers (size align boundary : Nat) : Except Fault (Except Error Layout) → Prop
  | empty (h : size = 0) : Answers size align boundary
      (.ok (.error (.invalidArgument "size" "DMA buffer must not be empty")))
  | beyond (hpos : 0 < size) (hboundary : boundary ≠ 0) (h : boundary < size) :
      Answers size align boundary
        (.ok (.error (.invalidArgument "size" "larger than DMA boundary")))
  | unallocatable (hpos : 0 < size) (hroom : boundary = 0 ∨ size ≤ boundary)
      (h : maxSize < size + (requested size align boundary).align) : Answers size align boundary
        (.ok (.error (.invalidArgument "align" "not a power of two")))
  | granted (hpos : 0 < size) (hroom : boundary = 0 ∨ size ≤ boundary)
      (h : size + (requested size align boundary).align ≤ maxSize) :
      Answers size align boundary (.ok (.ok (requested size align boundary)))

theorem make_zero (align boundary : Nat) : (make 0 align boundary).run =
    .ok (.error (.invalidArgument "size" "DMA buffer must not be empty")) := rfl

theorem make_of_lt (align : Nat) (hboundary : boundary ≠ 0) (h : boundary < size) :
    (make size align boundary).run =
      .ok (.error (.invalidArgument "size" "larger than DMA boundary")) := by
  have hpos : size ≠ 0 := by omega
  unfold make
  simp only [if_neg hpos, hboundary, h, ne_eq, not_false_eq_true, decide_true, Bool.and_self,
    if_true]
  rfl

theorem answers_make (size : Nat) (halign : align.isPowerOfTwo)
    (hboundary : boundary = 0 ∨ boundary.isPowerOfTwo) (hword : boundary < UInt64.size) :
    Answers size align boundary (make size align boundary).run := by
  rcases Nat.eq_zero_or_pos size with rfl | hpos
  · rw [make_zero]
    exact .empty rfl
  by_cases hbeyond : boundary ≠ 0 ∧ boundary < size
  · rw [make_of_lt align hbeyond.1 hbeyond.2]
    exact .beyond hpos hbeyond.1 hbeyond.2
  have hroom : boundary = 0 ∨ size ≤ boundary := by omega
  -- Rounding the size up cannot overflow, since it comes to the boundary at most.
  have hwindow : boundary = 0 ∨ size ≤ boundary ∧ size.nextPowerOfTwo < UInt64.size := by
    refine hroom.imp_right fun hle => ⟨hle, ?_⟩
    obtain ⟨k, rfl⟩ := hboundary.resolve_left (by omega)
    exact Nat.lt_of_le_of_lt (nextPowerOfTwo_le hle) hword
  rw [make_run hpos hwindow]
  have hallocatable := isAllocatable_iff (isPowerOfTwo_requested size boundary halign)
  split
  · rename_i h
    exact .granted hpos hroom (hallocatable.1 h)
  · rename_i h
    exact .unallocatable hpos hroom (Nat.lt_of_not_le fun hle => h (hallocatable.2 hle))

end Layout

end UsbHost.Dma

namespace UsbHost.Ring

open Dma (structureAlign structureBoundary)

variable {count address : Nat} {placed : Dma.Layout}

/-- The TRBs of a ring lie one behind the other inside one window, from an aligned address on. -/
theorem exists_window (h : (layout count).run = .ok (.ok placed))
    (haddress : placed.Admits address) :
    structureAlign ∣ address ∧ ∃ window, ∀ index < count,
      window * structureBoundary ≤ address + index * Trb.byteSize ∧
        address + (index + 1) * Trb.byteSize ≤ (window + 1) * structureBoundary := by
  obtain ⟨hmin, hfour, hfits⟩ := layout_bounds h
  obtain rfl : .ofStructure (count * Trb.byteSize) = placed := by
    rw [layout_run hmin hfour hfits] at h
    cases h
    rfl
  have halign : structureAlign.isPowerOfTwo := ⟨6, rfl⟩
  have hboundary : structureBoundary.isPowerOfTwo := ⟨16, rfl⟩
  obtain ⟨haligned, hinside⟩ :=
    Dma.Layout.kept_of_requested halign (.inr hboundary) (.inr hfits) haddress
  refine ⟨haligned, address / structureBoundary, fun index hindex => ⟨?_, ?_⟩⟩
  · exact Nat.le_trans (Nat.div_mul_le_self _ _) (Nat.le_add_right _ _)
  · calc address + (index + 1) * Trb.byteSize
      _ ≤ address + count * Trb.byteSize :=
        Nat.add_le_add_left (Nat.mul_le_mul_right _ hindex) address
      _ ≤ (address / structureBoundary + 1) * structureBoundary :=
        Dma.end_le_of_not_crosses (by decide) (hinside (by decide))

/-- A ring has the places that it has been asked for, whoever produces it. -/
@[simp] theorem size_trbs_create (kind : Kind) (base : UInt64) :
    (create kind count base).trbs.size = count := by
  unfold create
  split
  · exact (Array.size_setIfInBounds ..).trans Array.size_replicate
  · exact Array.size_replicate

/-- The last place of a ring that is read by the controller is the Link TRB's. -/
theorem back?_trbs_create {kind : Kind} (hkind : kind.isProducer = true) (hpos : 0 < count)
    (base : UInt64) : (create kind count base).trbs.back? = some (.link base) := by
  have hlast : count - 1 < (Array.replicate count Trb.blank).size := by
    rw [Array.size_replicate]
    omega
  rw [Array.back?_eq_getElem?, size_trbs_create, create, if_pos hkind]
  exact Array.getElem?_setIfInBounds_self_of_lt hlast

end UsbHost.Ring

namespace UsbHost.Dma

/-- A request for memory is answered as its size, alignment and boundary say, and every address that
the allocator may choose for a layout keeps to alignment and boundary. So the TRBs of every ring,
the Link TRB among them, lie inside one window of 64 KiB. -/
theorem memory_stays_inside_window :
    (∀ size align boundary : Nat, align.isPowerOfTwo → boundary = 0 ∨ boundary.isPowerOfTwo →
      boundary < UInt64.size →
      Layout.Answers size align boundary (Layout.make size align boundary).run ∧
      ∀ layout, (Layout.make size align boundary).run = .ok (.ok layout) →
        ∀ address, layout.Admits address →
          align ∣ address ∧ (boundary ≠ 0 → ¬ Crosses boundary address size)) ∧
    ∀ (kind : Ring.Kind) (count : Nat) (base : UInt64) (placed : Layout),
      (Ring.layout count).run = .ok (.ok placed) → ∀ address, placed.Admits address →
      let ring := Ring.create kind count base
      structureAlign ∣ address ∧
      (∃ window, ∀ index < ring.trbs.size,
        window * structureBoundary ≤ address + index * Trb.byteSize ∧
          address + (index + 1) * Trb.byteSize ≤ (window + 1) * structureBoundary) ∧
      (kind.isProducer = true → ring.trbs.back? = some (.link base)) := by
  constructor
  · intro size align boundary halign hboundary hword
    have hanswers := Layout.answers_make size halign hboundary hword
    refine ⟨hanswers, fun layout hrun address haddress => ?_⟩
    rw [hrun] at hanswers
    cases hanswers with
    | granted hpos hroom h => exact Layout.kept_of_requested halign hboundary hroom haddress
  · intro kind count base placed hplaced address haddress ring
    obtain ⟨haligned, hwindow⟩ := Ring.exists_window hplaced haddress
    have hpos : 0 < count :=
      Nat.lt_of_lt_of_le (by decide) (Ring.layout_bounds hplaced).1
    refine ⟨haligned, ?_, fun hkind => Ring.back?_trbs_create hkind hpos base⟩
    rwa [Ring.size_trbs_create]

/-- A block that fills its window, at more than the alignment it needs, and the longest command
ring. -/
theorem memory_stays_inside_window_filled :
    (Layout.make 0x10000 0x20000 0x10000).run = .ok (.ok ⟨0x10000, 0x20000⟩) ∧
    Layout.Admits ⟨0x10000, 0x20000⟩ 0x60000 ∧ ¬ Crosses 0x10000 0x60000 0x10000 ∧
    (Ring.layout 4096).run = .ok (.ok ⟨0x10000, 0x10000⟩) ∧
    Layout.Admits ⟨0x10000, 0x10000⟩ 0x30000 ∧
    ∃ window, ∀ index < (Ring.create .command 4096 0).trbs.size,
      window * structureBoundary ≤ 0x30000 + index * Trb.byteSize ∧
        0x30000 + (index + 1) * Trb.byteSize ≤ (window + 1) * structureBoundary := by
  have hmake : (Layout.make 0x10000 0x20000 0x10000).run = .ok (.ok ⟨0x10000, 0x20000⟩) := by cbv
  have hlayout : (Ring.layout 4096).run = .ok (.ok ⟨0x10000, 0x10000⟩) := by cbv
  have hblock := memory_stays_inside_window.1 0x10000 0x20000 0x10000 ⟨17, rfl⟩ (.inr ⟨16, rfl⟩)
    (by decide)
  have hring := memory_stays_inside_window.2 .command 4096 0 _ hlayout 0x30000 (by decide)
  exact ⟨hmake, by decide, (hblock.2 _ hmake 0x60000 (by decide)).2 (by decide), hlayout,
    by decide, hring.2.1⟩

end UsbHost.Dma
