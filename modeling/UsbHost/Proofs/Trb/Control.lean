import UsbHost.Trb.Build

/-!
The control word bit by bit. Software and controller communicate through single bits of the
control word: bit 0 is the cycle bit, bit 1 tells on a Link TRB that the cycle state flips, bit 4
chains a TRB to the next one, and the bits from 10 to 15 hold the type. Reading and writing one
flag is reading and writing one bit, so that a flag and everything else in the word do not see
each other.
-/

namespace UsbHost.Trb

/-- Bit `i` of the control word. -/
def bit (t : Trb) (i : Nat) : Bool := t.control.toBitVec.getLsbD i

/-- The flag `f` is the single bit `k` of a word. -/
structure Flags.IsBit (f : Flags) (k : Nat) : Prop where
  lt : k < 32
  eq_twoPow : f.bits.toBitVec = BitVec.twoPow 32 k

namespace Flags

theorem cycle_isBit : cycle.IsBit 0 := ⟨by decide, rfl⟩

theorem toggleCycle_isBit : toggleCycle.IsBit 1 := ⟨by decide, rfl⟩

theorem chain_isBit : chain.IsBit 4 := ⟨by decide, rfl⟩

theorem IsBit.ne_zero {f : Flags} {k : Nat} (hf : f.IsBit k) : BitVec.twoPow 32 k ≠ 0 := by
  intro h
  have hnat := congrArg BitVec.toNat h
  rw [BitVec.toNat_twoPow_of_lt hf.lt] at hnat
  exact Nat.ne_of_gt (Nat.two_pow_pos k) hnat

/-- Masking a word with a one-bit flag leaves nothing exactly when the bit is clear. -/
theorem IsBit.and_eq_zero {f : Flags} {k : Nat} (hf : f.IsBit k) (w : UInt32) :
    w &&& f.bits = 0 ↔ w.toBitVec.getLsbD k = false := by
  rw [← UInt32.toBitVec_inj, UInt32.toBitVec_and, hf.eq_twoPow, BitVec.and_twoPow]
  cases w.toBitVec.getLsbD k with
  | false => simp
  | true => simpa using hf.ne_zero

/-- Masking a word with a one-bit flag leaves the flag exactly when the bit is set. -/
theorem IsBit.and_eq_self {f : Flags} {k : Nat} (hf : f.IsBit k) (w : UInt32) :
    w &&& f.bits = f.bits ↔ w.toBitVec.getLsbD k = true := by
  rw [← UInt32.toBitVec_inj, UInt32.toBitVec_and, hf.eq_twoPow, BitVec.and_twoPow]
  cases w.toBitVec.getLsbD k with
  | false => simpa using hf.ne_zero.symm
  | true => simp

end Flags

/-! ### Reading flags -/

theorem cycle_eq_bit (t : Trb) : t.cycle = t.bit 0 := by
  rw [Bool.eq_iff_iff, cycle, bne_iff_ne, ne_eq, Flags.cycle_isBit.and_eq_zero, bit]
  simp

/-- A defined flag of one bit is in the flags of a TRB exactly when its bit is set. -/
theorem flags_contains {f : Flags} {k : Nat} (hf : f.IsBit k)
    (hdefined : Flags.defined &&& f.bits = f.bits) (t : Trb) :
    t.flags.contains f = t.bit k := by
  rw [Bool.eq_iff_iff, flags, Flags.ofBits, Flags.contains, beq_iff_eq, UInt32.and_assoc,
    hdefined, hf.and_eq_self, bit]

theorem contains_chain (t : Trb) : t.flags.contains .chain = t.bit 4 :=
  flags_contains Flags.chain_isBit rfl t

theorem contains_toggleCycle (t : Trb) : t.flags.contains .toggleCycle = t.bit 1 :=
  flags_contains Flags.toggleCycle_isBit rfl t

/-- The type of a TRB is held by the bits from 10 to 15. -/
theorem kind?_eq_of_bit {t u : Trb} (h : ∀ i, 10 ≤ i → i < 16 → t.bit i = u.bit i) :
    t.kind? = u.kind? := by
  have hword : t.control >>> 10 &&& (0x3f : UInt32) = u.control >>> 10 &&& (0x3f : UInt32) := by
    rw [← UInt32.toBitVec_inj]
    apply BitVec.eq_of_getLsbD_eq
    intro i _
    have hmask : (63#32).getLsbD i = decide (i < 6) := by
      revert i
      decide
    rcases Nat.lt_or_ge i 6 with hi | hi
    · have hbit := h (10 + i) (by omega) (by omega)
      rw [bit, bit] at hbit
      simp [hbit]
    · simp [hmask, Nat.not_lt.2 hi]
  rw [kind?, kind?, rawKind, rawKind, hword]

/-- Two TRBs agree if they do outside the control word and in every bit of it. -/
theorem ext_bit {t u : Trb} (hp : t.parameter = u.parameter) (hs : t.status = u.status)
    (hbit : ∀ i, i < 32 → t.bit i = u.bit i) : t = u := by
  obtain ⟨_, _, tc⟩ := t
  obtain ⟨_, _, uc⟩ := u
  have hc : tc = uc := by
    rw [← UInt32.toBitVec_inj]
    exact BitVec.eq_of_getLsbD_eq fun i hi => hbit i hi
  rw [Trb.mk.injEq]
  exact ⟨hp, hs, hc⟩

/-! ### Writing flags -/

/-- Writing a one-bit flag writes that bit and no other. -/
theorem bit_withFlag {f : Flags} {k : Nat} (hf : f.IsBit k) (t : Trb) (on : Bool) (i : Nat) :
    (t.withFlag f on).bit i = if i = k then on else t.bit i := by
  rcases Nat.lt_or_ge i 32 with hi | hi
  · by_cases hik : i = k <;> cases on <;> simp [withFlag, bit, hf.eq_twoPow, hf.lt, hi, hik]
  · have hik : i ≠ k := by
      have := hf.lt
      omega
    simp [bit, BitVec.getLsbD_of_ge _ _ hi, hik]

@[simp] theorem bit_withCycle (t : Trb) (on : Bool) (i : Nat) :
    (t.withCycle on).bit i = if i = 0 then on else t.bit i :=
  bit_withFlag Flags.cycle_isBit t on i

@[simp] theorem bit_withChain (t : Trb) (on : Bool) (i : Nat) :
    (t.withChain on).bit i = if i = 4 then on else t.bit i :=
  bit_withFlag Flags.chain_isBit t on i

@[simp] theorem cycle_withCycle (t : Trb) (on : Bool) : (t.withCycle on).cycle = on := by
  simp [cycle_eq_bit, bit_withCycle]

@[simp] theorem contains_chain_withCycle (t : Trb) (on : Bool) :
    (t.withCycle on).flags.contains .chain = t.flags.contains .chain := by
  simp [contains_chain, bit_withCycle]

@[simp] theorem contains_chain_withChain (t : Trb) (on : Bool) :
    (t.withChain on).flags.contains .chain = on := by
  simp [contains_chain, bit_withChain]

@[simp] theorem contains_toggleCycle_withCycle (t : Trb) (on : Bool) :
    (t.withCycle on).flags.contains .toggleCycle = t.flags.contains .toggleCycle := by
  simp [contains_toggleCycle, bit_withCycle]

@[simp] theorem contains_toggleCycle_withChain (t : Trb) (on : Bool) :
    (t.withChain on).flags.contains .toggleCycle = t.flags.contains .toggleCycle := by
  simp [contains_toggleCycle, bit_withChain]

@[simp] theorem kind?_withCycle (t : Trb) (on : Bool) : (t.withCycle on).kind? = t.kind? := by
  apply kind?_eq_of_bit
  intro i hi _
  rw [bit_withCycle, if_neg (by omega)]

@[simp] theorem kind?_withChain (t : Trb) (on : Bool) : (t.withChain on).kind? = t.kind? := by
  apply kind?_eq_of_bit
  intro i hi _
  rw [bit_withChain, if_neg (by omega)]

/-- The fields in the upper half of the control word do not see the cycle bit. -/
theorem shiftRight_withCycle (t : Trb) (on : Bool) {k : UInt32} (hk : k = 16 ∨ k = 24) :
    (t.withCycle on).control >>> k = t.control >>> k := by
  rw [← UInt32.toBitVec_inj]
  apply BitVec.eq_of_getLsbD_eq
  intro i _
  have hbit : ∀ j, 0 < j → (t.withCycle on).bit j = t.bit j := fun j hj => by
    rw [bit_withCycle, if_neg (by omega)]
  rcases hk with rfl | rfl
  · simpa [bit] using hbit (16 + i) (by omega)
  · simpa [bit] using hbit (24 + i) (by omega)

@[simp] theorem slot_withCycle (t : Trb) (on : Bool) : (t.withCycle on).slot = t.slot := by
  rw [slot, shiftRight_withCycle t on (.inr rfl), slot]

/-- The last write of the cycle bit counts. -/
@[simp] theorem withCycle_withCycle (t : Trb) (a b : Bool) :
    (t.withCycle a).withCycle b = t.withCycle b := by
  refine ext_bit rfl rfl fun i _ => ?_
  simp only [bit_withCycle]
  split <;> rfl

/-! ### The Link TRB of a ring -/

@[simp] theorem kind?_link (target : UInt64) : (link target).kind? = some .link := by
  change Kind.ofCode? (((Kind.link.controlBits ||| Flags.toggleCycle.bits) >>> 10) &&&
    0x3f).toUInt8 = _
  decide

@[simp] theorem contains_toggleCycle_link (target : UInt64) :
    (link target).flags.contains .toggleCycle = true := by
  change (Flags.ofBits (Kind.link.controlBits ||| Flags.toggleCycle.bits)).contains _ = _
  decide

@[simp] theorem cycle_link (target : UInt64) : (link target).cycle = false := by
  change ((Kind.link.controlBits ||| Flags.toggleCycle.bits) &&& Flags.cycle.bits != 0) = _
  decide

/-! ### The type of a command -/

/-- Bits outside its field do not change the type. -/
theorem kind?_or_control {t : Trb} {x : UInt32}
    (hx : ∀ i < 16, 10 ≤ i → x.toBitVec.getLsbD i = false) :
    ({ t with control := t.control ||| x } : Trb).kind? = t.kind? := by
  apply kind?_eq_of_bit
  intro i hi hi'
  rw [bit, UInt32.toBitVec_or, BitVec.getLsbD_or, hx i hi' hi, Bool.or_false, bit]

@[simp] theorem kind?_controlBits (kind : Kind) (parameter : UInt64) (status : UInt32) :
    (⟨parameter, status, kind.controlBits⟩ : Trb).kind? = some kind := by
  change Kind.ofCode? ((kind.controlBits >>> 10) &&& 0x3f).toUInt8 = _
  cases kind <;> decide

theorem kind?_command (kind : Kind) (parameter : UInt64) (slot : UInt8) {flags : Flags}
    (hflags : ∀ i < 16, 10 ≤ i → flags.bits.toBitVec.getLsbD i = false) :
    (command kind parameter slot flags).kind? = some kind := by
  rw [← kind?_controlBits kind parameter 0]
  apply kind?_eq_of_bit
  intro i hi hi'
  have hslot : i < 24 := by omega
  simp [bit, command, hflags i hi' hi, hslot]

end UsbHost.Trb
