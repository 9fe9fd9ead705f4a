import Mathlib.Algebra.Group.Nat.Defs
import UsbHost.Command.Trb
import UsbHost.Proofs.Trb.Control

/-!
What the driver writes into a TRB can be read out of it again. A draft names a builder and the
arguments it is called with. The fields of a control word share one number: flags take bits 0
to 9, the type bits 10 to 15, and the upper half belongs to the builder, which keeps a slot, an
endpoint, a transfer type or a direction there. As long as the arguments of a draft fit their
fields, the three parts do not see each other, and each reader finds what was put in.
-/

namespace UsbHost

/-! ### Setup packets -/

namespace Setup

/-- The packet that a little-endian number stands for. -/
def ofPacked (word : UInt64) : Setup :=
  ⟨word.toUInt8, (word >>> 8).toUInt8, (word >>> 16).toUInt16, (word >>> 32).toUInt16,
    (word >>> 48).toUInt16⟩

/-- A number shifted above another one is added to it. -/
theorem or_shiftLeft_eq_add {low high k : Nat} (h : low < 2 ^ k) :
    low ||| high <<< k = low + high * 2 ^ k := by
  rw [Nat.or_comm, ← Nat.shiftLeft_add_eq_or_of_lt h, Nat.shiftLeft_eq, Nat.add_comm]

/-- The five fields lie side by side. -/
theorem toNat_packed (s : Setup) :
    s.packed.toNat = s.requestType.toNat + s.request.toNat * 2 ^ 8 + s.value.toNat * 2 ^ 16 +
      s.index.toNat * 2 ^ 32 + s.length.toNat * 2 ^ 48 := by
  have := s.requestType.toNat_lt
  have := s.request.toNat_lt
  have := s.value.toNat_lt
  have := s.index.toNat_lt
  have := s.length.toNat_lt
  simp only [packed, UInt64.toNat_or, UInt64.toNat_shiftLeft, UInt8.toNat_toUInt64,
    UInt16.toNat_toUInt64]
  change s.requestType.toNat ||| s.request.toNat <<< 8 % 2 ^ 64 |||
    s.value.toNat <<< 16 % 2 ^ 64 ||| s.index.toNat <<< 32 % 2 ^ 64 |||
    s.length.toNat <<< 48 % 2 ^ 64 = _
  repeat rw [Nat.mod_eq_of_lt (by rw [Nat.shiftLeft_eq]; omega)]
  rw [or_shiftLeft_eq_add (k := 8) (by omega), or_shiftLeft_eq_add (k := 16) (by omega),
    or_shiftLeft_eq_add (k := 32) (by omega), or_shiftLeft_eq_add (k := 48) (by omega)]

@[simp] theorem ofPacked_packed (s : Setup) : ofPacked s.packed = s := by
  have hpacked := s.toNat_packed
  generalize s.packed = word at *
  obtain ⟨requestType, request, value, index, length⟩ := s
  have := requestType.toNat_lt
  have := request.toNat_lt
  have := value.toNat_lt
  have := index.toNat_lt
  have := length.toNat_lt
  rw [ofPacked, Setup.mk.injEq]
  simp only [← UInt8.toNat_inj, ← UInt16.toNat_inj, UInt64.toNat_toUInt8, UInt64.toNat_toUInt16,
    UInt64.toNat_shiftRight, Nat.shiftRight_eq_div_pow] at *
  change _ ∧ _ / 2 ^ 8 % _ = _ ∧ _ / 2 ^ 16 % _ = _ ∧ _ / 2 ^ 32 % _ = _ ∧ _ / 2 ^ 48 % _ = _
  omega

end Setup

namespace Trb

/-! ### The status word -/

/-- Bytes of data that a TRB describes. -/
def dataLength (t : Trb) : Nat := (t.status &&& 0x1ffff).toNat

/-- The number of TRBs that follow in the TD, as a TRB tells it to the controller. -/
def tdSize (t : Trb) : Nat := (t.status >>> 17 &&& 0x1f).toNat

/-- The length takes 17 bits, and the number of TRBs that follow lies above it. -/
theorem toNat_dataStatus_of_lt {length remaining : UInt32} (h : length.toNat < 2 ^ 17) :
    (dataStatus length remaining).toNat = min remaining.toNat 31 * 0x20000 + length.toNat := by
  have hmin : (min remaining 31).toNat = min remaining.toNat 31 := by
    have hiff : remaining ≤ 31 ↔ remaining.toNat ≤ 31 := UInt32.le_iff_toNat_le
    change (if remaining ≤ 31 then remaining else 31).toNat = _
    by_cases hle : remaining.toNat ≤ 31
    · rw [if_pos (hiff.2 hle), Nat.min_eq_left hle]
    · rw [if_neg (mt hiff.1 hle), Nat.min_eq_right (by omega)]
      rfl
  have hhigh : min remaining.toNat 31 ≤ 31 := Nat.min_le_right _ _
  rw [dataStatus, UInt32.toNat_or, UInt32.toNat_shiftLeft, hmin]
  change length.toNat ||| (min remaining.toNat 31 <<< 17) % 2 ^ 32 = _
  rw [Nat.mod_eq_of_lt (by rw [Nat.shiftLeft_eq]; omega), Nat.or_comm,
    ← Nat.shiftLeft_add_eq_or_of_lt h, Nat.shiftLeft_eq]

theorem toNat_dataStatus {length remaining : UInt32} (h : length.toNat ≤ maxTransfer) :
    (dataStatus length remaining).toNat = min remaining.toNat 31 * 0x20000 + length.toNat :=
  toNat_dataStatus_of_lt (Nat.lt_of_le_of_lt h (by decide))

/-- Both fields of the status word are read back. -/
theorem fields_of_status {t : Trb} {length remaining : UInt32} (h : length.toNat < 2 ^ 17)
    (hstatus : t.status = dataStatus length remaining) :
    t.dataLength = length.toNat ∧ t.tdSize = min remaining.toNat 31 := by
  have hword : (dataStatus length remaining).toNat = _ := toNat_dataStatus_of_lt h
  have hhigh : min remaining.toNat 31 ≤ 31 := Nat.min_le_right _ _
  rw [dataLength, tdSize, UInt32.toNat_and, UInt32.toNat_and, UInt32.toNat_shiftRight, hstatus]
  change (dataStatus length remaining).toNat &&& 2 ^ 17 - 1 = _ ∧
    (dataStatus length remaining).toNat >>> 17 &&& 2 ^ 5 - 1 = _
  rw [Nat.and_two_pow_sub_one_eq_mod, Nat.and_two_pow_sub_one_eq_mod, Nat.shiftRight_eq_div_pow,
    hword]
  omega

/-! ### Drafts -/

/-- Transfer type of a Setup Stage TRB, as the controller reads it. -/
def transferType (t : Trb) : UInt32 := t.control >>> 16 &&& 3

theorem Flags.directionIn_isBit : Flags.directionIn.IsBit 16 := ⟨by decide, rfl⟩

theorem Flags.startAsap_isBit : Flags.startAsap.IsBit 31 := ⟨by decide, rfl⟩

/-- What the driver asks a builder for. -/
inductive Draft
  | normal (buffer : UInt64) (length remaining : UInt32) (flags : Flags)
  | isoch (buffer : UInt64) (length remaining : UInt32) (flags : Flags)
  | setupStage (setup : Setup) (transferType : UInt32) (flags : Flags)
  | dataStage (buffer : UInt64) (length : UInt32) (isIn : Bool) (flags : Flags)
  | statusStage (isIn : Bool) (flags : Flags)
  | link (target : UInt64)
  | command (kind : Kind) (parameter : UInt64) (slot : UInt8) (flags : Flags)
  | resetEndpoint (slot endpoint : UInt8)
  | stopEndpoint (slot endpoint : UInt8) (suspend : Bool)

namespace Draft

def build : Draft → Trb
  | normal buffer length remaining flags => .normal buffer length remaining flags
  | isoch buffer length remaining flags => .isoch buffer length remaining flags
  | setupStage setup transferType flags => .setupStage setup transferType flags
  | dataStage buffer length isIn flags => .dataStage buffer length isIn flags
  | statusStage isIn flags => .statusStage isIn flags
  | link target => .link target
  | command kind parameter slot flags => .command kind parameter slot flags
  | resetEndpoint slot endpoint => Command.resetEndpoint slot endpoint
  | stopEndpoint slot endpoint suspend => Command.stopEndpoint slot endpoint suspend

def kind : Draft → Kind
  | normal .. => .normal
  | isoch .. => .isoch
  | setupStage .. => .setupStage
  | dataStage .. => .dataStage
  | statusStage .. => .statusStage
  | link _ => .link
  | command kind .. => kind
  | resetEndpoint .. => .resetEndpoint
  | stopEndpoint .. => .stopEndpoint

def parameter : Draft → UInt64
  | normal buffer .. | isoch buffer .. | dataStage buffer .. => buffer
  | setupStage setup .. => setup.packed
  | link target => target
  | command _ parameter .. => parameter
  | statusStage .. | resetEndpoint .. | stopEndpoint .. => 0

/-- A setup stage counts the bytes of its packet. -/
def length : Draft → UInt32
  | normal _ length .. | isoch _ length .. | dataStage _ length .. => length
  | setupStage .. => Setup.byteSize
  | statusStage .. | link _ | command .. | resetEndpoint .. | stopEndpoint .. => 0

/-- TRBs that follow in the TD, where the builder is told. -/
def remaining : Draft → UInt32
  | normal _ _ remaining _ | isoch _ _ remaining _ => remaining
  | setupStage .. | dataStage .. | statusStage .. | link _ | command .. | resetEndpoint ..
  | stopEndpoint .. => 0

/-- The flags that the builder is given. -/
def given : Draft → Flags
  | normal _ _ _ flags | isoch _ _ _ flags | setupStage _ _ flags | dataStage _ _ _ flags
  | statusStage _ flags | command _ _ _ flags => flags
  | link _ | resetEndpoint .. | stopEndpoint .. => .none

/-- The flags below the type that the builder adds. -/
def own : Draft → Flags
  | setupStage .. => .immediateData
  | link _ => .toggleCycle
  | normal .. | isoch .. | dataStage .. | statusStage .. | command .. | resetEndpoint ..
  | stopEndpoint .. => .none

def startAsap? : Draft → Option Bool
  | isoch _ _ _ flags => some (flags.contains .startAsap)
  | _ => none

def isIn? : Draft → Option Bool
  | dataStage _ _ isIn _ | statusStage isIn _ => some isIn
  | _ => none

def transferType? : Draft → Option UInt32
  | setupStage _ transferType _ => some transferType
  | _ => none

def slot? : Draft → Option UInt8
  | command _ _ slot _ | resetEndpoint slot _ | stopEndpoint slot _ _ => some slot
  | _ => none

def endpoint? : Draft → Option UInt8
  | resetEndpoint _ endpoint | stopEndpoint _ endpoint _ => some endpoint
  | _ => none

/-- The bits below the type that have a name. -/
def lowFlags : UInt32 := 0x27f

/-- The flags that the builder leaves where they are: those of the low bits, and for a packet that
it goes out as soon as possible. -/
def flagMask : Draft → UInt32
  | isoch .. => lowFlags ||| Flags.startAsap.bits
  | normal .. | setupStage .. | dataStage .. | statusStage .. | link _ | command ..
  | resetEndpoint .. | stopEndpoint .. => lowFlags

/-- Every argument fits its field. -/
structure Fits (d : Draft) : Prop where
  length_lt : d.length.toNat < 2 ^ 17
  flags_eq : d.given.bits &&& d.flagMask = d.given.bits
  transferType_lt : ∀ transferType ∈ d.transferType?, transferType < 4
  endpoint_lt : ∀ endpoint ∈ d.endpoint?, endpoint < 32

/-- The readers find in the TRB what the draft says. -/
structure ReadIn (d : Draft) (t : Trb) : Prop where
  kind?_eq : t.kind? = some d.kind
  parameter_eq : t.parameter = d.parameter
  dataLength_eq : t.dataLength = d.length.toNat
  tdSize_eq : t.tdSize = min d.remaining.toNat 31
  flags_eq : ∀ i < 10, t.flags.bits.toBitVec.getLsbD i =
    (d.given ||| d.own).bits.toBitVec.getLsbD i
  startAsap_eq : ∀ on ∈ d.startAsap?, t.flags.contains .startAsap = on
  directionIn_eq : ∀ on ∈ d.isIn?, t.flags.contains .directionIn = on
  transferType_eq : ∀ transferType ∈ d.transferType?, t.transferType = transferType
  slot_eq : ∀ slot ∈ d.slot?, t.slot = slot
  endpoint_eq : ∀ endpoint ∈ d.endpoint?, t.endpoint = endpoint

/-! ### The three parts of the control word -/

/-- What the builder puts into the upper half of the control word. -/
def upper : Draft → UInt32
  | isoch _ _ _ flags => flags.bits &&& Flags.startAsap.bits
  | setupStage _ transferType _ => transferType <<< 16
  | dataStage _ _ isIn _ | statusStage isIn _ => if isIn then Flags.directionIn.bits else 0
  | command _ _ slot _ => slot.toUInt32 <<< 24
  | resetEndpoint slot endpoint => slot.toUInt32 <<< 24 ||| endpoint.toUInt32 <<< 16
  | stopEndpoint slot endpoint suspend =>
    slot.toUInt32 <<< 24 ||| endpoint.toUInt32 <<< 16 ||| if suspend then Command.suspendFlag else 0
  | normal .. | link _ => 0

variable {d : Draft}

theorem or_and_distrib (a b mask : UInt32) : (a ||| b) &&& mask = a &&& mask ||| b &&& mask := by
  rw [← UInt32.toBitVec_inj]
  exact BitVec.and_or_distrib_right

theorem bits_set_directionIn {flags : Flags} (h : flags.bits &&& lowFlags = flags.bits)
    (on : Bool) :
    (flags.set .directionIn on).bits =
      flags.bits ||| if on then Flags.directionIn.bits else 0 := by
  cases on with
  | true => rfl
  | false =>
    change flags.bits &&& ~~~Flags.directionIn.bits = flags.bits ||| 0
    rw [UInt32.or_zero, ← h, UInt32.and_assoc]
    rfl

theorem control_forEndpoint (kind : Kind) (slot endpoint : UInt8) :
    (Command.forEndpoint (.command kind 0 slot .none) endpoint).control =
      kind.controlBits ||| slot.toUInt32 <<< 24 ||| endpoint.toUInt32 <<< 16 := by
  change kind.controlBits ||| 0 ||| _ ||| _ = _
  rw [UInt32.or_zero]

/-- The control word is made of flags and type below, and what belongs to the builder above. -/
theorem control_build (h : d.Fits) :
    d.build.control =
      d.kind.controlBits ||| (d.given.bits &&& lowFlags ||| d.own.bits) ||| d.upper := by
  have hflags := h.flags_eq
  have hnone : Flags.none.bits = 0 := rfl
  have hempty : (0 &&& lowFlags : UInt32) = 0 := rfl
  cases d with
  | normal buffer length remaining flags =>
    rw [given, flagMask] at hflags
    simp only [given, own, upper, hflags, hnone, UInt32.or_zero]
    rfl
  | isoch buffer length remaining flags =>
    rw [given, flagMask] at hflags
    simp only [given, own, upper, hnone, UInt32.or_zero]
    rw [UInt32.or_assoc, UInt32.and_comm, UInt32.and_comm _ Flags.startAsap.bits,
      ← or_and_distrib, UInt32.and_comm, hflags]
    rfl
  | setupStage setup transferType flags =>
    rw [given, flagMask] at hflags
    rw [given, hflags, UInt32.or_comm flags.bits]
    rfl
  | dataStage buffer length isIn flags =>
    rw [given, flagMask] at hflags
    simp only [given, own, upper, hflags, hnone, UInt32.or_zero]
    rw [UInt32.or_assoc, ← bits_set_directionIn hflags]
    rfl
  | statusStage isIn flags =>
    rw [given, flagMask] at hflags
    simp only [given, own, upper, hflags, hnone, UInt32.or_zero]
    rw [UInt32.or_assoc, ← bits_set_directionIn hflags]
    rfl
  | link target =>
    simp only [given, own, upper, hnone, hempty, UInt32.or_zero, UInt32.zero_or]
    rfl
  | command kind parameter slot flags =>
    rw [given, flagMask] at hflags
    simp only [given, own, upper, hflags, hnone, UInt32.or_zero]
    rfl
  | resetEndpoint slot endpoint =>
    simp only [given, own, upper, hnone, hempty, UInt32.or_zero]
    rw [← UInt32.or_assoc, ← control_forEndpoint]
    rfl
  | stopEndpoint slot endpoint suspend =>
    simp only [given, own, upper, hnone, hempty, UInt32.or_zero]
    rw [← UInt32.or_assoc, ← UInt32.or_assoc, ← control_forEndpoint]
    cases suspend with
    | false =>
      rw [if_neg Bool.false_ne_true, UInt32.or_zero]
      rfl
    | true => rfl

/-! ### What the readers see -/

theorem bit_controlBits_eq_false (kind : Kind) {i : Nat} (hi : i < 10 ∨ 16 ≤ i) :
    kind.controlBits.toBitVec.getLsbD i = false := by
  have hcode : ∀ j, 6 ≤ j → kind.code.toBitVec.getLsbD j = false := by
    intro j hj
    have hshift : kind.code >>> 6 = 0 := by cases kind <;> rfl
    have hbit := congrArg (fun word : UInt8 => word.toBitVec.getLsbD (j - 6)) hshift
    simpa [Nat.add_sub_cancel' hj] using hbit
  rw [Kind.controlBits]
  rcases hi with hi | hi
  · simp [hi]
  · simp [hcode (i - 10) (by omega)]

theorem own_and_lowFlags (d : Draft) : d.own.bits &&& lowFlags = d.own.bits := by
  cases d <;> simp only [own] <;> decide

/-- A word has no bit outside a mask that it is cut to. -/
theorem bit_and_eq_false (word : UInt32) {mask : UInt32} {i : Nat}
    (hmask : mask.toBitVec.getLsbD i = false) : (word &&& mask).toBitVec.getLsbD i = false := by
  rw [UInt32.toBitVec_and, BitVec.getLsbD_and, hmask, Bool.and_false]

theorem bit_lower_eq_false (d : Draft) {i : Nat} (hlow : 10 ≤ i) (hi : i < 32) :
    (d.given.bits &&& lowFlags ||| d.own.bits).toBitVec.getLsbD i = false := by
  rw [← own_and_lowFlags, ← or_and_distrib]
  have hmask : ∀ i < 32, 10 ≤ i → lowFlags.toBitVec.getLsbD i = false := by decide
  exact bit_and_eq_false _ (hmask i hi hlow)

theorem bit_upper_eq_false (d : Draft) {i : Nat} (hi : i < 16) :
    d.upper.toBitVec.getLsbD i = false := by
  have hdirection : ∀ i < 16, Flags.directionIn.bits.toBitVec.getLsbD i = false := by decide
  have hasap : ∀ i < 16, Flags.startAsap.bits.toBitVec.getLsbD i = false := by decide
  have hsuspend : ∀ i < 16, Command.suspendFlag.toBitVec.getLsbD i = false := by decide
  have hslot : i < 24 := by omega
  cases d with
  | isoch buffer length remaining flags => exact bit_and_eq_false _ (hasap i hi)
  | dataStage buffer length isIn flags | statusStage isIn flags =>
    cases isIn <;> simp [upper, hdirection i hi]
  | stopEndpoint slot endpoint suspend =>
    cases suspend <;> simp [upper, hi, hslot, hsuspend i hi]
  | _ => simp [upper, hi, hslot]

/-- The bits below the type are flags. -/
theorem bit_build_of_lt (h : d.Fits) {i : Nat} (hi : i < 10) :
    d.build.bit i = (d.given.bits &&& lowFlags ||| d.own.bits).toBitVec.getLsbD i := by
  rw [bit, control_build h, UInt32.toBitVec_or, BitVec.getLsbD_or, UInt32.toBitVec_or,
    BitVec.getLsbD_or, bit_controlBits_eq_false _ (.inl hi), bit_upper_eq_false _ (by omega),
    Bool.false_or, Bool.or_false]

/-- The upper half belongs to the builder. -/
theorem bit_build_of_ge (h : d.Fits) {i : Nat} (hlow : 16 ≤ i) (hi : i < 32) :
    d.build.bit i = d.upper.toBitVec.getLsbD i := by
  rw [bit, control_build h, UInt32.toBitVec_or, BitVec.getLsbD_or, UInt32.toBitVec_or,
    BitVec.getLsbD_or, bit_controlBits_eq_false _ (.inr hlow),
    bit_lower_eq_false _ (by omega) hi, Bool.false_or, Bool.false_or]

theorem kind?_build (h : d.Fits) : d.build.kind? = some d.kind := by
  rw [← kind?_controlBits d.kind 0 0]
  apply kind?_eq_of_bit
  intro i hlow hi
  rw [bit, control_build h, UInt32.toBitVec_or, BitVec.getLsbD_or, UInt32.toBitVec_or,
    BitVec.getLsbD_or, bit_lower_eq_false _ hlow (by omega), bit_upper_eq_false _ hi,
    Bool.or_false, Bool.or_false, bit]

theorem bit_flags_build (h : d.Fits) {i : Nat} (hi : i < 10) :
    d.build.flags.bits.toBitVec.getLsbD i =
      (d.given ||| d.own).bits.toBitVec.getLsbD i := by
  have hmask : ∀ i < 10, d.flagMask.toBitVec.getLsbD i = lowFlags.toBitVec.getLsbD i ∧
      Flags.defined.toBitVec.getLsbD i = lowFlags.toBitVec.getLsbD i := by
    cases d <;> simp only [flagMask] <;> decide
  have hgiven := congrArg (fun word => word.toBitVec.getLsbD i) h.flags_eq
  have hown := congrArg (fun word => word.toBitVec.getLsbD i) d.own_and_lowFlags
  have hbuild := bit_build_of_lt h hi
  simp only [UInt32.toBitVec_and, UInt32.toBitVec_or, BitVec.getLsbD_and, BitVec.getLsbD_or,
    hmask i hi] at hgiven hown hbuild
  change (d.build.control &&& Flags.defined).toBitVec.getLsbD i =
    (d.given.bits ||| d.own.bits).toBitVec.getLsbD i
  rw [UInt32.toBitVec_and, BitVec.getLsbD_and, (hmask i hi).2, UInt32.toBitVec_or,
    BitVec.getLsbD_or, ← bit, hbuild, hgiven, Bool.and_or_distrib_right, hgiven, hown]

theorem contains_build (h : d.Fits) {f : Flags} {k : Nat} (hf : f.IsBit k)
    (hdefined : Flags.defined &&& f.bits = f.bits) (hk : 16 ≤ k) :
    d.build.flags.contains f = d.upper.toBitVec.getLsbD k := by
  rw [flags_contains hf hdefined, bit_build_of_ge h hk hf.lt]

/-- A field above the type is read from what the builder put there. -/
theorem shiftRight_build (h : d.Fits) {k : UInt32} (hk : k = 16 ∨ k = 24) :
    d.build.control >>> k = d.upper >>> k := by
  have hbit : ∀ j, 16 ≤ j → d.build.control.toBitVec.getLsbD j = d.upper.toBitVec.getLsbD j := by
    intro j hj
    rcases Nat.lt_or_ge j 32 with hlt | hge
    · exact bit_build_of_ge h hj hlt
    · rw [BitVec.getLsbD_of_ge _ _ hge, BitVec.getLsbD_of_ge _ _ hge]
  rw [← UInt32.toBitVec_inj]
  apply BitVec.eq_of_getLsbD_eq
  intro i _
  rcases hk with rfl | rfl
  · simpa using hbit (16 + i) (by omega)
  · simpa using hbit (24 + i) (by omega)

/-- The builders that are not told what follows leave the upper field empty. -/
@[simp] theorem dataStatus_zero (length : UInt32) : dataStatus length 0 = length := by
  rw [dataStatus]
  exact UInt32.or_zero

@[simp] theorem status_build (d : Draft) : d.build.status = dataStatus d.length d.remaining := by
  cases d with
  | normal buffer length remaining flags | isoch buffer length remaining flags => rfl
  | dataStage buffer length isIn flags => exact (dataStatus_zero length).symm
  | _ =>
    simp only [length, remaining, dataStatus_zero]
    rfl

@[simp] theorem parameter_build (d : Draft) : d.build.parameter = d.parameter := by
  cases d <;> rfl

/-! ### The upper half -/

theorem startAsap_upper {on : Bool} (h : on ∈ d.startAsap?) :
    d.upper.toBitVec.getLsbD 31 = on := by
  cases d with
  | isoch buffer length remaining flags =>
    have hon : flags.contains .startAsap = on := Option.some.inj h
    rw [← hon, Bool.eq_iff_iff, Flags.contains, beq_iff_eq, Flags.startAsap_isBit.and_eq_self,
      upper, UInt32.toBitVec_and, BitVec.getLsbD_and]
    change (_ && true) = true ↔ _
    rw [Bool.and_true]
  | _ => cases h

theorem directionIn_upper {on : Bool} (h : on ∈ d.isIn?) :
    d.upper.toBitVec.getLsbD 16 = on := by
  cases d with
  | dataStage buffer length isIn flags | statusStage isIn flags =>
    obtain rfl : isIn = on := Option.some.inj h
    cases isIn <;> simp only [upper] <;> decide
  | _ => cases h

theorem transferType_upper {transferType : UInt32} (h : transferType ∈ d.transferType?)
    (hlt : transferType < 4) : d.upper >>> 16 &&& 3 = transferType := by
  cases d with
  | setupStage setup given flags =>
    obtain rfl : given = transferType := Option.some.inj h
    rw [upper, ← UInt32.toNat_inj]
    have : given.toNat < 4 := hlt
    rw [UInt32.toNat_and, UInt32.toNat_shiftRight, UInt32.toNat_shiftLeft]
    change (given.toNat <<< 16 % 2 ^ 32) >>> 16 &&& 2 ^ 2 - 1 = _
    rw [Nat.and_two_pow_sub_one_eq_mod, Nat.shiftRight_eq_div_pow, Nat.shiftLeft_eq]
    omega
  | _ => cases h

/-- A byte that is shifted into a word. -/
theorem bit_byteField (byte : UInt8) {shift : UInt32} {k j : Nat} (hshift : shift.toNat = k)
    (hk : k < 32) (hj : j < 32) :
    (byte.toUInt32 <<< shift).toBitVec.getLsbD j =
      (decide (k ≤ j) && byte.toBitVec.getLsbD (j - k)) := by
  have hmod : (shift.toBitVec % 32).toNat = k := by
    rw [BitVec.toNat_umod, UInt32.toNat_toBitVec, hshift]
    exact Nat.mod_eq_of_lt hk
  have hinside : j - k < 32 := by omega
  rw [UInt32.toBitVec_shiftLeft, BitVec.shiftLeft_eq', BitVec.getLsbD_shiftLeft, hmod,
    UInt8.toBitVec_toUInt32, BitVec.getLsbD_setWidth, decide_eq_true hj, decide_eq_true hinside,
    Bool.true_and, Bool.true_and, ← decide_not]
  simp only [Nat.not_lt]

theorem slot_upper {slot : UInt8} (h : slot ∈ d.slot?) : (d.upper >>> 24).toUInt8 = slot := by
  -- An endpoint has eight bits at most, so that it ends below the slot.
  have hendpoint : ∀ (endpoint : UInt8) (i : Nat), i < 8 →
      (endpoint.toUInt32 <<< 16).toBitVec.getLsbD (24 + i) = false := by
    intro endpoint i hi
    rw [bit_byteField endpoint (k := 16) rfl (by decide) (by omega),
      BitVec.getLsbD_of_ge _ _ (by omega), Bool.and_false]
  have hsuspend : ∀ i < 8, Command.suspendFlag.toBitVec.getLsbD (24 + i) = false := by decide
  have hfield : ∀ (given : UInt8) (i : Nat), i < 8 →
      (given.toUInt32 <<< 24).toBitVec.getLsbD (24 + i) = given.toBitVec.getLsbD i := by
    intro given i hi
    rw [bit_byteField given (k := 24) rfl (by decide) (by omega), Nat.add_sub_cancel_left]
    simp
  have hupper : ∀ i < 8, d.upper.toBitVec.getLsbD (24 + i) = slot.toBitVec.getLsbD i := by
    intro i hi
    cases d with
    | command kind parameter given flags =>
      obtain rfl : given = slot := Option.some.inj h
      exact hfield given i hi
    | resetEndpoint given endpoint =>
      obtain rfl : given = slot := Option.some.inj h
      rw [upper, UInt32.toBitVec_or, BitVec.getLsbD_or, hfield given i hi,
        hendpoint endpoint i hi, Bool.or_false]
    | stopEndpoint given endpoint suspend =>
      obtain rfl : given = slot := Option.some.inj h
      rw [upper, UInt32.toBitVec_or, BitVec.getLsbD_or, UInt32.toBitVec_or, BitVec.getLsbD_or,
        hfield given i hi, hendpoint endpoint i hi, Bool.or_false]
      cases suspend <;> simp [hsuspend i hi]
    | _ => cases h
  rw [← UInt8.toBitVec_inj]
  apply BitVec.eq_of_getLsbD_eq
  intro i hi
  rw [← hupper i hi]
  simp [hi]

theorem endpoint_upper {endpoint : UInt8} (h : endpoint ∈ d.endpoint?) (hlt : endpoint < 32) :
    (d.upper >>> 16 &&& 0x1f).toUInt8 = endpoint := by
  have hmask : ∀ i < 8, (0x1f#8).getLsbD i = decide (i < 5) := by decide
  have hsuspend : ∀ i < 5, Command.suspendFlag.toBitVec.getLsbD (16 + i) = false := by decide
  have hfield : ∀ (slot given : UInt8) (i : Nat), i < 5 →
      (slot.toUInt32 <<< 24 ||| given.toUInt32 <<< 16).toBitVec.getLsbD (16 + i) =
        given.toBitVec.getLsbD i := by
    intro slot given i hi
    have hslot : ¬ 24 ≤ 16 + i := by omega
    rw [UInt32.toBitVec_or, BitVec.getLsbD_or,
      bit_byteField slot (k := 24) rfl (by decide) (by omega),
      bit_byteField given (k := 16) rfl (by decide) (by omega), Nat.add_sub_cancel_left]
    simp [hslot]
  have hupper : ∀ i < 5, d.upper.toBitVec.getLsbD (16 + i) = endpoint.toBitVec.getLsbD i := by
    intro i hi
    cases d with
    | resetEndpoint slot given =>
      obtain rfl : given = endpoint := Option.some.inj h
      exact hfield slot given i hi
    | stopEndpoint slot given suspend =>
      obtain rfl : given = endpoint := Option.some.inj h
      rw [upper, UInt32.toBitVec_or, BitVec.getLsbD_or, hfield slot given i hi]
      cases suspend <;> simp [hsuspend i hi]
    | _ => cases h
  rw [← UInt8.toBitVec_inj]
  apply BitVec.eq_of_getLsbD_eq
  intro i hi
  rcases Nat.lt_or_ge i 5 with hlow | hhigh
  · rw [← hupper i hlow]
    simp [hi, hmask i hi, hlow]
  · have hzero : endpoint.toBitVec.getLsbD i = false := by
      apply Nat.testBit_lt_two_pow
      calc endpoint.toNat < 2 ^ 5 := hlt
        _ ≤ 2 ^ i := Nat.pow_le_pow_right (by decide) hhigh
    rw [hzero]
    simp [hmask i hi, Nat.not_lt.2 hhigh]

/-- What fits the fields of a TRB is found in it by the readers. -/
theorem Fits.readIn (h : d.Fits) : d.ReadIn d.build := by
  have hstatus := fields_of_status h.length_lt d.status_build
  constructor
  case kind?_eq => exact kind?_build h
  case parameter_eq => exact d.parameter_build
  case dataLength_eq => exact hstatus.1
  case tdSize_eq => exact hstatus.2
  case flags_eq => exact fun i hi => bit_flags_build h hi
  case startAsap_eq =>
    intro on hon
    rw [contains_build h Flags.startAsap_isBit rfl (by decide), startAsap_upper hon]
  case directionIn_eq =>
    intro on hon
    rw [contains_build h Flags.directionIn_isBit rfl (by decide), directionIn_upper hon]
  case transferType_eq =>
    intro transferType htype
    rw [Trb.transferType, shiftRight_build h (.inl rfl),
      transferType_upper htype (h.transferType_lt _ htype)]
  case slot_eq =>
    intro slot hslot
    rw [Trb.slot, shiftRight_build h (.inr rfl), slot_upper hslot]
  case endpoint_eq =>
    intro endpoint hendpoint
    rw [Trb.endpoint, shiftRight_build h (.inl rfl),
      endpoint_upper hendpoint (h.endpoint_lt _ hendpoint)]

theorem map_kind?_build (ds : List Draft) (h : ∀ d ∈ ds, d.Fits) :
    (ds.map build).map Trb.kind? = (ds.map kind).map some := by
  rw [List.map_map, List.map_map]
  exact List.map_congr_left fun d hd => (h d hd).readIn.kind?_eq

/-! ### What the driver asks for -/

theorem fits_command (kind : Kind) (parameter : UInt64) (slot : UInt8) {flags : Flags}
    (h : flags.bits &&& lowFlags = flags.bits) : (command kind parameter slot flags).Fits :=
  ⟨(by decide : (0 : UInt32).toNat < _), h, nofun, nofun⟩

theorem fits_normal {length : UInt32} (h : length.toNat ≤ maxTransfer) {flags : Flags}
    (hflags : flags.bits &&& lowFlags = flags.bits) (buffer : UInt64) (remaining : UInt32) :
    (normal buffer length remaining flags).Fits :=
  ⟨Nat.lt_of_le_of_lt h (by decide), hflags, nofun, nofun⟩

/-- A packet is as long as its size, a word of 16 bits, says. -/
theorem fits_isoch (size : UInt16) {flags : Flags}
    (hflags : flags.bits &&& (lowFlags ||| Flags.startAsap.bits) = flags.bits) (buffer : UInt64)
    (remaining : UInt32) : (isoch buffer size.toUInt32 remaining flags).Fits := by
  refine ⟨?_, hflags, nofun, nofun⟩
  rw [length, UInt16.toNat_toUInt32]
  exact Nat.lt_trans size.toNat_lt (by decide)

/-- The TRBs of a control transfer all report that they are done. -/
theorem flags_report :
    Flags.interruptOnCompletion.bits &&& lowFlags = Flags.interruptOnCompletion.bits := rfl

theorem fits_setupStage (setup : Setup) {transferType : UInt32} (h : transferType < 4) :
    (setupStage setup transferType .interruptOnCompletion).Fits := by
  refine ⟨(by decide : Setup.byteSize.toNat < 2 ^ 17), flags_report, ?_, nofun⟩
  rintro _ ⟨⟩
  exact h

theorem fits_dataStage {count : Nat} (h : count ≤ maxTransfer) (buffer : UInt64) (isIn : Bool) :
    (dataStage buffer (.ofNat count) isIn .interruptOnCompletion).Fits := by
  refine ⟨?_, flags_report, nofun, nofun⟩
  rw [length, UInt32.toNat_ofNat']
  exact Nat.lt_of_le_of_lt (Nat.le_trans (Nat.mod_le _ _) h) (by decide)

theorem fits_statusStage (isIn : Bool) : (statusStage isIn .interruptOnCompletion).Fits :=
  ⟨(by decide : (0 : UInt32).toNat < _), flags_report, nofun, nofun⟩

/-- Of a chunk the driver hears at the end of its TD, or if it is cut short. -/
theorem flags_chunk (remaining : Nat) :
    (if remaining = 0 then Flags.interruptOnCompletion
      else .chain ||| .interruptOnShortPacket).bits &&& lowFlags =
    (if remaining = 0 then Flags.interruptOnCompletion
      else .chain ||| .interruptOnShortPacket).bits := by
  split <;> decide

end Draft

/-- What fits the fields of a TRB is read back from its image in memory. -/
theorem readIn_image {d : Draft} (h : d.Fits) : d.ReadIn (ofImage d.build.image) := by
  simpa using h.readIn

/-! ### Flags that a ring writes afterwards -/

/-- A write of one of the two flags that are left to the ring. -/
inductive Mark
  | cycle (on : Bool)
  | chain (on : Bool)

namespace Mark

def apply (t : Trb) : Mark → Trb
  | cycle on => t.withCycle on
  | chain on => t.withChain on

/-- The bit that is written. -/
def index : Mark → Nat
  | cycle _ => 0
  | chain _ => 4

def on : Mark → Bool
  | cycle on | chain on => on

/-- What has been written to bit `i` last. -/
def last? (i : Nat) : List Mark → Option Bool
  | [] => none
  | mark :: marks => (last? i marks).or (if i = mark.index then some mark.on else none)

@[simp] theorem bit_apply (t : Trb) (mark : Mark) (i : Nat) :
    (mark.apply t).bit i = if i = mark.index then mark.on else t.bit i := by
  cases mark with
  | cycle on => exact bit_withCycle t on i
  | chain on => exact bit_withChain t on i

/-- After any number of writes a bit is what was written to it last. -/
theorem bit_foldl_apply (marks : List Mark) (t : Trb) (i : Nat) :
    (marks.foldl (fun t mark => mark.apply t) t).bit i = (last? i marks).getD (t.bit i) := by
  induction marks generalizing t with
  | nil => rfl
  | cons mark marks ih =>
    rw [List.foldl_cons, ih, bit_apply, last?]
    cases last? i marks with
    | some on => rfl
    | none =>
      by_cases hi : i = mark.index
      · simp [hi]
      · simp [hi]

theorem last?_eq_none {i : Nat} (hcycle : i ≠ 0) (hchain : i ≠ 4) (marks : List Mark) :
    last? i marks = none := by
  induction marks with
  | nil => rfl
  | cons mark marks ih =>
    have hother : i ≠ mark.index := by
      cases mark with
      | cycle on => exact hcycle
      | chain on => exact hchain
    rw [last?, ih, if_neg hother]
    rfl

/-- The writes stay in the control word. -/
theorem outside_foldl_apply (marks : List Mark) (t : Trb) :
    (marks.foldl (fun t mark => mark.apply t) t).parameter = t.parameter ∧
      (marks.foldl (fun t mark => mark.apply t) t).status = t.status := by
  induction marks generalizing t with
  | nil => exact ⟨rfl, rfl⟩
  | cons mark marks ih =>
    rw [List.foldl_cons]
    have happly : (mark.apply t).parameter = t.parameter ∧ (mark.apply t).status = t.status := by
      cases mark <;> exact ⟨rfl, rfl⟩
    exact ⟨(ih _).1.trans happly.1, (ih _).2.trans happly.2⟩

end Mark

/-- Writing and reading TRBs undo each other: every draft that fits is read back from memory field
by field, a setup packet is read back from its number, and the flags that are written afterwards
touch two bits, which hold what was written last. -/
theorem fields_read_back :
    (∀ d : Draft, d.Fits → d.ReadIn (ofImage d.build.image)) ∧
    (∀ s : Setup, Setup.ofPacked s.packed = s) ∧
    ∀ (marks : List Mark) (t : Trb),
      let marked := marks.foldl (fun t mark => mark.apply t) t
      marked.parameter = t.parameter ∧ marked.status = t.status ∧
      (∀ i, i ≠ 0 → i ≠ 4 → marked.bit i = t.bit i) ∧
      marked.bit 0 = (Mark.last? 0 marks).getD (t.bit 0) ∧
      marked.bit 4 = (Mark.last? 4 marks).getD (t.bit 4) := by
  refine ⟨fun d h => readIn_image h, Setup.ofPacked_packed, fun marks t => ?_⟩
  obtain ⟨hparameter, hstatus⟩ := Mark.outside_foldl_apply marks t
  refine ⟨hparameter, hstatus, fun i hcycle hchain => ?_, Mark.bit_foldl_apply marks t 0,
    Mark.bit_foldl_apply marks t 4⟩
  rw [Mark.bit_foldl_apply, Mark.last?_eq_none hcycle hchain]
  rfl

/-- The last packet but forty of an isochronous TD, and a Stop Endpoint command. -/
theorem fields_read_back_of_packet_and_stop :
    let packet : Draft := .isoch 0xfffffffffffff000 1023 40 (.startAsap ||| .interruptOnCompletion)
    let stop : Draft := .stopEndpoint 255 31 true
    packet.ReadIn (ofImage packet.build.image) ∧ stop.ReadIn (ofImage stop.build.image) :=
  ⟨fields_read_back.1 _ ⟨by decide, by decide, nofun, nofun⟩,
    fields_read_back.1 _ ⟨by decide, by decide, nofun, by
      intro endpoint h
      obtain rfl : 31 = endpoint := Option.some.inj h
      decide⟩⟩

end Trb

end UsbHost
