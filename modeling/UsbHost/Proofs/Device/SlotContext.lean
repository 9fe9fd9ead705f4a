import UsbHost.Device.Context
import UsbHost.Proofs.Context.Fields

/-!
Slot contexts and the input contexts that carry them. The slot context that a device introduces
itself with says where it sits; the one that comes along with a new endpoint is what the controller
has, except for the number of contexts in use. So whatever endpoints are added, the place of the
device is what has been written first, and each input context adds the slot context and one
endpoint.
-/

namespace UsbHost

open Bits (Field)

namespace Context

namespace Slot

variable {f g : Field} {i j : Fin dwordCount}

theorem field_put_self (hf : f.Valid) (c : Slot) (i : Fin dwordCount) (value : UInt32) :
    (c.put i f value).dwords.field i f = value &&& f.mask :=
  Dwords.field_put_self hf c.dwords i value

theorem field_put_other (hf : f.Valid) (hg : g.Valid) (h : i ≠ j ∨ f.Disjoint g) (c : Slot)
    (value : UInt32) : (c.put j g value).dwords.field i f = c.dwords.field i f :=
  Dwords.field_put_other hf hg h c.dwords value

theorem byte_and_mask (b : UInt8) : b.toUInt32 &&& 255 = b.toUInt32 := by
  have hlt := b.toNat_lt
  refine UInt32.toNat_inj.1 ?_
  change b.toNat &&& 255 = b.toNat
  rw [Nat.and_two_pow_sub_one_eq_mod b.toNat 8]
  exact Nat.mod_eq_of_lt hlt

/-! ### The number of contexts in use -/

@[simp] theorem getEntries_setEntries (c : Slot) {n : UInt8} (h : n < 32) :
    (c.setEntries n).getEntries = n := by
  rw [getEntries, setEntries, field_put_self (by decide)]
  have hlt : n.toNat < 32 := h
  have hmask : n.toNat &&& 31 = n.toNat := by
    rw [Nat.and_two_pow_sub_one_eq_mod n.toNat 5]
    exact Nat.mod_eq_of_lt hlt
  refine UInt8.toNat_inj.1 ?_
  change (n.toNat &&& 31) % 256 = n.toNat
  omega

theorem getEntries_lt (c : Slot) : c.getEntries < 32 := by
  refine UInt8.lt_iff_toNat_lt.2 ?_
  change ((c.dwords.get 0 >>> 27).toNat &&& 31) % 256 < 32
  rw [Nat.and_two_pow_sub_one_eq_mod _ 5]
  omega

@[simp] theorem setEntries_setEntries (c : Slot) (n n' : UInt8) :
    (c.setEntries n).setEntries n' = c.setEntries n' :=
  congrArg Slot.mk (Dwords.put_put_self (by decide) c.dwords 0 n'.toUInt32 n.toUInt32)

@[simp] theorem setEntries_getEntries (c : Slot) : c.setEntries c.getEntries = c := by
  have hread : c.getEntries.toUInt32 = c.dwords.field 0 entries := by
    refine UInt32.toNat_inj.1 ?_
    change ((c.dwords.get 0 >>> 27).toNat &&& 31) % 256 = (c.dwords.get 0 >>> 27).toNat &&& 31
    rw [Nat.and_two_pow_sub_one_eq_mod _ 5]
    omega
  rw [setEntries, put, hread, Dwords.put_field_self (by decide)]

/-! ### The place of a device -/

/-- The slot contexts put a device at the same place. -/
structure SamePlace (c c' : Slot) : Prop where
  routeString_eq : c'.dwords.field 0 routeString = c.dwords.field 0 routeString
  speed_eq : c'.dwords.field 0 speed = c.dwords.field 0 speed
  multiTranslator_eq : c'.dwords.field 0 multiTranslator = c.dwords.field 0 multiTranslator
  rootHubPort_eq : c'.dwords.field 1 rootHubPort = c.dwords.field 1 rootHubPort
  hubSlot_eq : c'.dwords.field 2 hubSlot = c.dwords.field 2 hubSlot
  hubPort_eq : c'.dwords.field 2 hubPort = c.dwords.field 2 hubPort

theorem samePlace_setEntries (c : Slot) (n : UInt8) : c.SamePlace (c.setEntries n) := by
  constructor
  all_goals exact field_put_other (by decide) (by decide) (by decide) c _

end Slot

namespace Input

/-- Bit `n` of the drop flags. -/
def drops (input : Input) (n : Nat) : Bool := input.dropFlags.toNat.testBit n

/-- The input context brings the slot context and that of endpoint `id`, which is taken out first,
and says nothing about other endpoints. -/
structure Configures (input : Input) (id : UInt8) : Prop where
  adds_iff : ∀ n, input.adds n = true ↔ n = 0 ∨ n = id.toNat
  drops_iff : ∀ n, input.drops n = true ↔ n = id.toNat
  others_eq : ∀ i : Fin maxEndpoints, i.val + 1 ≠ id.toNat → input.device.endpoints.get i = .zero

@[simp] theorem slot_applyTo {input : Input} (h : input.adds 0 = true) (old : Device) :
    (input.applyTo old).slot = input.device.slot :=
  if_pos h

end Input

end Context

namespace Endpoint

variable {ρ : Type}

theorem testBit_contextFlag {id : UInt8} (h : id < 32) (n : Nat) :
    (contextFlag id).toNat.testBit n = decide (n = id.toNat) := by
  have hlt : id.toNat < 32 := h
  have hflag : (contextFlag id).toNat = 2 ^ id.toNat := by
    rw [contextFlag, UInt32.toNat_shiftLeft, UInt8.toNat_toUInt32, Nat.mod_eq_of_lt hlt]
    change 1 <<< id.toNat % 2 ^ 32 = _
    rw [Nat.one_shiftLeft]
    exact Nat.mod_eq_of_lt (Nat.pow_lt_pow_right (by decide) hlt)
  rw [hflag, Nat.testBit_two_pow]
  exact decide_eq_decide.2 eq_comm

end Endpoint

namespace Device

variable {ρ : Type}

open Context (Input Slot maxEndpoints)

/-- The slot context for Address Device says where the device sits, and that one context is in
use. -/
theorem slotContext_says (d : Device) :
    d.slotContext.getEntries = 1 ∧
    d.slotContext.dwords.field 0 Slot.routeString = d.routeString &&& Slot.routeString.mask ∧
    d.slotContext.dwords.field 0 Slot.speed = d.owner.speed.protocolId ∧
    d.slotContext.getRootHubPort = d.rootPort ∧
    d.slotContext.dwords.field 2 Slot.hubSlot = d.translator.elim 0 (·.hubSlot.toUInt32) ∧
    d.slotContext.dwords.field 2 Slot.hubPort = d.translator.elim 0 (·.hubPort.toUInt32) ∧
    d.slotContext.dwords.field 0 Slot.multiTranslator =
      d.translator.elim 0 fun t => if t.multi then 1 else 0 := by
  have hspeed : d.owner.speed.protocolId &&& Slot.speed.mask = d.owner.speed.protocolId := by
    cases d.owner.speed <;> decide
  have hport : (d.rootPort.toUInt32 &&& Slot.rootHubPort.mask).toUInt8 = d.rootPort := by
    rw [show Slot.rootHubPort.mask = 255 from rfl, Slot.byte_and_mask, UInt8.toUInt8_toUInt32]
  unfold slotContext
  cases d.translator with
  | none =>
    simp (disch := decide) only [Option.elim, Slot.getEntries, Slot.getRootHubPort,
      Slot.setEntries, Slot.setSpeed, Slot.setRouteString, Slot.setRootHubPort,
      Slot.field_put_other, Slot.field_put_self, hspeed, hport]
    decide
  | some t =>
    have hmulti : (if t.multi then 1 else 0 : UInt32) &&& Slot.multiTranslator.mask =
        if t.multi then 1 else 0 := by
      cases t.multi <;> decide
    simp (disch := decide) only [Option.elim, Slot.getEntries, Slot.getRootHubPort,
      Slot.setEntries, Slot.setSpeed, Slot.setRouteString, Slot.setRootHubPort,
      Slot.setTranslator, Slot.field_put_other, Slot.field_put_self, hspeed, hport, hmulti]
    exact ⟨by decide, trivial, trivial, trivial, Slot.byte_and_mask _, Slot.byte_and_mask _,
      trivial⟩

/-- The input context for Address Device brings the slot context. -/
theorem addressInput_gives (d : Device) (e : Endpoint ρ) : ∃ content,
    d.addressInput e = .ok content ∧ content.adds 0 = true ∧
      content.device.slot = d.slotContext := by
  have hadds : (0b11 : UInt32).toNat.testBit 0 = true := by decide
  exact ⟨_, rfl, hadds, rfl⟩

theorem configureInput_gives (d : Device) (e : Endpoint ρ)
    (hid : 1 ≤ e.id.toNat ∧ e.id.toNat ≤ maxEndpoints) : ∃ content,
    d.configureInput e = .ok content ∧ content.Configures e.id ∧
      content.device.slot = d.context.slot.setEntries (max d.context.slot.getEntries e.id) := by
  have hlt : e.id < 32 := UInt8.lt_iff_toNat_lt.2 (Nat.lt_succ_of_le hid.2)
  refine ⟨_, dif_pos hid, ⟨fun n => ?_, fun n => ?_, fun i hi => ?_⟩, rfl⟩
  · change ((1 : UInt32) ||| Endpoint.contextFlag e.id).toNat.testBit n = true ↔ _
    rw [UInt32.toNat_or, Nat.testBit_or, Endpoint.testBit_contextFlag hlt, Bool.or_eq_true,
      decide_eq_true_eq]
    exact or_congr_left Nat.testBit_one_eq_true_iff_self_eq_zero
  · change ((0 : UInt32) ||| Endpoint.contextFlag e.id).toNat.testBit n = true ↔ _
    rw [UInt32.zero_or, Endpoint.testBit_contextFlag hlt, decide_eq_true_eq]
  · change ((Vector.replicate maxEndpoints Context.Endpoint.zero).set _ _
      (Context.index_lt e.id hid))[i.val] = _
    rw [Vector.getElem_set_ne _ _ (by omega), Vector.getElem_replicate]

end Device

end UsbHost
