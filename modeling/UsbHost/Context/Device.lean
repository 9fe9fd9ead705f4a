import UsbHost.Context.Endpoint
import UsbHost.Context.Slot
import UsbHost.Fault

/-!
Device contexts and input contexts. A device context is a slot context followed by the endpoint
contexts 1 to 31. An input context is a proposed device context with two sets of flags: bit `n` of
the add flags selects context `n` (the slot context is number 0), bit `n` of the drop flags takes
endpoint `n` out first.
-/

namespace UsbHost.Context

/-- Endpoint contexts of a device. -/
def maxEndpoints : Nat := 31

theorem index_lt (id : UInt8) (h : 1 ≤ id.toNat ∧ id.toNat ≤ maxEndpoints) :
    id.toNat - 1 < maxEndpoints := by
  omega

structure Device where
  slot : Slot
  endpoints : Vector Endpoint maxEndpoints
  deriving DecidableEq

def Device.zero : Device := ⟨.zero, .replicate maxEndpoints .zero⟩

instance : Inhabited Device := ⟨Device.zero⟩

structure Input where
  dropFlags : UInt32
  addFlags : UInt32
  device : Device
  deriving DecidableEq

namespace Input

def zero : Input := ⟨0, 0, .zero⟩

instance : Inhabited Input := ⟨zero⟩

/-- Bytes of an input context: the flags, the slot context and the endpoint contexts. -/
def byteSize : Nat := 32 * 33

/-- Edit the context of endpoint `id`. -/
def updateEndpoint (input : Input) (id : UInt8) (edit : Endpoint → Endpoint) :
    Except Fault Input :=
  if h : 1 ≤ id.toNat ∧ id.toNat ≤ maxEndpoints then
    have hi := index_lt id h
    .ok { input with
      device.endpoints := input.device.endpoints.set (id.toNat - 1)
        (edit input.device.endpoints[id.toNat - 1]) }
  else
    .error .outOfBounds

/-- Bit `n` of the add flags. -/
def adds (input : Input) (n : Nat) : Bool := input.addFlags.toNat.testBit n

/-- The device context that a controller leaves behind when it accepts the input context: the
contexts that are added replace the old ones. -/
def applyTo (input : Input) (old : Device) : Device where
  slot := if input.adds 0 then input.device.slot else old.slot
  endpoints := Vector.ofFn fun i =>
    if input.adds (i + 1) then input.device.endpoints[i] else old.endpoints[i]

end Input

/-- Bytes of a device context. -/
def Device.byteSize : Nat := 32 * 32

end UsbHost.Context
