import UsbHost.Device.Basic

/-!
The slot table. The controller hands out slots 1 to `maxSlots`. For each of them the table knows the
device, and the device context base address array tells the controller where that device's output
context lies; entry 0 of the array is the scratchpad pointer.
-/

namespace UsbHost

structure SlotTable where
  maxSlots : UInt8
  /-- The device in slot `i + 1`. -/
  devices : Array (Option DeviceRef)
  /-- The array that the controller reads. -/
  contexts : Array UInt64
  deriving Inhabited

namespace SlotTable

def empty (maxSlots : UInt8) : SlotTable where
  maxSlots := maxSlots
  devices := .replicate maxSlots.toNat none
  contexts := .replicate (maxSlots.toNat + 1) 0

/-- Bytes of the array that the controller reads. -/
def byteSize (maxSlots : UInt8) : Nat := (maxSlots.toNat + 1) * 8

/-- Place of a slot in the table. -/
def index (t : SlotTable) (slot : UInt8) : Except Error Nat :=
  if slot = 0 ∨ t.maxSlots < slot then .error (.invalidSlot slot) else .ok (slot.toNat - 1)

/-- The device in a slot. -/
def device? (t : SlotTable) (slot : UInt8) : Option DeviceRef :=
  match t.index slot with
  | .ok i => t.devices[i]?.join
  | .error _ => none

/-- Bind a device whose output context lies at bus address `context`. -/
def assign (t : SlotTable) (slot : UInt8) (device : DeviceRef) (context : UInt64) :
    Except Error SlotTable := do
  let i ← t.index slot
  if (t.device? slot).isSome then
    throw (.slotOccupied slot)
  return { t with
    devices := t.devices.setIfInBounds i (some device)
    contexts := t.contexts.setIfInBounds slot.toNat context }

/-- Unbind the device in a slot, if there is one. -/
def free (t : SlotTable) (slot : UInt8) : Except Error (Option DeviceRef × SlotTable) := do
  let i ← t.index slot
  return (t.device? slot, { t with
    devices := t.devices.setIfInBounds i none
    contexts := t.contexts.setIfInBounds slot.toNat 0 })

/-- Slots with a device. -/
def assigned (t : SlotTable) : Nat := t.devices.toList.countP Option.isSome

def setScratchpad (t : SlotTable) (pointer : UInt64) : SlotTable :=
  { t with contexts := t.contexts.setIfInBounds 0 pointer }

/-- An entry of the array, as the controller sees it. -/
def contextAt (t : SlotTable) (entry : UInt8) : Except Fault UInt64 :=
  if h : entry.toNat < t.contexts.size then .ok t.contexts[entry.toNat] else .error .outOfBounds

end SlotTable

end UsbHost
