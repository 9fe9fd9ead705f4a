import UsbHost.Fault

/-!
Bus addresses: the addresses that the controller uses for shared memory.
-/

namespace UsbHost.Dma

/-- The bus address `offset` bytes above `base`. -/
def busOffset (base : UInt64) (offset : Nat) : Except Fault UInt64 :=
  if base.toNat + offset < UInt64.size then .ok (base + UInt64.ofNat offset) else .error .overflow

end UsbHost.Dma
