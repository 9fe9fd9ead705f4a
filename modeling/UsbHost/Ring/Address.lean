import UsbHost.Config
import UsbHost.Dma.Address
import UsbHost.Dma.Layout
import UsbHost.Trb.Basic

/-!
Memory and bus addresses of rings. A ring is an array of TRBs; TRB `i` lies 16 `i` bytes above the
base. An address names a TRB of the ring only if it is the address of its first byte.
-/

namespace UsbHost.Ring

/-- Bus address of TRB `index` of a ring at `base`. -/
def address (base : UInt64) (index : Nat) : Except Fault UInt64 :=
  Dma.busOffset base (index * Trb.byteSize)

/-- Index of the TRB at `address` in a ring of `count` TRBs at `base`. -/
def indexOf? (base : UInt64) (count : Nat) (address : UInt64) : Option Nat :=
  if address < base then
    none
  else
    let offset := (address - base).toNat
    if offset % Trb.byteSize = 0 ∧ offset / Trb.byteSize < count then
      some (offset / Trb.byteSize)
    else
      none

/-- Memory of a ring of `count` TRBs: it lies inside one segment. -/
def layout (count : Nat) : Attempt Dma.Layout := do
  liftExcept (Config.checkRingSize "trb_count" count)
  if UInt64.size ≤ count * Trb.byteSize then
    throwThe Fault .overflow
  if Dma.structureBoundary < count * Trb.byteSize then
    throw (.invalidArgument "trb_count" "ring does not fit in one 64 KiB segment")
  Dma.Layout.forStructure (count * Trb.byteSize)

end UsbHost.Ring
