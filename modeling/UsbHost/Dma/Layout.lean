import UsbHost.Error

/-!
Placement of memory that the controller reads and writes. A layout is what the allocator is asked
for: a size and an alignment. A boundary that the memory must not cross is met by aligning to the
least power of two that is not below the size; such a block lies inside one window.
-/

namespace UsbHost.Dma

/-- Alignment of rings, contexts and tables. -/
def structureAlign : Nat := 64

/-- Rings and contexts lie inside one window of this size. -/
def structureBoundary : Nat := 0x10000

structure Layout where
  size : Nat
  align : Nat
  deriving DecidableEq, Inhabited

namespace Layout

/-- Bytes that one allocation can span. -/
def maxSize : Nat := UInt64.size / 2

/-- Least power of two that is not below `n`, if it is a machine word. -/
def windowFor (n : Nat) : Except Fault Nat :=
  if n.nextPowerOfTwo < UInt64.size then .ok n.nextPowerOfTwo else .error .overflow

/-- The alignment is a power of two, and the size rounded up to it can be allocated. -/
def isAllocatable (layout : Layout) : Bool :=
  layout.align.nextPowerOfTwo == layout.align && layout.size + layout.align ≤ maxSize

/-- Layout of `size` bytes at a multiple of `align` that cross no multiple of `boundary`;
boundary 0 stands for none. -/
def make (size align boundary : Nat) : Attempt Layout := do
  if size = 0 then
    throw (.invalidArgument "size" "DMA buffer must not be empty")
  if boundary ≠ 0 && boundary < size then
    throw (.invalidArgument "size" "larger than DMA boundary")
  let window ← if boundary = 0 then pure 1 else windowFor size
  let layout : Layout := ⟨size, max (max align 1) window⟩
  if !layout.isAllocatable then
    throw (.invalidArgument "align" "not a power of two")
  return layout

/-- Layout of rings, contexts and tables. -/
def forStructure (size : Nat) : Attempt Layout := make size structureAlign structureBoundary

/-- Layout of transfer data. -/
def forData (size : Nat) : Attempt Layout := make size structureAlign 0

end Layout

end UsbHost.Dma
