import UsbHost.Dma.Layout

/-!
Memory shared with the controller. A buffer has an identity, which never changes hands: two
buffers are the same memory exactly when their identities agree. Words are little-endian, and an
access of `width` bytes lies inside the buffer at a multiple of its width.
-/

namespace UsbHost.Dma

structure BufferId where
  index : Nat
  deriving DecidableEq, Inhabited, Repr

structure Buffer where
  id : BufferId
  bytes : ByteArray
  deriving Inhabited

namespace Buffer

/-- A buffer of `size` zero bytes. -/
def zeroed (id : BufferId) (size : Nat) : Buffer := ⟨id, ⟨Array.replicate size 0⟩⟩

def length (b : Buffer) : Nat := b.bytes.size

/-- A buffer for `size` bytes of transfer data. -/
def forData (id : BufferId) (size : Nat) : Attempt Buffer := do
  let _ ← Layout.forData size
  return zeroed id size

/-- A buffer for transfer data that holds `bytes`. -/
def ofBytes (id : BufferId) (bytes : ByteArray) : Attempt Buffer := do
  let _ ← Layout.forData bytes.size
  return ⟨id, bytes⟩

/-- The faults of an access, the bounds before the alignment. -/
def checkAccess (b : Buffer) (offset width : Nat) : Except Fault Unit := do
  if UInt64.size ≤ offset + width then throw .overflow
  if b.length < offset + width then throw .outOfBounds
  if offset % width ≠ 0 then throw .misaligned

/-- One byte; there is nothing but zeros behind the end. -/
def byteAt (b : Buffer) (offset : Nat) : UInt8 :=
  if h : offset < b.bytes.size then b.bytes[offset] else 0

/-- Replace one byte; nothing happens behind the end. -/
def setByteAt (b : Buffer) (offset : Nat) (value : UInt8) : Buffer :=
  if h : offset < b.bytes.size then { b with bytes := b.bytes.set offset value h } else b

/-- The number in the `width` bytes from `offset` on, lowest byte first. -/
def numberAt (b : Buffer) (offset : Nat) : Nat → Nat
  | 0 => 0
  | width + 1 => (b.byteAt offset).toNat + 256 * b.numberAt (offset + 1) width

/-- Store the low `width` bytes of `value` from `offset` on, lowest byte first. -/
def storeAt (b : Buffer) (offset : Nat) (value : Nat) : Nat → Buffer
  | 0 => b
  | width + 1 =>
    (b.setByteAt offset (UInt8.ofNat value)).storeAt (offset + 1) (value / 256) width

def read (b : Buffer) (offset width : Nat) : Except Fault Nat := do
  b.checkAccess offset width
  return b.numberAt offset width

def write (b : Buffer) (offset width value : Nat) : Except Fault Buffer := do
  b.checkAccess offset width
  return b.storeAt offset value width

/-- Replace one byte. -/
def setByte (b : Buffer) (offset : Nat) (value : UInt8) : Except Fault Buffer :=
  if offset < b.length then .ok (b.setByteAt offset value) else .error .outOfBounds

def clear (b : Buffer) : Buffer := zeroed b.id b.length

/-- The first `n` bytes, or all of them if there are fewer. -/
def takeBytes (b : Buffer) (n : Nat) : ByteArray := b.bytes.extract 0 (min n b.length)

end Buffer

end UsbHost.Dma
