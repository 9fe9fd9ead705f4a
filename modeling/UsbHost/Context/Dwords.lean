import UsbHost.Bits.Field

/-!
The dwords of a context. A slot context and an endpoint context take eight dwords each; a field of
a context lies within one of them.
-/

namespace UsbHost.Context

/-- Dwords of a slot context or an endpoint context. -/
def dwordCount : Nat := 8

instance : @NeZero Nat Zero.ofOfNat0 dwordCount := ⟨by decide⟩

abbrev Dwords : Type := Vector UInt32 dwordCount

namespace Dwords

def zero : Dwords := .replicate dwordCount 0

def field (d : Dwords) (i : Fin dwordCount) (field : Bits.Field) : UInt32 := field.get (d.get i)

/-- Store a whole dword. -/
def store (d : Dwords) (i : Fin dwordCount) (value : UInt32) : Dwords := d.set i.val value i.isLt

/-- Store `value` in a field of dword `i`. -/
def put (d : Dwords) (i : Fin dwordCount) (field : Bits.Field) (value : UInt32) : Dwords :=
  d.store i (field.put value (d.get i))

end Dwords

end UsbHost.Context
