/-!
Bit fields of 32-bit words. `put` replaces the bits of a field and leaves the others alone, `get`
reads them back; fields without a common bit do not see each other. All layouts of the contexts
that the controller reads are given as such fields.
-/

namespace UsbHost.Bits

/-- The `width` bits of a word from bit `low` upwards. -/
structure Field where
  low : Nat
  width : Nat
  deriving DecidableEq

namespace Field

/-- The largest value a field can hold. -/
def mask (f : Field) : UInt32 := UInt32.ofNat (1 <<< f.width - 1)

def get (f : Field) (word : UInt32) : UInt32 := (word >>> UInt32.ofNat f.low) &&& f.mask

/-- Store `value`, cut to the width of the field. -/
def put (f : Field) (value word : UInt32) : UInt32 :=
  (word &&& ~~~(f.mask <<< UInt32.ofNat f.low)) |||
    ((value &&& f.mask) <<< UInt32.ofNat f.low)

end Field

end UsbHost.Bits
