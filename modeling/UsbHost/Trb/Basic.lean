import UsbHost.Trb.CompletionCode
import UsbHost.Trb.Flags
import UsbHost.Trb.Kind

/-!
Transfer Request Blocks: the 16-byte descriptors of all rings. A TRB is a 64-bit parameter, a
status word and a control word. Bit 0 of the control word is the cycle bit, by which producer and
consumer of a ring tell fresh TRBs from old ones.
-/

namespace UsbHost

structure Trb where
  parameter : UInt64
  status : UInt32
  control : UInt32
  deriving DecidableEq

namespace Trb

/-- Bytes of a TRB. -/
def byteSize : Nat := 16

/-- Most data bytes that one TRB describes. -/
def maxTransfer : Nat := 0x10000

/-- A TRB in memory that nobody has written. -/
def blank : Trb := ⟨0, 0, 0⟩

instance : Inhabited Trb := ⟨blank⟩

def rawKind (t : Trb) : UInt8 := ((t.control >>> 10) &&& 0x3f).toUInt8

def kind? (t : Trb) : Option Kind := Kind.ofCode? t.rawKind

def flags (t : Trb) : Flags := Flags.ofBits t.control

def cycle (t : Trb) : Bool := t.control &&& Flags.cycle.bits != 0

/-- Write one flag of the control word. -/
def withFlag (t : Trb) (flag : Flags) (on : Bool) : Trb :=
  { t with control := if on then t.control ||| flag.bits else t.control &&& ~~~flag.bits }

def withCycle (t : Trb) (on : Bool) : Trb := t.withFlag .cycle on

def withChain (t : Trb) (on : Bool) : Trb := t.withFlag .chain on

/-! ### Memory image -/

/-- The 16 bytes of a TRB in memory, as a little-endian number. -/
def image (t : Trb) : Nat :=
  t.parameter.toNat + UInt64.size * (t.status.toNat + UInt32.size * t.control.toNat)

def ofImage (n : Nat) : Trb :=
  ⟨.ofNat n, .ofNat (n / UInt64.size), .ofNat (n / (UInt64.size * UInt32.size))⟩

@[simp] theorem ofImage_image (t : Trb) : ofImage t.image = t := by
  obtain ⟨parameter, status, control⟩ := t
  have hp := parameter.toNat_lt
  have hs := status.toNat_lt
  have hc := control.toNat_lt
  simp only [ofImage, image, UInt64.size, UInt32.size, Trb.mk.injEq]
  refine ⟨UInt64.toNat_inj.1 ?_, UInt32.toNat_inj.1 ?_, UInt32.toNat_inj.1 ?_⟩
  · rw [UInt64.toNat_ofNat']
    omega
  · rw [UInt32.toNat_ofNat']
    omega
  · rw [UInt32.toNat_ofNat']
    omega

/-! ### Fields of event TRBs -/

def completionCode (t : Trb) : CompletionCode := ⟨(t.status >>> 24).toUInt8⟩

/-- Bytes not transferred, in a transfer event. -/
def residual (t : Trb) : UInt32 := t.status &&& 0x00ffffff

def slot (t : Trb) : UInt8 := (t.control >>> 24).toUInt8

def endpoint (t : Trb) : UInt8 := ((t.control >>> 16) &&& 0x1f).toUInt8

/-- The port that a port status change event is about. -/
def port (t : Trb) : UInt8 := (t.parameter >>> 24).toUInt8

end Trb

end UsbHost
