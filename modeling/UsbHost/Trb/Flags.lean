/-!
Flags of a control word. Some bits have two names because they mean different things in different
TRB types.
-/

namespace UsbHost.Trb

structure Flags where
  bits : UInt32
  deriving DecidableEq, Inhabited

namespace Flags

def none : Flags := ⟨0⟩
def cycle : Flags := ⟨0x1⟩
/-- On a Link TRB: the cycle state flips when the ring wraps. -/
def toggleCycle : Flags := ⟨0x2⟩
def interruptOnShortPacket : Flags := ⟨0x4⟩
def noSnoop : Flags := ⟨0x8⟩
def chain : Flags := ⟨0x10⟩
def interruptOnCompletion : Flags := ⟨0x20⟩
/-- The parameter holds the data itself. -/
def immediateData : Flags := ⟨0x40⟩
/-- On Address Device: leave the address of the device unset. -/
def blockSetAddress : Flags := ⟨0x200⟩
/-- On Configure Endpoint: take the configuration back. -/
def deconfigure : Flags := ⟨0x200⟩
def directionIn : Flags := ⟨0x10000⟩
/-- On an Isoch TRB: send in the next frame that has room. -/
def startAsap : Flags := ⟨0x80000000⟩

/-- The bits that have a name. -/
def defined : UInt32 := 0x8001027f

/-- The flags of a word; bits without a name are dropped. -/
def ofBits (word : UInt32) : Flags := ⟨word &&& defined⟩

def union (f g : Flags) : Flags := ⟨f.bits ||| g.bits⟩

instance : OrOp Flags := ⟨union⟩

def contains (f g : Flags) : Bool := f.bits &&& g.bits == g.bits

/-- Set or clear the bits of `flag`. -/
def set (f flag : Flags) (on : Bool) : Flags :=
  ⟨if on then f.bits ||| flag.bits else f.bits &&& ~~~flag.bits⟩

end Flags

end UsbHost.Trb
