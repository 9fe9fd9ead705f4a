import UsbHost.Context.Dwords

/-!
Endpoint contexts: eight dwords that tell the controller how to serve an endpoint.
-/

namespace UsbHost.Context

open Bits

structure Endpoint where
  dwords : Dwords
  deriving DecidableEq

namespace Endpoint

def zero : Endpoint := ⟨Dwords.zero⟩

instance : Inhabited Endpoint := ⟨zero⟩

/-! ### Layout -/

def interval : Field := ⟨16, 8⟩
def errorCount : Field := ⟨1, 2⟩
def kind : Field := ⟨3, 3⟩
def maxBurst : Field := ⟨8, 8⟩
def maxPacketSize : Field := ⟨16, 16⟩
def averageLength : Field := ⟨0, 16⟩
def maxPayload : Field := ⟨16, 16⟩

/-- Values of the type field. -/
def controlKind : UInt8 := 4

/-- Bit of the dequeue pointer that gives the cycle state to start with. -/
def dequeueCycle : UInt64 := 1

/-! ### Setters and getters -/

def put (c : Endpoint) (dword : Fin dwordCount) (field : Field) (value : UInt32) : Endpoint :=
  ⟨c.dwords.put dword field value⟩

def setInterval (c : Endpoint) (exponent : UInt8) : Endpoint :=
  c.put 0 interval exponent.toUInt32

def getInterval (c : Endpoint) : UInt8 := (c.dwords.field 0 interval).toUInt8

def setErrorCount (c : Endpoint) (n : UInt8) : Endpoint := c.put 1 errorCount n.toUInt32

def setKind (c : Endpoint) (n : UInt8) : Endpoint := c.put 1 kind n.toUInt32

def getKind (c : Endpoint) : UInt8 := (c.dwords.field 1 kind).toUInt8

def setMaxBurst (c : Endpoint) (n : UInt8) : Endpoint := c.put 1 maxBurst n.toUInt32

def setMaxPacketSize (c : Endpoint) (size : UInt16) : Endpoint :=
  c.put 1 maxPacketSize size.toUInt32

def getMaxPacketSize (c : Endpoint) : UInt16 := (c.dwords.field 1 maxPacketSize).toUInt16

/-- The low half of the pointer is dword 2, the high half dword 3. -/
def setDequeue (c : Endpoint) (pointer : UInt64) : Endpoint :=
  ⟨(c.dwords.store 2 pointer.toUInt32).store 3 (pointer >>> 32).toUInt32⟩

def getDequeue (c : Endpoint) : UInt64 :=
  (c.dwords.get 2).toUInt64 ||| (c.dwords.get 3).toUInt64 <<< 32

def setAverageLength (c : Endpoint) (length : UInt16) : Endpoint :=
  c.put 4 averageLength length.toUInt32

/-- Most bytes per service interval. -/
def setMaxPayload (c : Endpoint) (payload : UInt16) : Endpoint :=
  c.put 4 maxPayload payload.toUInt32

end Endpoint

end UsbHost.Context
