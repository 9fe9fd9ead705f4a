import UsbHost.Context.Dwords
import UsbHost.Speed

/-!
Slot contexts: eight dwords that tell the controller where a device sits.
-/

namespace UsbHost.Context

open Bits

structure Slot where
  dwords : Dwords
  deriving DecidableEq

namespace Slot

def zero : Slot := ⟨Dwords.zero⟩

instance : Inhabited Slot := ⟨zero⟩

/-! ### Layout -/

def routeString : Field := ⟨0, 20⟩
def speed : Field := ⟨20, 4⟩
def multiTranslator : Field := ⟨25, 1⟩
def entries : Field := ⟨27, 5⟩
def rootHubPort : Field := ⟨16, 8⟩
def hubSlot : Field := ⟨0, 8⟩
def hubPort : Field := ⟨8, 8⟩
def address : Field := ⟨0, 8⟩

/-! ### Setters and getters -/

def put (c : Slot) (dword : Fin dwordCount) (field : Field) (value : UInt32) : Slot :=
  ⟨c.dwords.put dword field value⟩

def setRouteString (c : Slot) (route : UInt32) : Slot := c.put 0 routeString route

def setSpeed (c : Slot) (s : Speed) : Slot := c.put 0 speed s.protocolId

/-- Number of the last endpoint context in use. -/
def setEntries (c : Slot) (n : UInt8) : Slot := c.put 0 entries n.toUInt32

def getEntries (c : Slot) : UInt8 := (c.dwords.field 0 entries).toUInt8

def setRootHubPort (c : Slot) (port : UInt8) : Slot := c.put 1 rootHubPort port.toUInt32

def getRootHubPort (c : Slot) : UInt8 := (c.dwords.field 1 rootHubPort).toUInt8

/-- The transaction translator of a low- or full-speed device behind a high-speed hub. -/
def setTranslator (c : Slot) (slot port : UInt8) (multi : Bool) : Slot :=
  ((c.put 2 hubSlot slot.toUInt32).put 2 hubPort port.toUInt32).put 0 multiTranslator
    (if multi then 1 else 0)

/-- The address that the controller has assigned. -/
def getAddress (c : Slot) : UInt8 := (c.dwords.field 3 address).toUInt8

end Slot

end UsbHost.Context
