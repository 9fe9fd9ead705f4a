import UsbHost.Host.World
import UsbHost.Ring.Cursor

/-!
A simulated machine for a host to run on. Its clock moves only when it is told to, and bus
addresses are handed out in the order in which memory is first translated, one window per buffer.
Every register write is recorded. The registers that the simulated controller works from are kept:
where it reads its next command, where it writes its next event, and whether its doorbell has been
rung. Whoever writes a simulation adds a state of his own, of type `α`.
-/

namespace UsbHost.Simulation

/-- A write to a register of the controller. -/
inductive RegisterWrite
  | doorbell (slot : UInt8) (target : UInt32)
  | commandRing (base : UInt64) (cycle : Bool)
  | eventRing (table : UInt64) (segments : SegmentTable) (dequeue : UInt64)
  | eventDequeue (address : UInt64)
  | contextArray (address : UInt64) (slots : UInt8)
  deriving DecidableEq, Inhabited

/-- An answer prepared for a command, in place of what the controller would do. -/
structure Reply where
  /-- The type of the commands that it is for, if not for any. -/
  kind : Option UInt8 := none
  /-- The command is taken, and nothing is reported. -/
  ignore : Bool := false
  code : CompletionCode := .success
  /-- The slot reported, if not the command's own. -/
  slot : Option UInt8 := none
  deriving DecidableEq, Inhabited

/-- The command is one that the reply has been prepared for. -/
def Reply.isFor (r : Reply) (t : Trb) : Bool := r.kind.all fun kind => kind == t.rawKind

/-- What has happened so far: in each list, the oldest entry first. -/
structure Record where
  writes : Array RegisterWrite := #[]
  /-- Commands that the controller has taken. -/
  commands : Array Trb := #[]
  /-- Input contexts that came with them. -/
  inputs : Array Context.Input := #[]
  /-- Ports reported to the root hub. -/
  ports : Array UInt8 := #[]
  deriving Inhabited

structure Machine (α : Type) where
  /-- Bus address of the buffer that is translated first. -/
  base : UInt64
  user : α
  translated : Array Dma.BufferId := #[]
  clock : UInt64 := 0
  record : Record := {}
  /-- The controller takes no commands. -/
  paused : Bool := false
  /-- The doorbell of the command ring has been rung. -/
  rung : Bool := false
  commands : Ring.Cursor := ⟨0, false⟩
  events : EventSource := {}
  /-- Events are posted without an interrupt. -/
  holdsInterrupts : Bool := false
  replies : List Reply := []
  /-- The slot that Enable Slot gives out next. -/
  nextSlot : UInt8 := 1
  /-- Context arrays that have been programmed; the controller reads the last one. -/
  contextArrays : Nat := 0
  deriving Inhabited

namespace Machine

variable {α : Type}

/-- Distance between the bus addresses of two buffers. -/
def stride : Nat := 0x1000000

def write (m : Machine α) (w : RegisterWrite) : Machine α :=
  { m with record.writes := m.record.writes.push w }

/-- The bus address of the buffer that is translated as number `n`. -/
def address (m : Machine α) (n : Nat) : UInt64 := m.base + UInt64.ofNat (n * stride)

/-- The bus address of a buffer, the same every time. -/
def translate (id : Dma.BufferId) (m : Machine α) : UInt64 × Machine α :=
  match m.translated.findIdx? fun known => known = id with
  | some n => (m.address n, m)
  | none => (m.address m.translated.size, { m with translated := m.translated.push id })

/-- The buffer that starts at a bus address. -/
def bufferAt? (m : Machine α) (address : UInt64) : Option Dma.BufferId :=
  let offset := (address - m.base).toNat
  if offset % stride = 0 then m.translated[offset / stride]? else none

/-- Let time pass. -/
def advance (m : Machine α) (milliseconds : UInt64) : Machine α :=
  { m with clock := m.clock + milliseconds }

end Machine

/-- The machine as a platform. -/
def platform {α : Type} : Platform (Machine α) where
  now := Machine.clock
  busAddress := Machine.translate
  doorbell slot target m :=
    let m := m.write (.doorbell slot target)
    if slot = 0 then { m with rung := true } else m
  setCommandRing base cycle m := { m.write (.commandRing base cycle) with commands := ⟨base, cycle⟩ }
  setEventRing table segments dequeue m := m.write (.eventRing table segments dequeue)
  writeEventDequeue address m := m.write (.eventDequeue address)
  setContextArray address slots m :=
    { m.write (.contextArray address slots) with contextArrays := m.contextArrays + 1 }

end UsbHost.Simulation
