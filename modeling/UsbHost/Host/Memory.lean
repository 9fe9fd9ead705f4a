import UsbHost.Host.World

/-!
Allocation of what the controller shares with the host: rings, tables and contexts. Memory is
first placed, then translated; what cannot be placed never gets a bus address.
-/

namespace UsbHost

variable {σ ρ : Type}

/-- Operations beneath the host that may be refused. -/
abbrev BusAttempt (σ : Type) := ExceptT Error (BusM σ)

namespace BusAttempt

def ofAttempt {α : Type} (attempt : Attempt α) : BusAttempt σ α :=
  .mk <| match attempt.run with
    | .ok result => pure result
    | .error f => throw f

/-- Memory for a ring, a table or a context. -/
def structureBuffer (size : Nat) : BusAttempt σ Dma.BufferId := do
  let _ ← ofAttempt (Dma.Layout.forStructure size)
  (BusM.allocate : BusM σ _)

/-- Memory for a ring of `count` TRBs; the result is its bus address. -/
def ringMemory (platform : Platform σ) (count : Nat) : BusAttempt σ UInt64 := do
  let _ ← ofAttempt (Ring.layout count)
  BusM.translate platform (← (BusM.allocate : BusM σ _))

def producerRing (platform : Platform σ) (kind : Ring.Kind) (count : Nat) :
    BusAttempt σ ProducerRing :=
  return .create kind count (← ringMemory platform count)

def eventRing (platform : Platform σ) (count : Nat) : BusAttempt σ EventRing :=
  return .create count (← ringMemory platform count)

/-- A slot table, made known to the controller. -/
def slotTable (platform : Platform σ) (maxSlots : UInt8) : BusAttempt σ SlotTable := do
  if maxSlots = 0 then
    throw (.invalidArgument "max_slots" "must be at least 1")
  let memory ← structureBuffer (SlotTable.byteSize maxSlots)
  let address ← BusM.translate platform memory
  BusM.onPlatform (platform.setContextArray address maxSlots)
  return .empty maxSlots

/-- A command ring, made known to the controller. -/
def commandRing (platform : Platform σ) (config : Config) : BusAttempt σ CommandRing := do
  let ring ← producerRing platform .command config.commandRingSize
  BusM.onPlatform (platform.setCommandRing ring.base ring.cycle)
  return { ring := ring, maxSlots := config.maxSlots, timeout := config.commandTimeout }

/-- An event ring with its segment table, made known to the controller. -/
def eventQueue (platform : Platform σ) (config : Config) : BusAttempt σ EventQueue := do
  let ring ← eventRing platform config.eventRingSize
  let memory ← structureBuffer SegmentTable.byteSize
  let segments : SegmentTable := ⟨memory, ring.base, UInt32.ofNat ring.trbs.size⟩
  let address ← BusM.translate platform memory
  BusM.onPlatform (platform.setEventRing address segments ring.base)
  return {
    ring := ring
    segments := segments
    segmentsAddress := address
    maxEvents := config.maxEventsPerInterrupt }

/-- All that a controller with the given settings shares with the host. -/
def controller (platform : Platform σ) (config : Config) : BusAttempt σ Controller := do
  liftExcept config.validate
  let slots ← slotTable platform config.maxSlots
  let commands ← commandRing platform config
  let events ← eventQueue platform config
  return { config := config, slots := slots, commands := commands, events := events }

end BusAttempt

namespace HostAttempt

/-- Run an operation beneath the host. -/
def onBus {α : Type} (op : BusAttempt σ α) : HostAttempt σ ρ α := .mk (HostM.onBus op.run)

/-- Put an input context into memory; its content stays as it is from now on. -/
def inputBuffer (content : Context.Input) : HostAttempt σ ρ Dma.BufferId := do
  let id ← onBus (BusAttempt.structureBuffer Context.Input.byteSize)
  modify fun w => { w with inputs := w.inputs.push ⟨id, content, true⟩ }
  return id

end HostAttempt

namespace HostM

/-- Free the memory of an input context. -/
def freeInput (id : Dma.BufferId) : HostM σ ρ Unit :=
  modify fun w => { w with
    inputs := w.inputs.map fun b => if b.id = id then { b with alive := false } else b }

end HostM

namespace World

/-- The input context in the memory `id`, whether or not it has been freed. -/
def input? (w : World σ ρ) (id : Dma.BufferId) : Option InputBuffer :=
  w.inputs.find? fun b => b.id = id

end World

end UsbHost
