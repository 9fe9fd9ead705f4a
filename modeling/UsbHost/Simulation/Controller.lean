import UsbHost.Host.Interrupt
import UsbHost.Simulation.Machine

/-!
The simulated controller. When its doorbell has been rung it takes fresh commands off the command
ring, carries them out and posts a completion event for each; then it interrupts the host until
every event has been handled. It gives out slots, and it copies the contexts that an input context
adds into the output context of a slot. It does not look into transfer rings: transfer events are
posted by whoever drives the simulation. A prepared reply takes the place of all this.
-/

namespace UsbHost.Simulation

variable {α ρ : Type}

/-- Operations on a host that runs on a simulated machine. -/
abbrev SimM (α ρ : Type) := HostM (Machine α) ρ

def machine : SimM α ρ (Machine α) := return (← get).bus.platform

def modifyMachine (f : Machine α → Machine α) : SimM α ρ Unit := HostM.onPlatform f

/-- Write an event onto the event ring. -/
def post (t : Trb) : SimM α ρ Unit :=
  modify fun w =>
    let (events, ring) := w.bus.platform.events.post w.controller.events.ring t
    { w with controller.events.ring := ring, bus.platform.events := events }

/-! ### Commands -/

/-- The input context that a command brings along. -/
def inputOf? (w : World (Machine α) ρ) (t : Trb) : Option Context.Input :=
  match t.kind? with
  | some .addressDevice | some .configureEndpoint | some .evaluateContext => do
    let id ← w.bus.platform.bufferAt? t.parameter
    return (← w.input? id).content
  | _ => none

/-- The device whose output context the context array names for a slot. -/
def deviceIn? (w : World (Machine α) ρ) (slot : UInt8) : Option Nat := do
  guard (w.bus.platform.contextArrays = 1)
  let entry ← (w.controller.slots.contextAt slot).toOption
  guard (entry ≠ 0)
  let id ← w.bus.platform.bufferAt? entry
  w.devices.findIdx? fun d => d.contextBuffer = id

/-- Accept an input context for a slot. -/
def accept (slot : UInt8) (input : Context.Input) : SimM α ρ Unit :=
  modify fun w =>
    match deviceIn? w slot with
    | none => w
    | some i => { w with
        devices := w.devices.modify i fun d => { d with context := input.applyTo d.context } }

/-- Use up the first reply that has been prepared for a command. -/
def takeReply? (t : Trb) : SimM α ρ (Option Reply) := do
  let m ← machine
  match m.replies.find? (·.isFor t) with
  | none => return none
  | some r =>
    modifyMachine fun m => { m with replies := m.replies.eraseP (·.isFor t) }
    return some r

/-- Carry out a command; the result is what is reported, if anything is. -/
def execute (t : Trb) : SimM α ρ (Option CommandReport) := do
  let input := inputOf? (← get) t
  if let some input := input then
    modifyMachine fun m => { m with record.inputs := m.record.inputs.push input }
  match ← takeReply? t with
  | some r => return if r.ignore then none else some ⟨r.code, r.slot.getD t.slot⟩
  | none =>
    match t.kind?, input with
    | some .enableSlot, _ =>
      let slot := (← machine).nextSlot
      modifyMachine fun m => { m with nextSlot := slot + 1 }
      return some ⟨.success, slot⟩
    | _, some input =>
      accept t.slot input
      return some ⟨.success, t.slot⟩
    | _, none => return some ⟨.success, t.slot⟩

/-- The event that reports the command at `address`. -/
def completionEvent (address : UInt64) (report : CommandReport) : Trb :=
  ⟨address, report.code.raw.toUInt32 <<< 24,
    Trb.Kind.commandCompletion.controlBits ||| report.slot.toUInt32 <<< 24⟩

/-- The event that reports a TRB of a transfer ring. -/
def transferEvent (e : TransferEvent) : Trb :=
  ⟨e.address, e.code.raw.toUInt32 <<< 24 ||| (e.residual &&& 0xffffff),
    Trb.Kind.transferEvent.controlBits ||| e.slot.toUInt32 <<< 24 |||
      e.endpoint.toUInt32 <<< 16⟩

/-- Take at most `limit` TRBs off the command ring; `true` if an event has been posted. -/
def takeCommands : (limit : Nat) → SimM α ρ Bool
  | 0 => return false
  | limit + 1 => do
    let cursor := (← machine).commands
    match cursor.step? (← HostM.controller).commands.ring with
    | none => return false
    | some (t, next) =>
      modifyMachine fun m => { m with commands := next }
      match t with
      | none => takeCommands limit
      | some t =>
        modifyMachine fun m => { m with record.commands := m.record.commands.push t }
        match ← execute t with
        | none => takeCommands limit
        | some report =>
          post (completionEvent cursor.position report)
          let _ ← takeCommands limit
          return true

/-- Interrupt the host, at most `limit` times, until there is no event left. -/
def interrupt (env : Env (Machine α) ρ) : (limit : Nat) → SimM α ρ Unit
  | 0 => return ()
  | limit + 1 => do
    if (← Host.handleInterrupt env).isSome then
      interrupt env limit

/-- Let the controller do what is to be done. The ring is passed twice at most: once per cycle
state. -/
def run (env : Env (Machine α) ρ) : SimM α ρ Unit := do
  let m ← machine
  if m.paused || !m.rung then return
  modifyMachine fun m => { m with rung := false }
  let c ← HostM.controller
  if ← takeCommands (2 * c.commands.ring.trbs.size) then
    if !m.holdsInterrupts then
      interrupt env (c.events.ring.trbs.size + 1)

end UsbHost.Simulation
