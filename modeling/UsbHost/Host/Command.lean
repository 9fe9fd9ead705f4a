import UsbHost.Command.Trb
import UsbHost.Host.Device

/-!
Commands. Tasks that have a command for the controller take turns: each puts its TRB on the command
ring, rings the doorbell and waits until the report of that very TRB has come in, or the time is
up. An input context belongs to the call that made it.
-/

namespace UsbHost.Host

open HostAttempt (lift)

variable {σ ρ : Type}

/-- Take the turn, if no other task has it. -/
def takeTurn : HostM σ ρ Bool := do
  let commands := (← HostM.controller).commands
  match commands.serial.tryTake? with
  | none => return false
  | some serial =>
    HostM.setCommands { commands with serial := serial }
    return true

def endTurn : HostM σ ρ Unit :=
  HostM.modifyController fun c => { c with commands.serial := c.commands.serial.release }

/-- Consume the signal that the waiting command has been reported. -/
def takeCompleted : HostM σ ρ Bool := do
  let commands := (← HostM.controller).commands
  let (raised, completed) := commands.completed.take
  HostM.setCommands { commands with completed := completed }
  return raised

/-- Issue a command and wait for its report, on the task's turn. -/
def runCommand (env : Env σ ρ) (t : Trb) : HostAttempt σ ρ CommandReport := do
  let commands := (← lift HostM.controller).commands
  let issued ← lift (HostM.ofExcept (commands.issue t))
  let commands ← HostAttempt.ofExcept issued
  lift (HostM.setCommands commands)
  lift (HostM.onPlatform (env.doorbell 0 0))
  let _ ← lift (awaitSignal env takeCompleted commands.timeout)
  let (report, commands) := (← lift HostM.controller).commands.conclude
  lift (HostM.setCommands commands)
  match report with
  | some report => return report
  | none => throw (.timeout "xHCI command" commands.timeout)

/-- Issue a command and wait for its report. A report of failure is a report; an error says that
none has come. -/
def doCommand (env : Env σ ρ) (t : Trb) : HostAttempt σ ρ CommandReport :=
  .mk do
    awaitLock env takeTurn
    let result ← (runCommand env t).run
    endTurn
    return result

/-- Issue a command that has to succeed. -/
def command (env : Env σ ρ) (t : Trb) : HostAttempt σ ρ CommandReport := do
  HostAttempt.ofExcept (← doCommand env t).check

/-- Take in the report of a command. -/
def commandCompleted (address : UInt64) (code : CompletionCode) (slot : UInt8) :
    HostM σ ρ Unit := do
  let commands := (← HostM.controller).commands
  HostM.setCommands (← HostM.ofExcept (commands.complete address ⟨code, slot⟩))

/-! ### The commands -/

/-- Ask for a slot. A slot outside the table is as good as none. -/
def enableSlot (env : Env σ ρ) : HostAttempt σ ρ UInt8 := do
  let report ← command env Command.enableSlot
  let maxSlots := (← lift HostM.controller).commands.maxSlots
  if report.slot = 0 ∨ maxSlots < report.slot then
    throw (.commandFailed .noSlotsAvailable)
  return report.slot

def disableSlot (env : Env σ ρ) (slot : UInt8) : HostAttempt σ ρ Unit :=
  discard (command env (Command.disableSlot slot))

def addressDevice (env : Env σ ρ) (slot : UInt8) (input : Dma.BufferId) (setAddress : Bool) :
    HostAttempt σ ρ Unit := do
  let pointer ← lift (HostM.translate env input)
  discard (command env (Command.addressDevice slot pointer setAddress))

def configureEndpoint (env : Env σ ρ) (slot : UInt8) (input : Dma.BufferId)
    (deconfigure : Bool) : HostAttempt σ ρ Unit := do
  let pointer ← lift (HostM.translate env input)
  discard (command env (Command.configureEndpoint slot pointer deconfigure))

def evaluateContext (env : Env σ ρ) (slot : UInt8) (input : Dma.BufferId) :
    HostAttempt σ ρ Unit := do
  let pointer ← lift (HostM.translate env input)
  discard (command env (Command.evaluateContext slot pointer))

def resetEndpoint (env : Env σ ρ) (slot endpoint : UInt8) : HostAttempt σ ρ Unit :=
  discard (command env (Command.resetEndpoint slot endpoint))

def stopEndpoint (env : Env σ ρ) (slot endpoint : UInt8) (suspend : Bool) :
    HostAttempt σ ρ Unit :=
  discard (command env (Command.stopEndpoint slot endpoint suspend))

/-- A command without effect, which shows that commands are carried out. -/
def noOp (env : Env σ ρ) : HostAttempt σ ρ Unit := discard (command env Command.noOp)

/-- Use an input context for one call, and free it afterwards. -/
def withInput {α : Type} (make : HostAttempt σ ρ Dma.BufferId)
    (use : Dma.BufferId → HostAttempt σ ρ α) : HostAttempt σ ρ α := do
  let input ← make
  let result ← lift (use input).run
  lift (HostM.freeInput input)
  HostAttempt.ofExcept result

end UsbHost.Host
