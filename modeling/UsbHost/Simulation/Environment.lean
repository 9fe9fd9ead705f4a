import UsbHost.Simulation.Controller

/-!
The simulated surroundings of a host. While a task is blocked, a millisecond passes with every
turn, the controller does what is to be done, and then whoever drives the simulation may act. What
he does may block in turn; `depth` bounds how deep such waits are nested, and a wait below that is
stuck.
-/

namespace UsbHost.Simulation

variable {α ρ : Type}

/-- What whoever drives a simulation has to say. -/
structure Scenario (α ρ : Type) where
  /-- The work of a completion routine. -/
  complete : Env (Machine α) ρ → ρ → Request ρ → SimM α ρ Unit
  /-- What happens while a task is blocked. -/
  act : Env (Machine α) ρ → SimM α ρ Unit

def reportPort (port : UInt8) : SimM α ρ Unit :=
  modifyMachine fun m => { m with record.ports := m.record.ports.push port }

def environment (scenario : Scenario α ρ) (patience : Nat) : (depth : Nat) → Env (Machine α) ρ
  | 0 => { platform with
      yieldNow := throw .stuck
      complete := fun _ _ => throw .stuck
      portChanged := reportPort
      patience := 0 }
  | depth + 1 =>
    let inner := environment scenario patience depth
    { platform with
      yieldNow := do
        modifyMachine (·.advance 1)
        run inner
        scenario.act inner
      complete := scenario.complete inner
      portChanged := reportPort
      patience := patience }

end UsbHost.Simulation
