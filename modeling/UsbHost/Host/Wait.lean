import UsbHost.Host.World

/-!
Blocked tasks. A task that has to wait lets the rest of the system run and looks again. It waits
for a signal, up to a deadline, or for something to be there, for as long as it takes.
-/

namespace UsbHost.Host

variable {σ ρ : Type}

/-- Look until `poll` finds something, yielding in between. -/
def awaitSome {α : Type} (env : Env σ ρ) (poll : HostM σ ρ (Option α)) :
    (patience : Nat) → HostM σ ρ α
  | 0 => throw .stuck
  | patience + 1 => do
    match ← poll with
    | some a => return a
    | none =>
      env.yieldNow
      awaitSome env poll patience

/-- Wait until `take` consumes a signal, or until `timeout` milliseconds have passed since `start`.
A signal that comes together with the deadline still counts. -/
def awaitSignalSince (env : Env σ ρ) (take : HostM σ ρ Bool) (start timeout : UInt64) :
    (patience : Nat) → HostM σ ρ Bool
  | 0 => throw .stuck
  | patience + 1 => do
    if ← take then return true
    if timeout.toNat ≤ (← HostM.now env).toNat - start.toNat then
      take
    else
      env.yieldNow
      awaitSignalSince env take start timeout patience

/-- Wait until `take` consumes a signal, for at most `timeout` milliseconds. -/
def awaitSignal (env : Env σ ρ) (take : HostM σ ρ Bool) (timeout : UInt64) : HostM σ ρ Bool := do
  awaitSignalSince env take (← HostM.now env) timeout env.patience

/-- Take a lock, yielding while somebody else holds it. -/
def awaitLock (env : Env σ ρ) (tryTake : HostM σ ρ Bool) : HostM σ ρ Unit :=
  awaitSome env (return if ← tryTake then some () else none) env.patience

end UsbHost.Host
