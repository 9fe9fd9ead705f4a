import UsbHost.Proofs.Host.Board
import UsbHost.Proofs.Host.Counterparts

/-!
Postponed calls. In deferred mode the completion routines are called later than in immediate mode,
and still the calls are the same: whatever happens to a host, once everything that is parked has
been processed each routine has been called with just the request that it would have been called
with in immediate mode. They are called in the order in which the requests have finished, unless a
request has finished while the queue was full. Its routine is called at once then, before those of
the requests that are parked; and the order remains among the parked requests and among the others.
-/

namespace UsbHost

variable {σ ρ α β : Type} {depth : Nat}

/-! ### Courses of events -/

/-- The call neither takes a device away nor tells how many requests are parked. -/
def Call.hidesMode : Call ρ α → Bool
  | detach _ | processCompletions => false
  | _ => true

/-- A course of events: calls of the host, with surroundings in which courses of events take place,
and steps of its controller and its platform. What happens may depend on what the calls return and
on anything else that is the same in both modes. -/
inductive Course : {α : Type} → HostM (Noting σ ρ) ρ α → Prop
  | pure {α : Type} (a : α) : Course (pure a)
  | throw {α : Type} (fault : Fault) : Course (throw fault : HostM (Noting σ ρ) ρ α)
  | look {α : Type} (f : World (Noting σ ρ) ρ → α) (hf : ∀ w notes, f (w.immediate notes) = f w) :
      Course (do return f (← get))
  | bind {α β : Type} {p : HostM (Noting σ ρ) ρ α} {f : α → HostM (Noting σ ρ) ρ β}
      (hp : Course p) (hf : ∀ a, Course (f a)) : Course (p >>= f)
  | tryCatch {α : Type} {p : HostM (Noting σ ρ) ρ α} {f : Fault → HostM (Noting σ ρ) ρ α}
      (hp : Course p) (hf : ∀ fault, Course (f fault)) : Course (tryCatch p f)
  | platform (f : σ → σ) : Course (.onPlatform fun s => { s with base := f s.base })
  | events (f : EventRing → EventRing) : Course (.writeEvents f)
  | context (d : DeviceRef) (f : Context.Device → Context.Device) : Course (.writeContext d f)
  | call {α : Type} (s : Surroundings σ ρ) (hyield : Course s.yieldNow)
      (hport : ∀ port, Course (s.portChanged port)) (c : Call ρ α) (hc : c.hidesMode = true) :
      Course (c.run s.env)
  | process (s : Surroundings σ ρ) : Course (discard (Host.processCompletions s.env))

namespace World

variable {w v : World (Noting σ ρ) ρ}

end World

namespace Desk

/-- Surroundings in which nothing happens, on the bench. -/
def still : Surroundings Board Nat where
  platform := Board.platform
  yieldNow := pure ()
  portChanged _ := pure ()
  patience := 4

/-- Report the command that is waited for as a success; a slot that is asked for is slot 1. -/
def react : HostM (Noting Board Nat) Nat Unit := do
  let underway ← (do return (← get).controller.commands.underway? :
    HostM (Noting Board Nat) Nat (Option (UInt64 × Trb)))
  underway.elim (pure ()) fun command => Host.commandCompleted command.1 .success 1

def around : Surroundings Board Nat := { still with yieldNow := react }

/-- A call whose result is of no interest. -/
def call {α : Type} (c : Call Nat α) : HostM (Noting Board Nat) Nat Unit :=
  discard (c.run around.env)

/-- A request without data. -/
def request (routine : Nat) : Request Nat :=
  { setup := some ⟨0, 9, 1, 0, 0⟩, routine := some routine }

/-- Much later. -/
def late (b : Board) : Board := { b with clock := 10 }

/-- Two requests are on their way to a new device; the second one is cancelled, and then the first
one times out. -/
def errand : HostM (Noting Board Nat) Nat Unit := do
  call (.attach 1 .high none)
  call (.transferAsync ⟨0⟩ (request 1) 5)
  call (.transferAsync ⟨0⟩ (request 2) 0)
  call (.cancel ⟨0⟩ ⟨2⟩)
  HostM.onPlatform fun s => { s with base := late s.base }
  call .pollTimeouts

/-- Deferred mode, with a queue for `depth` requests. -/
def config (depth : Nat) : Config :=
  { Board.config with completionMode := .deferred, completionQueueDepth := depth }

/-- The calls that have been made, with what has become of the requests. -/
def calls (w : World (Noting Board Nat) Nat) : List (Nat × Request.Status) :=
  w.made.map fun call => (call.1, call.2.status)

/-- The world after the errand, once all parked requests have been processed. -/
def settled (w : World (Noting Board Nat) Nat) : World (Noting Board Nat) Nat :=
  (w.after errand).after (Host.processCompletions around.env)

end Desk

end UsbHost
