import UsbHost.Proofs.Host.Lockstep

/-!
Finished requests of twin hosts. Where one host calls a routine, its twin parks the request, unless
its queue is full; then it calls the routine as well, before those of the requests that are parked.
When parked requests are processed, the calls that were still to be made are made, in their order.
-/

namespace UsbHost

variable {σ ρ α β : Type} {depth : Nat}

namespace World

/-- The routine of a request, if it has one, has been called. -/
def called (w : World (Noting σ ρ) ρ) (request : Request ρ) : World (Noting σ ρ) ρ :=
  request.routine.elim w fun routine => w.note routine { request with routine := none }

variable {w v : World (Noting σ ρ) ρ} {request : Request ρ}

section

variable {q : CompletionQueue (Request ρ)}

end

theorem Deferred.called (h : w.Deferred) : (w.called request).Deferred := by
  unfold World.called
  cases request.routine with
  | none => exact h
  | some routine => exact ⟨h.mode, h.devices, h.endpoints⟩

end World

namespace Host

open HostM (Alike Blind)

variable {w v : World (Noting σ ρ) ρ}

end Host

end UsbHost
