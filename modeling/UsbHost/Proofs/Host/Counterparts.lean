import UsbHost.Proofs.Device.Table
import UsbHost.Proofs.Host.Parking
import UsbHost.Proofs.Host.Programs

/-!
Operations of twin hosts. Each operation but the removal of a device does in deferred mode what it
does in immediate mode, if the rest of the system does while a task is blocked. Only the number of
requests processed tells the modes apart.
-/

namespace UsbHost

variable {σ ρ α β : Type} {depth : Nat}

/-- What goes on around the host is the same in both modes. -/
structure Surroundings.Blind (depth : Nat) (s : Surroundings σ ρ) : Prop where
  yieldNow : HostM.Blind depth s.yieldNow
  portChanged : ∀ port, HostM.Blind depth (s.portChanged port)

namespace Host

open HostM (Alike Blind)
open HostAttempt (lift)

section

variable (s : Surroundings σ ρ)

/-! ### Commands -/

end

section

variable {s : Surroundings σ ρ} (h : s.Blind depth)
include h

/-! ### Waiting -/

end

end Host

end UsbHost
