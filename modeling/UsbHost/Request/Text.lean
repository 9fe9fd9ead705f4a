import UsbHost.Request.Basic

/-!
The form in which diagnostics print requests.
-/

namespace UsbHost

def TransferFailure.name : TransferFailure → String
  | stall => "Stall"
  | transaction => "Transaction"
  | babble => "Babble"
  | frameOverrun => "FrameOverrun"
  | dataToggle => "DataToggle"
  | hostBus => "HostBus"
  | split => "Split"
  | timeout => "Timeout"
  | aborted => "Aborted"
  | unknown => "Unknown"

def Request.Status.diagnostic : Request.Status → String
  | pending => "Pending"
  | success => "Success"
  | failed failure => "Failed(" ++ failure.name ++ ")"

def Setup.diagnostic (s : Setup) : String :=
  "SetupPacket \x7b request_type: " ++ toString s.requestType ++
    ", request: " ++ toString s.request ++ ", value: " ++ toString s.value ++
    ", index: " ++ toString s.index ++ ", length: " ++ toString s.length ++ " \x7d"

def Request.diagnostic {ρ : Type} (r : Request ρ) : String :=
  let setup := r.setup.elim "None" fun s => "Some(" ++ s.diagnostic ++ ")"
  let packets := ", ".intercalate (r.packets.map fun size => toString size)
  "UsbRequest \x7b setup: " ++ setup ++ ", buffer_length: " ++ toString r.bufferLength ++
    ", iso_packets: [" ++ packets ++ "], status: " ++ r.status.diagnostic ++
    ", result_length: " ++ toString r.resultLength ++ " \x7d"

end UsbHost
