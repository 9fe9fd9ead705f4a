import UsbHost.Fault
import UsbHost.Trb.CompletionCode

/-!
Errors: refusals and failures that a caller is meant to handle, each with its cause. `message` is
the one place that words them. `Attempt` is the type of an operation that may be refused with an
`Error` or end in a `Fault`.
-/

namespace UsbHost

inductive Error
  | outOfMemory (requested : Nat)
  | invalidArgument (name reason : String)
  /-- No TRB of the ring is free; completions have to be processed first. -/
  | ringFull (ring : Ring.Kind)
  /-- A bounded resource (request window, queue, packet list) is used up. -/
  | resourceExhausted (resource : String)
  | invalidSlot (slot : UInt8)
  | slotOccupied (slot : UInt8)
  | invalidEndpoint (endpoint : UInt8)
  /-- The endpoint is not configured on the controller, or has been shut down. -/
  | endpointNotValid (endpoint : UInt8)
  | commandFailed (code : CompletionCode)
  | timeout (operation : String) (milliseconds : UInt64)
  /-- The controller itself reported an error. -/
  | hardware (device : String) (code : UInt32)
  deriving DecidableEq, Inhabited

namespace Error

/-- The same operation may succeed later. -/
def isRetryable : Error → Bool
  | ringFull _ | resourceExhausted _ | timeout .. => true
  | _ => false

/-- The kind of an error, as diagnostics name it. -/
def name : Error → String
  | outOfMemory _ => "OutOfMemory"
  | invalidArgument .. => "InvalidArgument"
  | ringFull _ => "RingFull"
  | resourceExhausted _ => "ResourceExhausted"
  | invalidSlot _ => "InvalidSlot"
  | slotOccupied _ => "SlotOccupied"
  | invalidEndpoint _ => "InvalidEndpoint"
  | endpointNotValid _ => "EndpointNotValid"
  | commandFailed _ => "CommandFailed"
  | timeout .. => "Timeout"
  | hardware .. => "HardwareError"

def message : Error → String
  | outOfMemory requested => "Out of memory: requested " ++ toString requested ++ " bytes"
  | invalidArgument name reason => "Invalid argument " ++ name ++ ": " ++ reason
  | ringFull ring => ring.name ++ " ring is full"
  | resourceExhausted resource => "Resource exhausted: " ++ resource
  | invalidSlot slot => "Invalid slot ID " ++ toString slot
  | slotOccupied slot => "Slot " ++ toString slot ++ " is already assigned"
  | invalidEndpoint endpoint => "Invalid endpoint ID " ++ toString endpoint
  | endpointNotValid endpoint => "Endpoint " ++ toString endpoint ++ " is not valid"
  | commandFailed code => "Command failed: " ++ code.message
  | timeout operation milliseconds =>
    operation ++ " timed out after " ++ toString milliseconds ++ " ms"
  | hardware device code => "Hardware error on " ++ device ++ ": code " ++ toString code

/-- What a submitter is told whose request was refused with this error. -/
def rejection (e : Error) : String := "request rejected: " ++ e.message

end Error

/-- An operation that gives a value, is refused, or breaks a precondition. -/
abbrev Attempt (α : Type) := ExceptT Error (Except Fault) α

namespace Attempt

def refuse {α : Type} (e : Error) : Attempt α := .mk (.ok (.error e))

def fault {α : Type} (f : Fault) : Attempt α := .mk (.error f)

end Attempt

end UsbHost
