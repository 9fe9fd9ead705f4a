import UsbHost.Dma.Buffer
import UsbHost.Request.Setup

/-!
Transfer requests. A request describes one transfer and carries its outcome back. While the
transfer is in flight the endpoint owns the request; afterwards it is handed to its completion
routine, or back to the task that waited for it. The routine is a value of a type `ρ` that the
surroundings give a meaning to.
-/

namespace UsbHost

open Dma

/-- Outcome of a request. -/
inductive Request.Status
  /-- Not submitted, or in flight. -/
  | pending
  | success
  | failed (failure : TransferFailure)
  deriving DecidableEq, Inhabited

/-- Isochronous packets that one request can hold. -/
def Request.maxPackets : Nat := 32

theorem Request.nil_le : ([] : List UInt16).length ≤ Request.maxPackets := by decide

structure Request (ρ : Type) where
  /-- Present on control requests. -/
  setup : Option Setup := none
  buffer : Option Buffer := none
  /-- Sizes of the isochronous packets. -/
  packets : List UInt16 := []
  packets_le : packets.length ≤ Request.maxPackets := by exact Request.nil_le
  status : Request.Status := .pending
  resultLength : Nat := 0
  routine : Option ρ := none
  completeOnNak : Bool := false

namespace Request

variable {ρ : Type}

instance : Inhabited (Request ρ) := ⟨{}⟩

/-- Add one isochronous packet. -/
def addPacket (r : Request ρ) (size : UInt16) : Except Error (Request ρ) :=
  if h : r.packets.length < maxPackets then
    .ok { r with
      packets := r.packets ++ [size]
      packets_le := by simpa using Nat.succ_le_of_lt h }
  else
    .error (.resourceExhausted "isochronous packets")

/-- A request over `buffer` with one packet per size. -/
def isochronous (buffer : Buffer) (sizes : List UInt16) : Except Error (Request ρ) :=
  sizes.foldlM addPacket { buffer := some buffer }

/-- Bytes of the data buffer. -/
def bufferLength (r : Request ρ) : Nat := r.buffer.elim 0 Buffer.length

/-- The data that was transferred, once the request has completed. -/
def data (r : Request ρ) : ByteArray := r.buffer.elim .empty (·.takeBytes r.resultLength)

def isSuccess (r : Request ρ) : Bool := r.status == .success

def failure? (r : Request ρ) : Option TransferFailure :=
  match r.status with
  | .failed failure => some failure
  | _ => none

/-- Take the data buffer out. -/
def takeBuffer (r : Request ρ) : Option Buffer × Request ρ := (r.buffer, { r with buffer := none })

/-- Replace one byte of the data buffer, if there is one. -/
def setByte (r : Request ρ) (offset : Nat) (value : UInt8) : Except Fault (Request ρ) :=
  match r.buffer with
  | none => .ok r
  | some b => do return { r with buffer := some (← b.setByte offset value) }

/-- Record the outcome. -/
def finish (r : Request ρ) (status : Status) (length : Nat) : Request ρ :=
  { r with status := status, resultLength := length }

end Request

end UsbHost
