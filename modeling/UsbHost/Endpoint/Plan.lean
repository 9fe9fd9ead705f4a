import UsbHost.Dma.Address
import UsbHost.Endpoint.Descriptor
import UsbHost.Request.Basic
import UsbHost.Trb.Build

/-!
Transfer descriptors. A request becomes one transfer descriptor (TD), a run of TRBs:

* control: Setup, Data if there is data, Status, each of which reports its own event;
* bulk and interrupt: chained Normal TRBs of at most 64 KiB, of which the last reports;
* isochronous: one Isoch TRB per packet, of which the last reports.

A request that cannot be expressed in this way is refused before any ring is touched.
-/

namespace UsbHost

structure TdPlan where
  trbs : List Trb
  /-- There is a data stage, or data at all. -/
  hasData : Bool
  /-- Bytes that the TRBs describe. -/
  dataLength : Nat
  deriving DecidableEq, Inhabited

namespace TdPlan

variable {ρ : Type}

/-- Refuse a request that has no transfer descriptor. -/
def refuse {α : Type} (reason : String) : Attempt α := Attempt.refuse (.invalidArgument "urb" reason)

/-- Without data the status stage goes IN; with data it goes against the data. -/
def control (r : Request ρ) (data : UInt64) : Attempt TdPlan := do
  let length := r.bufferLength
  let some setup := r.setup | refuse "control request without setup packet"
  if Trb.maxTransfer < length then
    refuse "control data stage larger than 64 KiB"
  if setup.isIn && length = 0 then
    refuse "IN control request without data buffer"
  let report := Trb.Flags.interruptOnCompletion
  if length = 0 then
    return {
      trbs := [.setupStage setup Trb.noDataStage report, .statusStage true report]
      hasData := false
      dataLength := 0 }
  else
    let stage := if setup.isIn then Trb.inDataStage else Trb.outDataStage
    return {
      trbs := [.setupStage setup stage report,
        .dataStage data (UInt32.ofNat length) setup.isIn report,
        .statusStage (!setup.isIn) report]
      hasData := true
      dataLength := length }

/-- TRBs that `length` bytes take. -/
def chunkCount (length : Nat) : Nat := (length + Trb.maxTransfer - 1) / Trb.maxTransfer

/-- Bytes of chunk `i` out of `length` bytes. -/
def chunkLength (length i : Nat) : Nat := min (length - i * Trb.maxTransfer) Trb.maxTransfer

/-- The TRB of chunk `i` out of `length` bytes at `data`. -/
def chunk (data : UInt64) (length i : Nat) : Except Fault Trb := do
  let remaining := chunkCount length - i - 1
  return .normal (← Dma.busOffset data (i * Trb.maxTransfer))
    (UInt32.ofNat (chunkLength length i)) (UInt32.ofNat remaining)
    (if remaining = 0 then .interruptOnCompletion else .chain ||| .interruptOnShortPacket)

def bulk (r : Request ρ) (data : UInt64) : Attempt TdPlan := do
  let length := r.bufferLength
  if length = 0 then
    refuse "transfer without data buffer"
  return {
    trbs := ← liftM ((List.range (chunkCount length)).mapM (chunk data length))
    hasData := true
    dataLength := length }

/-- TRBs of the packets from `offset` bytes above `data` on. -/
def packetTrbs (data : UInt64) (offset : Nat) : List UInt16 → Except Fault (List Trb)
  | [] => .ok []
  | size :: rest => do
    let flags := if rest.isEmpty then
        Trb.Flags.startAsap ||| .interruptOnCompletion
      else
        Trb.Flags.startAsap
    let first := Trb.isoch (← Dma.busOffset data offset) size.toUInt32
      (UInt32.ofNat rest.length) flags
    return first :: (← packetTrbs data (offset + size.toNat) rest)

def isochronous (r : Request ρ) (data : UInt64) : Attempt TdPlan := do
  let total := r.packets.foldr (fun packet total => packet.toNat + total) 0
  if r.packets.isEmpty then
    refuse "isochronous request without packets"
  if r.bufferLength < total then
    refuse "isochronous packets exceed the buffer"
  return {
    trbs := ← liftM (packetTrbs data 0 r.packets)
    hasData := true
    dataLength := total }

/-- The transfer descriptor of `r` on an endpoint of kind `kind`, with its data at bus address
`data`. -/
def ofRequest (kind : TransferKind) (r : Request ρ) (data : UInt64) : Attempt TdPlan :=
  match kind with
  | .control => control r data
  | .bulk | .interrupt => bulk r data
  | .isochronous => isochronous r data

end TdPlan

end UsbHost
