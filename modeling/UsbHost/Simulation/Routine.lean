import UsbHost.Endpoint.InFlight
import UsbHost.Endpoint.Basic

/-!
Requests of a simulation. A request is described by what its buffer holds, and its completion
routine by a tag and by how often it submits the request again.
-/

namespace UsbHost.Simulation

/-- A completion routine. -/
structure Routine (τ : Type) where
  tag : τ
  /-- How often the request is submitted again. -/
  again : Nat := 0
  /-- Where it is submitted again. -/
  endpoint : Option EndpointRef := none
  deriving Inhabited

/-- What a buffer holds. -/
inductive Content
  | bytes (content : ByteArray)
  | zeros (size : Nat)
  /-- Bytes that count upwards from `start`. -/
  | counting (size start : Nat)
  deriving Inhabited

/-- A buffer for transfer data with this content. -/
def Content.buffer (id : Dma.BufferId) : Content → Attempt Dma.Buffer
  | bytes content => Dma.Buffer.ofBytes id content
  | zeros size => Dma.Buffer.forData id size
  | counting size start => do
    let _ ← Dma.Layout.forData size
    return ⟨id, ⟨Array.ofFn fun i : Fin size => UInt8.ofNat (start + i)⟩⟩

structure RequestSpec (τ : Type) where
  /-- Use the request that was handed back last, if there is one. -/
  held : Bool := false
  content : Option Content := none
  setup : Option Setup := none
  /-- Sizes of isochronous packets; a control request has none. -/
  packets : List UInt16 := []
  routine : Option (Routine τ) := none
  deriving Inhabited

namespace RequestSpec

variable {τ : Type}

/-- The request described, with its data in buffer `id`. -/
def build (spec : RequestSpec τ) (id : Dma.BufferId) : Attempt (Request (Routine τ)) := do
  let buffer ← spec.content.mapM (Content.buffer id)
  let r : Request (Routine τ) := { buffer := buffer, routine := spec.routine }
  match spec.setup with
  | some setup => return { r with setup := some setup }
  | none => liftExcept (spec.packets.foldlM Request.addPacket r)

end RequestSpec

end UsbHost.Simulation
