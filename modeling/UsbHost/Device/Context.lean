import UsbHost.Device.Basic
import UsbHost.Endpoint.Context

/-!
Input contexts that a device asks the controller to accept.
-/

namespace UsbHost.Device

variable {ρ : Type}

/-- The control endpoint as Address Device introduces it. -/
def controlContext (speed : Speed) (e : Endpoint ρ) : Context.Endpoint :=
  let c := Context.Endpoint.zero.setDequeue e.initialDequeue
  let c := ((c.setInterval 0).setErrorCount 3).setKind Context.Endpoint.controlKind
  ((c.setMaxBurst 0).setAverageLength 8).setMaxPacketSize speed.controlPacketSize

/-- Input context for Address Device: the slot and the control endpoint `e`. -/
def addressInput (d : Device) (e : Endpoint ρ) : Except Fault Context.Input :=
  let slot := { Context.Device.zero with slot := d.slotContext }
  { dropFlags := 0, addFlags := 0b11, device := slot : Context.Input }.updateEndpoint
    controlEndpointId fun _ => controlContext d.owner.speed e

/-- Input context for Configure Endpoint adding `e`: the slot context as the controller has it,
reaching at least to the new endpoint. -/
def configureInput (d : Device) (e : Endpoint ρ) : Except Fault Context.Input :=
  let slot := d.context.slot.setEntries (max d.context.slot.getEntries e.id)
  let device := { Context.Device.zero with slot := slot }
  e.configureIn { dropFlags := 0, addFlags := 1, device := device }

end UsbHost.Device
