import UsbHost.Proofs.Host.Conduct
import UsbHost.Proofs.Host.Handover

/-!
Moves of a host. Whatever operations do to the objects of a host, they do in steps of a few kinds:
an endpoint takes a step, a device is bound to a slot, a command is issued. A move is one such step,
or several in a row. Two kinds frame other moves, because what comes last concerns an object that
nobody else knows: a call that creates an endpoint registers it after other tasks have run, and a
call that makes an input context frees it at its end.

Moves are a conduct: a computation obeys it if the world that it leaves, from whatever world and
with whatever result, can be reached by moves.
-/

namespace UsbHost

variable {σ ρ α β : Type} {m : AddressMap σ} {managing : Bool}

/-- The command reads an input context. -/
def Trb.readsInput (t : Trb) : Bool :=
  match t.kind? with
  | some .addressDevice | some .configureEndpoint | some .evaluateContext => true
  | _ => false

namespace World

/-! ### Worlds that differ in one object -/

def putDevice (w : World σ ρ) (d : DeviceRef) (device : Device) : World σ ρ :=
  { w with devices := w.devices.setIfInBounds d.index device }

def writeContext (w : World σ ρ) (d : DeviceRef) (f : Context.Device → Context.Device) :
    World σ ρ :=
  { w with
    devices := w.devices.modify d.index fun device =>
      { device with context := f device.context } }

def addEndpoint (w : World σ ρ) (e : Endpoint ρ) : World σ ρ :=
  { w with endpoints := w.endpoints.push e }

def addDevice (w : World σ ρ) (device : Device) : World σ ρ :=
  { w with devices := w.devices.push device }

def setSlots (w : World σ ρ) (slots : SlotTable) : World σ ρ := { w with controller.slots := slots }

def setCommands (w : World σ ρ) (commands : CommandRing) : World σ ρ :=
  { w with controller.commands := commands }

/-- Put an input context into memory that has not been used before. -/
def addInput (w : World σ ρ) (content : Context.Input) : World σ ρ :=
  { w with
    bus.nextBuffer := w.bus.nextBuffer + 1
    inputs := w.inputs.push ⟨⟨w.bus.nextBuffer⟩, content, true⟩ }

def freeInput (w : World σ ρ) (id : Dma.BufferId) : World σ ρ :=
  { w with inputs := w.inputs.map fun b => if b.id = id then { b with alive := false } else b }

section Reading

variable (w : World σ ρ) (d : DeviceRef) (device : Device) (e : Endpoint ρ)
  (f : Context.Device → Context.Device)

@[simp] theorem endpoints_putDevice : (w.putDevice d device).endpoints = w.endpoints := rfl

@[simp] theorem size_putDevice : (w.putDevice d device).devices.size = w.devices.size :=
  Array.size_setIfInBounds

@[simp] theorem device_putDevice :
    (w.putDevice d device).devices[d.index]? = w.devices[d.index]?.map fun _ => device := by
  rw [putDevice, Array.getElem?_setIfInBounds_self]
  split <;> simp [*]

@[simp] theorem size_writeContext : (w.writeContext d f).devices.size = w.devices.size :=
  Array.size_modify

@[simp] theorem device_writeContext : (w.writeContext d f).devices[d.index]? =
    w.devices[d.index]?.map fun device => { device with context := f device.context } := by
  rw [writeContext, Array.getElem?_modify, if_pos rfl]

@[simp] theorem size_addEndpoint : (w.addEndpoint e).endpoints.size = w.endpoints.size + 1 :=
  Array.size_push _

theorem endpoint_addEndpoint : (w.addEndpoint e).endpoints[w.endpoints.size]? = some e :=
  Array.getElem?_push_size

@[simp] theorem size_addDevice : (w.addDevice device).devices.size = w.devices.size + 1 :=
  Array.size_push _

theorem device_addDevice : (w.addDevice device).devices[w.devices.size]? = some device :=
  Array.getElem?_push_size

variable {w d device e f} {i : Nat} {device' : Device} {e' : Endpoint ρ}

@[simp] theorem device_putDevice_of_ne (h : i ≠ d.index) :
    (w.putDevice d device).devices[i]? = w.devices[i]? :=
  Array.getElem?_setIfInBounds_ne h.symm

theorem device_putDevice_cases (h : (w.putDevice d device).devices[i]? = some device') :
    i = d.index ∧ device' = device ∨ i ≠ d.index ∧ w.devices[i]? = some device' :=
  replaced_cases h

@[simp] theorem device_writeContext_of_ne (h : i ≠ d.index) :
    (w.writeContext d f).devices[i]? = w.devices[i]? := by
  rw [writeContext, Array.getElem?_modify, if_neg h.symm]

/-- A device stays as it is, its output context apart. -/
theorem exists_device_writeContext (h : w.devices[i]? = some device) :
    ∃ context, (w.writeContext d f).devices[i]? = some { device with context := context } := by
  by_cases hi : i = d.index
  · subst hi
    exact ⟨f device.context, by simp [h]⟩
  · exact ⟨device.context, by simp [hi, h]⟩

theorem endpoint_addEndpoint_of_some (h : w.endpoints[i]? = some e') :
    (w.addEndpoint e).endpoints[i]? = some e' := by
  obtain ⟨hlt, rfl⟩ := Array.getElem?_eq_some_iff.1 h
  exact Array.getElem?_push_lt hlt

theorem device_addDevice_of_some (h : w.devices[i]? = some device') :
    (w.addDevice device).devices[i]? = some device' := by
  obtain ⟨hlt, rfl⟩ := Array.getElem?_eq_some_iff.1 h
  exact Array.getElem?_push_lt hlt

end Reading

/-- Some task has its turn to issue a command. -/
def isTaken (w : World σ ρ) : Bool := w.controller.commands.serial.held

/-- The bus address of a buffer, if the platform has been asked for it. -/
def address? (m : AddressMap σ) (w : World σ ρ) (id : Dma.BufferId) : Option UInt64 :=
  m.address? w.bus.platform id

/-- There is an input context at a bus address, and it has not been freed. -/
def HasInput (m : AddressMap σ) (w : World σ ρ) (address : UInt64) : Prop :=
  ∃ b ∈ w.inputs, b.alive = true ∧ w.address? m b.id = some address

/-- The objects and tables of two worlds are the same. What may differ is the platform, the event
ring, and what is kept for tasks. -/
structure Aside (m : AddressMap σ) (w w' : World σ ρ) : Prop where
  slots_eq : w'.controller.slots = w.controller.slots := by rfl
  commands_eq : w'.controller.commands = w.controller.commands := by rfl
  devices_eq : w'.devices = w.devices := by rfl
  endpoints_eq : w'.endpoints = w.endpoints := by rfl
  inputs_eq : w'.inputs = w.inputs := by rfl
  nextBuffer_le : w.bus.nextBuffer ≤ w'.bus.nextBuffer := by exact Nat.le_refl _
  addresses : m.Extends w.bus.platform w'.bus.platform := by exact .refl m _

end World

/-! ### Moves -/

/-- Moves lead from one world to another. Only those of a `managing` host add or take away devices
or endpoints. -/
inductive Moves (m : AddressMap σ) (managing : Bool) : World σ ρ → World σ ρ → Prop
  | refl (w : World σ ρ) : Moves m managing w w
  | trans {w w₁ w₂ : World σ ρ} (h : Moves m managing w w₁) (h' : Moves m managing w₁ w₂) :
      Moves m managing w w₂
  | aside {w w' : World σ ρ} (h : w.Aside m w') : Moves m managing w w'
  | context (w : World σ ρ) (d : DeviceRef) (f : Context.Device → Context.Device) :
      Moves m managing w (w.writeContext d f)
  /-- An endpoint takes a step. -/
  | step {w : World σ ρ} {r : EndpointRef} {e e' : Endpoint ρ} {op : Endpoint.Op ρ}
      {reply : Endpoint.Reply} {ds : List (Delivery ρ)} (hw : w.endpoints[r.index]? = some e)
      (hstep : e.step op = .ok ((reply, ds), e')) (haddressed : op.Addressed (w.address? m))
      (hop : managing = true ∨ op ≠ .invalidate) : Moves m managing w (w.put r e')
  | packetSize {w : World σ ρ} {r : EndpointRef} {e : Endpoint ρ}
      (hw : w.endpoints[r.index]? = some e) (size : UInt16) :
      Moves m managing w (w.put r { e with maxPacketSize := size })
  | newEndpoint (w : World σ ρ) {e : Endpoint ρ} (h : e.Fresh) :
      Moves m managing w (w.addEndpoint e)
  | newDevice (w : World σ ρ) {device : Device} (h : device.registered = []) :
      Moves m managing w (w.addDevice device)
  /-- A new endpoint is registered, after whatever has happened since its creation. -/
  | register (hmanaging : managing = true) {w w₁ : World σ ρ} {e : Endpoint ρ} {d : DeviceRef}
      {device device' : Device} {id : UInt8} (hfresh : e.Fresh)
      (hmoves : Moves m managing (w.addEndpoint e) w₁)
      (hdevice : w₁.devices[d.index]? = some device)
      (hregister : device.register id ⟨w.endpoints.size⟩ = .ok device') :
      Moves m managing w (w₁.putDevice d device')
  | unregister (hmanaging : managing = true) {w : World σ ρ} {d : DeviceRef} {device : Device}
      (hdevice : w.devices[d.index]? = some device) :
      Moves m managing w (w.putDevice d device.unregisterAll.2)
  | assign (hmanaging : managing = true) {w : World σ ρ} {slot : UInt8} {d : DeviceRef}
      {context : UInt64} {slots : SlotTable}
      (hassign : w.controller.slots.assign slot d context = .ok slots) :
      Moves m managing w (w.setSlots slots)
  | free (hmanaging : managing = true) {w : World σ ρ} {slot : UInt8} {d : Option DeviceRef}
      {slots : SlotTable} (hfree : w.controller.slots.free slot = .ok (d, slots)) :
      Moves m managing w (w.setSlots slots)
  /-- A task takes its turn, and ends in a fault. -/
  | turn {w : World σ ρ} (hfree : w.isTaken = false) :
      Moves m managing w
        (w.setCommands { w.controller.commands with serial.held := true })
  /-- A task takes its turn and issues a command. -/
  | issue {w : World σ ρ} {t : Trb} {address : UInt64} {ring : ProducerRing}
      (hfree : w.isTaken = false)
      (henqueue : w.controller.commands.ring.enqueue t = .ok (some (address, ring)))
      (hinput : t.readsInput = true → w.HasInput m t.parameter) :
      Moves m managing w
        (w.setCommands { w.controller.commands with
          ring := ring
          awaited := some address
          report := none
          completed := w.controller.commands.completed.clear
          serial.held := true })
  | report {w : World σ ρ} {address : UInt64} {report : CommandReport} {commands : CommandRing}
      (hcomplete : w.controller.commands.complete address report = .ok commands) :
      Moves m managing w (w.setCommands commands)
  | signal (w : World σ ρ) (completed : Signal) :
      Moves m managing w
        (w.setCommands { w.controller.commands with completed := completed })
  /-- A task stops waiting for its command, and ends its turn. -/
  | conclude (w : World σ ρ) :
      Moves m managing w
        (w.setCommands { w.controller.commands.conclude.2 with serial.held := false })
  | newInput (w : World σ ρ) (content : Context.Input) : Moves m managing w (w.addInput content)
  /-- A call makes an input context, and frees it after its command, whatever else has happened. -/
  | input {w w₁ : World σ ρ} (content : Context.Input)
      (hmoves : Moves m managing (w.addInput content) w₁) (hfree : w₁.isTaken = false) :
      Moves m managing w (w₁.freeInput ⟨w.bus.nextBuffer⟩)

/-- A computation obeys this conduct if whatever it does are moves. -/
def Conduct.moves (m : AddressMap σ) (managing : Bool) : Conduct σ ρ where
  Leads := Moves m managing
  refl := .refl
  trans := .trans

/-- A computation that does only moves may come after other moves. -/
theorem Moves.before {w w₁ : World σ ρ} {p : HostM σ ρ α} (h : Moves m managing w w₁)
    (hp : HostM.Ends p w₁ (Moves m managing w₁) fun _ => Moves m managing w₁) :
    HostM.Ends p w₁ (Moves m managing w) fun _ => Moves m managing w :=
  hp.mono (fun _ => h.trans) fun _ _ => h.trans

end UsbHost
