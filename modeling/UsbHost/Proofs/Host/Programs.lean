import UsbHost.Host.Basic

/-!
What can happen to a host. Tasks and interrupt handlers call its operations, the controller writes
events and device contexts, time passes; and while one task is blocked in an operation, all of this
goes on in the operation's surroundings. A `Program` is a computation that is made of such steps,
and surroundings are programs themselves. A task may also be left behind for good in the middle of
an operation: the fault that ends its program is caught and another program goes on. Hence the
reachable worlds include every world that the surroundings of a blocked task may find.

Of the platform only this is assumed: the bus address of a buffer, once it is known, stays what it
is, and the last 64 KiB of the address space begin no buffer.
-/

namespace UsbHost

variable {σ ρ α : Type}

/-! ### Bus addresses -/

/-- The bus addresses that a platform has given out. -/
structure AddressMap (σ : Type) where
  address? : σ → Dma.BufferId → Option UInt64

/-- Every address known in `s` is known in `s'`. -/
def AddressMap.Extends (m : AddressMap σ) (s s' : σ) : Prop :=
  ∀ id address, m.address? s id = some address → m.address? s' id = some address

@[refl] theorem AddressMap.Extends.refl (m : AddressMap σ) (s : σ) : m.Extends s s :=
  fun _ _ h => h

theorem AddressMap.Extends.trans {m : AddressMap σ} {s s' s'' : σ} (h : m.Extends s s')
    (h' : m.Extends s' s'') : m.Extends s s'' :=
  fun id address hs => h' id address (h id address hs)

/-- The platform gives out bus addresses once and for all. -/
structure Platform.Respects (p : Platform σ) (m : AddressMap σ) : Prop where
  busAddress_eq : ∀ id s, m.address? (p.busAddress id s).2 id = some (p.busAddress id s).1
  fits : ∀ id s, (p.busAddress id s).1.toNat + Dma.structureBoundary ≤ UInt64.size
  busAddress : ∀ id s, m.Extends s (p.busAddress id s).2
  doorbell : ∀ slot target s, m.Extends s (p.doorbell slot target s)
  setCommandRing : ∀ base cycle s, m.Extends s (p.setCommandRing base cycle s)
  setEventRing : ∀ table segments dequeue s, m.Extends s (p.setEventRing table segments dequeue s)
  writeEventDequeue : ∀ address s, m.Extends s (p.writeEventDequeue address s)
  setContextArray : ∀ address slots s, m.Extends s (p.setContextArray address slots s)

/-- Asked once more, the platform says what it has said before. -/
theorem Platform.Respects.fst_busAddress {p : Platform σ} {m : AddressMap σ} (h : p.Respects m)
    {id : Dma.BufferId} {s : σ} {address : UInt64} (hknown : m.address? s id = some address) :
    (p.busAddress id s).1 = address :=
  Option.some.inj ((h.busAddress_eq id s).symm.trans (h.busAddress id s id address hknown))

/-! ### Calls -/

/-- The operations that a host offers, by the type of their result. -/
inductive Call (ρ : Type) : Type → Type
  | checkRunning : Call ρ (Except Error Unit)
  | interrupt : Call ρ (Option UInt64)
  | attach (rootPort : UInt8) (speed : Speed) (route : Option HubRoute) :
      Call ρ (Except Error DeviceRef)
  | detach (d : DeviceRef) : Call ρ (Except Error Unit)
  | configure (d : DeviceRef) (descriptor : EndpointDescriptor) :
      Call ρ (Except Error EndpointRef)
  | setMaxPacketSize (d : DeviceRef) (size : UInt16) : Call ρ (Except Error Unit)
  | recoverEndpoint (e : EndpointRef) : Call ρ (Except Error Unit)
  | processCompletions : Call ρ Nat
  | pollTimeouts : Call ρ Nat
  | listen : Call ρ Unit
  | transferAsync (e : EndpointRef) (request : Request ρ) (timeout : UInt64) :
      Call ρ (Except (Rejected ρ) RequestId)
  | transfer (e : EndpointRef) (request : Request ρ) (timeout : UInt64) :
      Call ρ (Except (TransferError ρ) (Request ρ))
  | cancel (e : EndpointRef) (id : RequestId) : Call ρ Bool
  | pollEndpoint (now : UInt64) (e : EndpointRef) : Call ρ Nat
  | transferEvent (e : EndpointRef) (event : TransferEvent) : Call ρ Unit
  | invalidate (e : EndpointRef) : Call ρ Nat
  | slotEvent (event : TransferEvent) : Call ρ Bool
  | commandCompleted (address : UInt64) (code : CompletionCode) (slot : UInt8) : Call ρ Unit
  | enableSlot : Call ρ (Except Error UInt8)
  | disableSlot (slot : UInt8) : Call ρ (Except Error Unit)
  | stopEndpoint (slot endpoint : UInt8) (suspend : Bool) : Call ρ (Except Error Unit)
  | resetEndpoint (slot endpoint : UInt8) : Call ρ (Except Error Unit)

namespace Call

/-- The call adds or takes away devices or endpoints. -/
def isManagement : Call ρ α → Bool
  | attach .. | detach .. | configure .. | invalidate .. => true
  | _ => false

def run (env : Env σ ρ) : Call ρ α → HostM σ ρ α
  | checkRunning => (Host.checkRunning env).run
  | interrupt => Host.handleInterrupt env
  | attach rootPort speed route => (Host.attach env rootPort speed route).run
  | detach d => (Host.detach env d).run
  | configure d descriptor => (Host.configure env d descriptor).run
  | setMaxPacketSize d size => (Host.setMaxPacketSize env d size).run
  | recoverEndpoint e => (Host.recoverEndpoint env e).run
  | processCompletions => Host.processCompletions env
  | pollTimeouts => Host.pollTimeouts env
  | listen => HostM.modifyController fun c => { c with rootHub := true }
  | transferAsync e request timeout => Host.transferAsync env e request timeout
  | transfer e request timeout => Host.transfer env e request timeout
  | cancel e id => Host.cancel env e id
  | pollEndpoint now e => Host.pollEndpoint env now e
  | transferEvent e event => Host.transferEvent env e event
  | invalidate e => Host.invalidate env e
  | slotEvent event => Host.slotEvent env event
  | commandCompleted address code slot => Host.commandCompleted address code slot
  | enableSlot => (Host.enableSlot env).run
  | disableSlot slot => (Host.disableSlot env slot).run
  | stopEndpoint slot endpoint suspend => (Host.stopEndpoint env slot endpoint suspend).run
  | resetEndpoint slot endpoint => (Host.resetEndpoint env slot endpoint).run

end Call

/-! ### Programs -/

/-- The controller writes into the event ring. -/
def HostM.writeEvents (f : EventRing → EventRing) : HostM σ ρ Unit :=
  modifyController fun c => { c with events.ring := f c.events.ring }

/-- The controller writes the output context of a device. -/
def HostM.writeContext (d : DeviceRef) (f : Context.Device → Context.Device) : HostM σ ρ Unit :=
  modify fun w => { w with
    devices := w.devices.modify d.index fun device =>
      { device with context := f device.context } }

/-- A computation made of calls of the host and of steps of its controller and its platform. Unless
it is `managing`, neither the calls nor their surroundings add or take away devices or
endpoints. -/
inductive Program (m : AddressMap σ) (managing : Bool) : {α : Type} → HostM σ ρ α → Prop
  | pure {α : Type} (a : α) : Program m managing (pure a)
  | throw {α : Type} (fault : Fault) : Program m managing (throw fault : HostM σ ρ α)
  | look : Program m managing get
  | bind {α β : Type} {p : HostM σ ρ α} {f : α → HostM σ ρ β} (hp : Program m managing p)
      (hf : ∀ a, Program m managing (f a)) : Program m managing (p >>= f)
  | tryCatch {α : Type} {p : HostM σ ρ α} {f : Fault → HostM σ ρ α} (hp : Program m managing p)
      (hf : ∀ fault, Program m managing (f fault)) : Program m managing (tryCatch p f)
  | platform (f : σ → σ) (hf : ∀ s, m.Extends s (f s)) : Program m managing (.onPlatform f)
  | events (f : EventRing → EventRing) : Program m managing (.writeEvents f)
  | context (d : DeviceRef) (f : Context.Device → Context.Device) :
      Program m managing (.writeContext d f)
  | call {α : Type} (env : Env σ ρ) (hplatform : env.toPlatform.Respects m)
      (hyield : Program m managing env.yieldNow)
      (hcomplete : ∀ routine request, Program m managing (env.complete routine request))
      (hport : ∀ port, Program m managing (env.portChanged port)) (c : Call ρ α)
      (hc : managing = true ∨ c.isManagement = false) : Program m managing (c.run env)

/-- A property that a sequence of computations has when each of them does. -/
structure HostM.Sequential (P : (α : Type) → HostM σ ρ α → Prop) : Prop where
  pure : ∀ {α : Type} (a : α), P α (pure a)
  throw : ∀ {α : Type} (fault : Fault), P α (throw fault)
  bind : ∀ {α β : Type} {p : HostM σ ρ α} {f : α → HostM σ ρ β}, P α p → (∀ a, P β (f a)) →
    P β (p >>= f)

namespace HostM.Sequential

variable {α β : Type} {P : (α : Type) → HostM σ ρ α → Prop} (hP : HostM.Sequential P)
include hP

theorem mapM {as : List α} {f : α → HostM σ ρ β} (hf : ∀ a, P β (f a)) :
    P (List β) (as.mapM f) := by
  induction as with
  | nil =>
    rw [List.mapM_nil]
    exact hP.pure _
  | cons a as ih =>
    rw [List.mapM_cons]
    exact hP.bind (hf a) fun b => hP.bind ih fun bs => hP.pure _

variable {env : Env σ ρ} (hyield : P Unit env.yieldNow)
include hyield

theorem awaitSome {poll : HostM σ ρ (Option α)} (hpoll : P _ poll) (patience : Nat) :
    P α (Host.awaitSome env poll patience) := by
  induction patience with
  | zero => exact hP.throw _
  | succ patience ih =>
    refine hP.bind hpoll fun found => ?_
    cases found with
    | some a => exact hP.pure a
    | none => exact hP.bind hyield fun _ => ih

theorem awaitSignal (hnow : P UInt64 (HostM.now env)) {take : HostM σ ρ Bool}
    (htake : P Bool take) (timeout : UInt64) : P Bool (Host.awaitSignal env take timeout) := by
  refine hP.bind hnow fun start => ?_
  induction env.patience with
  | zero => exact hP.throw _
  | succ patience ih =>
    rw [Host.awaitSignalSince]
    refine hP.bind htake fun taken => ?_
    split
    · exact hP.pure _
    · refine hP.bind hnow fun now => ?_
      split
      · exact htake
      · exact hP.bind hyield fun _ => ih

end HostM.Sequential

/-- A property that computations have when the computations that they are put together from do. -/
structure HostM.Compositional (P : (α : Type) → HostM σ ρ α → Prop) : Prop
    extends HostM.Sequential P where
  look : P _ get
  tryCatch : ∀ {α : Type} {p : HostM σ ρ α} {f : Fault → HostM σ ρ α}, P α p →
    (∀ fault, P α (f fault)) → P α (tryCatch p f)

section Programs

variable {m : AddressMap σ} {managing : Bool}

theorem Program.compositional :
    HostM.Compositional fun _ (p : HostM σ ρ _) => Program m managing p :=
  ⟨⟨.pure, .throw, .bind⟩, .look, .tryCatch⟩

/-- Programs have a compositional property if steps of the controller and the platform have it, and
calls do in surroundings that have it. -/
theorem Program.holds {P : (α : Type) → HostM σ ρ α → Prop} (hP : HostM.Compositional P)
    (hplatform : ∀ f : σ → σ, (∀ s, m.Extends s (f s)) → P _ (.onPlatform f))
    (hevents : ∀ f, P _ (.writeEvents f)) (hcontext : ∀ d f, P _ (.writeContext d f))
    (hcall : ∀ {α : Type} (env : Env σ ρ) (c : Call ρ α), env.toPlatform.Respects m →
      P _ env.yieldNow → (∀ routine request, P _ (env.complete routine request)) →
      (∀ port, P _ (env.portChanged port)) → managing = true ∨ c.isManagement = false →
      P α (c.run env))
    {p : HostM σ ρ α} (h : Program m managing p) : P α p := by
  induction h with
  | pure a => exact hP.pure a
  | throw fault => exact hP.throw fault
  | look => exact hP.look
  | bind _ _ ih ih' => exact hP.bind ih ih'
  | tryCatch _ _ ih ih' => exact hP.tryCatch ih ih'
  | platform f hf => exact hplatform f hf
  | events f => exact hevents f
  | context d f => exact hcontext d f
  | call env hplatform _ _ _ c hc hyield hcomplete hport =>
    exact hcall env c hplatform hyield hcomplete hport hc

end Programs

/-- Surroundings whose parts are programs. -/
structure Env.Acts (m : AddressMap σ) (managing : Bool) (env : Env σ ρ) : Prop where
  platform : env.toPlatform.Respects m
  yieldNow : Program m managing env.yieldNow
  complete : ∀ routine request, Program m managing (env.complete routine request)
  portChanged : ∀ port, Program m managing (env.portChanged port)

theorem Env.Acts.call {m : AddressMap σ} {managing : Bool} {env : Env σ ρ}
    (h : env.Acts m managing) (c : Call ρ α) (hc : managing = true ∨ c.isManagement = false) :
    Program m managing (c.run env) :=
  .call env h.platform h.yieldNow h.complete h.portChanged c hc

/-! ### Reachable worlds -/

/-- The world that an operation leaves, be it with a result or with a fault. -/
def World.after (w : World σ ρ) (p : HostM σ ρ α) : World σ ρ :=
  match p w with
  | .ok _ w' => w'
  | .error _ w' => w'

/-- The worlds of a host: those that creation leaves, and those that programs lead to. -/
inductive World.Reachable (m : AddressMap σ) : World σ ρ → Prop
  | create {env : Env σ ρ} (henv : env.toPlatform.Respects m) (config : Config) {s : σ}
      {w : World σ ρ} {bus : Bus σ}
      (h : (Host.create env config).run { platform := s } = .ok (.ok w) bus) :
      Reachable m { w with bus := bus }
  | run {α : Type} {w : World σ ρ} {p : HostM σ ρ α} (h : Reachable m w) (hp : Program m true p) :
      Reachable m (w.after p)

/-- Creation leaves the world `start`. -/
def Host.Creates (env : Env σ ρ) (config : Config) (s : σ) (start : World σ ρ) : Prop :=
  ∃ w bus, (create env config).run { platform := s } = .ok (.ok w) bus ∧
    start = { w with bus := bus }

theorem World.Reachable.of_creates {m : AddressMap σ} {env : Env σ ρ} {config : Config} {s : σ}
    {start : World σ ρ} (henv : env.toPlatform.Respects m) (h : Host.Creates env config s start) :
    start.Reachable m := by
  obtain ⟨w, bus, hrun, rfl⟩ := h
  exact .create henv config hrun

end UsbHost
