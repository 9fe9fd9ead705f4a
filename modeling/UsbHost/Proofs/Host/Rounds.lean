import UsbHost.Host.Basic
import UsbHost.Proofs.Host.Requests

/-!
Rounds under any conduct. A packet size is recorded before the controller is told of it, deadlines
are polled slot by slot, and events are taken off the ring and handed on one by one. These
operations are put together from others, and obey a conduct that those obey.
-/

namespace UsbHost

variable {σ ρ : Type}

/-- Setting a packet size changes nothing else. -/
theorem Endpoint.setMaxPacketSize_cases {e e' : Endpoint ρ} {size : UInt16}
    {result : Except Error Bool} (h : e.setMaxPacketSize size = .ok (result, e')) :
    e' = e ∨ e' = { e with maxPacketSize := size } := by
  unfold setMaxPacketSize at h
  split at h
  · cases h
  · split at h
    · cases h
      exact .inl rfl
    · split at h <;> cases h
      · exact .inl rfl
      · exact .inr rfl

namespace HostM.Obeys

variable {c : Conduct σ ρ} {env : Env σ ρ}

/-! ### Slots and packet sizes -/

theorem enableSlot (hcommand : Obeys c (Host.command env Command.enableSlot).run) :
    Obeys c (Host.enableSlot env).run := by
  refine attempt_bind hcommand fun report => attempt_bind (lift controller) fun controller => ?_
  dsimp only
  split
  · exact attempt_bind (refuse _) fun _ => attempt_pure _
  · exact attempt_pure _

theorem setMaxPacketSize {d : DeviceRef} {size : UInt16}
    (hput : ∀ {w : World σ ρ} {r : EndpointRef} {e : Endpoint ρ}, w.endpoints[r.index]? = some e →
      c.Leads w (w.put r { e with maxPacketSize := size }))
    (htell : ∀ r slot, Obeys c (Host.withInput (Host.packetSizeInput d r)
      (Host.evaluateContext env slot)).run) :
    Obeys c (Host.setMaxPacketSize env d size).run := by
  have hrecord : ∀ r, Obeys c (HostM.onEndpoint r fun e => e.setMaxPacketSize size :
      HostM σ ρ (Except Error Bool)) := by
    intro r w
    refine Host.ends_onEndpoint (c.refl w) fun e result e' hw h => ?_
    rcases Endpoint.setMaxPacketSize_cases h with rfl | rfl
    · rw [World.put_self hw]
      exact c.refl w
    · exact hput hw
  refine attempt_bind (lift ((device d).bind fun _ => pure _)) fun control => ?_
  cases control with
  | none => exact refuse _
  | some r =>
    refine attempt_bind (lift (hrecord r)) fun result =>
      attempt_bind (attempt_ofExcept result) fun changed => ?_
    split
    · exact attempt_bind (lift (device d)) fun device => htell r device.owner.slot
    · exact attempt_pure _

/-! ### Deadlines -/

section Deadlines

variable (hpoll : ∀ now r, Obeys c (Host.pollEndpoint env now r))
include hpoll

theorem pollSlot (now : UInt64) (slot : UInt8) : Obeys c (Host.pollSlot env now slot) := by
  refine controller.bind fun controller => ?_
  split
  · exact pure _
  · exact (device _).bind fun device => (mapM fun r => hpoll now r).bind fun _ => pure _

theorem pollTimeouts : Obeys c (Host.pollTimeouts env) :=
  (now env).bind fun now => controller.bind fun _ =>
    (mapM fun _ => pollSlot hpoll now _).bind fun _ => pure _

end Deadlines

/-! ### Events -/

theorem slotEvent (htransfer : ∀ r event, Obeys c (Host.transferEvent env r event))
    (event : TransferEvent) : Obeys c (Host.slotEvent env event) := by
  refine controller.bind fun controller => ?_
  split
  · refine bind ((device _).bind fun device => ?_) fun _ => pure _
    split
    · exact htransfer _ event
    · exact pure _
  · exact pure _

theorem dispatch (hslot : ∀ event, Obeys c (Host.slotEvent env event))
    (hcommand : ∀ address code slot,
      Obeys c (Host.commandCompleted address code slot : HostM σ ρ Unit))
    (hport : ∀ port, Obeys c (env.portChanged port)) (listening : Bool) (event : Event) :
    Obeys c (Host.dispatch env listening event) := by
  cases event with
  | transfer event => exact (hslot event).map _
  | command address code slot => exact hcommand address code slot
  | port number =>
    cases listening with
    | true => exact hport number
    | false => exact pure ()
  | other => exact pure ()

theorem nextEvent? (htake : ∀ (w : World σ ρ) ring,
    c.Leads w { w with controller.events.ring := ring }) :
    Obeys c (Host.nextEvent? : HostM σ ρ (Option (Trb × UInt64))) := by
  refine controller.bind fun controller => ?_
  dsimp only
  split
  · exact pure _
  · exact (ofExcept _).bind fun _ => bind (modify fun w => htake w _) fun _ => pure _

section Interrupts

variable (hnext : Obeys c (Host.nextEvent? : HostM σ ρ (Option (Trb × UInt64))))
  (hdispatch : ∀ listening event, Obeys c (Host.dispatch env listening event))
include hnext hdispatch

theorem handleUpTo (listening : Bool) (dequeue : Option UInt64) (limit : Nat) :
    Obeys c (Host.handleUpTo env listening dequeue limit) := by
  induction limit generalizing dequeue with
  | zero => exact pure _
  | succ limit ih =>
    refine hnext.bind fun next => ?_
    cases next with
    | none => exact pure _
    | some next => exact (hdispatch listening _).bind fun _ => ih _

theorem handleInterrupt (hwrite : ∀ address,
    Obeys c (HostM.onPlatform (env.writeEventDequeue address) : HostM σ ρ Unit)) :
    Obeys c (Host.handleInterrupt env) := by
  refine controller.bind fun controller =>
    (handleUpTo hnext hdispatch _ _ _).bind fun dequeue => ?_
  cases dequeue with
  | none => exact pure _
  | some address => exact (hwrite address).bind fun _ => pure _

end Interrupts

end HostM.Obeys

end UsbHost
