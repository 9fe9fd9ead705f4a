import UsbHost.Proofs.Context.Fields
import UsbHost.Proofs.Host.Servant
import UsbHost.Proofs.Host.Tables

/-!
The packet size of a control endpoint, as the driver records it and as the controller is told. The
driver records a size before it tells the controller, and does not take it back when the command
fails or is given up. So after a call the size is recorded that has been asked for, if it is one
that a control endpoint may have, whatever has become of the command.
-/

namespace UsbHost

variable {σ ρ : Type}

namespace Context

/-- The size that an endpoint context gives is the one that has been put there. -/
@[simp] theorem Endpoint.getMaxPacketSize_setMaxPacketSize (c : Endpoint) (size : UInt16) :
    (c.setMaxPacketSize size).getMaxPacketSize = size := by
  have hlt := size.toNat_lt
  rw [getMaxPacketSize, setMaxPacketSize, put, Dwords.field_put_self (by decide)]
  refine UInt16.toNat_inj.1 ?_
  change (size.toNat &&& 65535) % 65536 = size.toNat
  rw [Nat.and_two_pow_sub_one_eq_mod size.toNat 16]
  omega

/-- The input context brings a packet size for the control endpoint. -/
structure Input.TellsPacketSize (input : Input) (size : UInt16) : Prop where
  adds_eq : input.adds controlEndpointId.toNat = true
  size_eq : (input.device.endpoints.get ⟨0, by decide⟩).getMaxPacketSize = size

end Context

theorem Endpoint.packetSizeInput_gives (e : Endpoint ρ) (current : Context.Device) :
    ∃ content, e.packetSizeInput current = .ok content ∧
      content.TellsPacketSize e.maxPacketSize := by
  have hadds : (contextFlag controlEndpointId).toNat.testBit controlEndpointId.toNat = true := by
    decide
  have hcontrol : ∀ c, (current.endpoints.set 0 c (by decide)).get ⟨0, by decide⟩ = c :=
    fun _ => Vector.getElem_set_self _
  exact ⟨_, rfl, hadds, (congrArg Context.Endpoint.getMaxPacketSize (hcontrol _)).trans
    (Context.Endpoint.getMaxPacketSize_setMaxPacketSize _ _)⟩

/-- At full speed a size is recorded if a control endpoint may have it. -/
theorem Endpoint.setMaxPacketSize_full {e : Endpoint ρ} (hid : e.id = controlEndpointId)
    (hspeed : e.owner.speed = .full) (size : UInt16) :
    e.setMaxPacketSize size = .ok (if 8 ≤ size ∧ size ≤ 64 then
        (.ok true, { e with maxPacketSize := size })
      else
        (.error (.invalidArgument "max_packet_size" "EP0 max packet size must be 8..=64"), e)) := by
  have hrange : (size < 8 ∨ 64 < size) ↔ ¬ (8 ≤ size ∧ size ≤ 64) := by
    rw [not_and_or, UInt16.not_le, UInt16.not_le]
  rw [setMaxPacketSize, if_neg (not_not_intro hid), if_neg (not_not_intro hspeed)]
  by_cases hsize : 8 ≤ size ∧ size ≤ 64
  · rw [if_neg (fun h => hrange.1 h hsize), if_pos hsize]
  · rw [if_pos (hrange.2 hsize), if_neg hsize]

/-- The packet size recorded for an endpoint. -/
def World.packetSize? (w : World σ ρ) (r : EndpointRef) : Option UInt16 :=
  w.endpoints[r.index]?.map Endpoint.maxPacketSize

theorem World.KeepsEndpoints.packetSize?_eq {w w' : World σ ρ} (h : w.KeepsEndpoints w')
    {r : EndpointRef} {size : UInt16} (hr : w.packetSize? r = some size) :
    w'.packetSize? r = some size := by
  obtain ⟨e, he, rfl⟩ := Option.map_eq_some_iff.1 hr
  obtain ⟨e', he', hsame⟩ := h r.index e he
  rw [packetSize?, he', Option.map_some, hsame.maxPacketSize_eq]

/-- The controller has been told a packet size for the control endpoint of the device in a slot. -/
structure Job.TellsPacketSize (job : Job) (slot : UInt8) (size : UInt16) : Prop where
  kind?_eq : job.command.kind? = some .evaluateContext
  slot_eq : job.command.slot = slot
  input_eq : ∃ content, job.input = some content ∧ content.TellsPacketSize size

namespace Host

open HostAttempt (lift)

variable {env : Env σ ρ} {j : JobJournal σ} {m : AddressMap σ} {effect : Job.Effect}
  {w : World σ ρ} {d : DeviceRef} {device : Device} {r : EndpointRef}

theorem packetSizeInput_makes {e : Endpoint ρ} (hr : w.endpoints[r.index]? = some e)
    (hd : w.devices[d.index]? = some device) :
    HostAttempt.AllOrNothing (packetSizeInput d r : HostAttempt σ ρ Dma.BufferId) w fun id w' =>
      id = ⟨w.bus.nextBuffer⟩ ∧ ∃ content, content.TellsPacketSize e.maxPacketSize ∧
        w' = w.addInput content := by
  obtain ⟨content, hcontent, htells⟩ := e.packetSizeInput_gives device.context
  exact HostAttempt.ends_bind_of_ok (HostAttempt.lift_of_ok (endpoint_eq hr))
    (HostAttempt.ends_bind_of_ok (HostAttempt.lift_of_ok (device_eq hd))
      (makes_of_content hcontent htells))

/-- The controller is told the packet size that is recorded, which stays as it is whatever becomes
of the command. -/
theorem evaluateContext_over {slot : UInt8} {size : UInt16} (henv : env.Serves j m effect)
    (hw : w.Idle) (hd : w.devices[d.index]? = some device) (hr : w.packetSize? r = some size) :
    HostAttempt.Ends (withInput (packetSizeInput d r) (evaluateContext env slot)) w
      (fun _ => True)
      (fun error w' => w'.packetSize? r = some size ∧ ∃ done : Option Job,
        w'.jobs j = w.jobs j ++ done.toList ∧ ∀ job ∈ done, job.TellsPacketSize slot size ∧
          job.code ≠ .success ∧ error = .commandFailed job.code)
      fun _ w' => w'.packetSize? r = some size ∧ ∃ job, w'.jobs j = w.jobs j ++ [job] ∧
        job.TellsPacketSize slot size ∧ job.code = .success := by
  obtain ⟨e, he, rfl⟩ := Option.map_eq_some_iff.1 hr
  have htells : ∀ {content : Context.Input} {done : Option Job} {w' : World σ ρ},
      content.TellsPacketSize e.maxPacketSize →
      CallOver j m effect .evaluateContext slot w content done w' →
      ∀ job ∈ done, job.TellsPacketSize slot e.maxPacketSize :=
    fun hcontent hover job hjob => ⟨hover.kind?_eq job hjob, hover.slot_eq job hjob,
      _, hover.input_eq job hjob, hcontent⟩
  refine HostAttempt.Ends.mono (withInput_over henv hw (forInput_evaluateContext slot)
    (packetSizeInput_makes he hd)) (fun _ h => h) ?_ ?_
  · rintro error w' (rfl | ⟨content, done, hcontent, hover, hfailure⟩)
    · exact ⟨hr, none, (List.append_nil _).symm, nofun⟩
    · refine ⟨hover.did.endpoints.packetSize?_eq hr, done, hover.did.jobs_eq,
        fun job hjob => ⟨htells hcontent hover job hjob, ?_⟩⟩
      obtain rfl := hjob
      exact hfailure
  · rintro - w' ⟨content, job, hcontent, hover, hcode⟩
    exact ⟨hover.did.endpoints.packetSize?_eq hr, job, hover.did.jobs_eq,
      htells hcontent hover job rfl, hcode⟩

/-- A call that sets the packet size of the control endpoint of a full-speed device is refused, and
nothing has changed, if it is no size that a control endpoint may have. Otherwise the size is
recorded, whatever becomes of the command that tells the controller: also when the call is refused
because the command has failed or has been given up. If the call succeeds, an Evaluate Context with
this size has succeeded. -/
theorem packet_size_is_recorded_first (hw : w.Reachable m) (hfree : w.isTaken = false)
    (henv : env.Serves j m effect) (hd : w.devices[d.index]? = some device)
    (hr : device.endpoint? controlEndpointId = some r) (hspeed : device.owner.speed = .full)
    (size : UInt16) :
    HostAttempt.Ends (setMaxPacketSize env d size) w (fun _ => True)
      (fun error w' =>
        if 8 ≤ size ∧ size ≤ 64 then
          w'.packetSize? r = some size ∧ ∃ done : Option Job,
            w'.jobs j = w.jobs j ++ done.toList ∧
            ∀ job ∈ done, job.TellsPacketSize device.owner.slot size ∧ job.code ≠ .success ∧
              error = .commandFailed job.code
        else
          error = .invalidArgument "max_packet_size" "EP0 max packet size must be 8..=64" ∧
            w' = w)
      (fun _ w' => 8 ≤ size ∧ size ≤ 64 ∧ w'.packetSize? r = some size ∧ ∃ job,
        w'.jobs j = w.jobs j ++ [job] ∧ job.TellsPacketSize device.owner.slot size ∧
          job.code = .success) := by
  obtain ⟨e, he, howner, hid⟩ := hw.housed.endpoint d device controlEndpointId r hd hr
  have hcontrol : (lift (controlEndpoint? d) : HostAttempt σ ρ _).run w = .ok (.ok (some r)) w :=
    HostAttempt.lift_of_ok (by
      rw [controlEndpoint?, HostM.bind_of_ok (device_eq hd), hr]
      rfl)
  have hstep := e.setMaxPacketSize_full hid (howner ▸ hspeed) size
  unfold setMaxPacketSize
  refine HostAttempt.ends_bind_of_ok hcontrol ?_
  dsimp only
  by_cases hsize : 8 ≤ size ∧ size ≤ 64
  · rw [if_pos hsize] at hstep
    refine HostAttempt.ends_bind_of_ok (HostAttempt.lift_of_ok (onEndpoint_eq he hstep)) ?_
    let w₁ := w.put r { e with maxPacketSize := size }
    have htrue : (HostAttempt.ofExcept (.ok true) : HostAttempt σ ρ Bool).run w₁ =
        .ok (.ok true) w₁ := rfl
    have hrecorded : w₁.packetSize? r = some size :=
      Option.map_eq_some_iff.2 ⟨{ e with maxPacketSize := size }, by simp [w₁, he], rfl⟩
    have hidle : w₁.Idle := ⟨hfree, hw.guarded.wellFormed⟩
    refine HostAttempt.ends_bind_of_ok htrue ?_
    rw [if_pos rfl]
    refine HostAttempt.ends_bind_of_ok (HostAttempt.lift_of_ok (device_eq hd)) ?_
    refine (evaluateContext_over henv hidle hd hrecorded).mono (fun _ h => h)
      (fun error w' hend => ?_) fun _ w' hend => ⟨hsize.1, hsize.2, hend⟩
    rw [if_pos hsize]
    exact hend
  · rw [if_neg hsize] at hstep
    refine HostAttempt.ends_bind_of_ok (HostAttempt.lift_of_ok (onEndpoint_eq he hstep)) ?_
    simp only [if_neg hsize]
    rw [World.put_self he]
    exact ⟨rfl, rfl⟩

end Host

namespace Servant

open Host

/-- The packet size of the attached device is set, and the command succeeds. -/
theorem packet_size_told_to_controller : ∃ device w',
    attached.Reachable addresses ∧ attached.isTaken = false ∧
    env.Serves journal addresses Job.Copies ∧ attached.devices[0]? = some device ∧
    device.endpoint? controlEndpointId = some ⟨0⟩ ∧ device.owner.speed = .full ∧
    (setMaxPacketSize env ⟨0⟩ 64).run attached = .ok (.ok ()) w' ∧
    w'.packetSize? ⟨0⟩ = some 64 ∧ ∃ job, w'.jobs journal = attached.jobs journal ++ [job] ∧
      job.TellsPacketSize device.owner.slot 64 ∧ job.code = .success := by
  have hfree : attached.isTaken = false := by decide +kernel
  have hdevice : (attached.devices[0]?.map fun device =>
      (device.endpoint? controlEndpointId, device.owner.speed)) = some (some ⟨0⟩, .full) := by
    decide +kernel
  have hrun : (setMaxPacketSize env ⟨0⟩ 64).run attached =
      .ok (.ok ()) (attached.after (setMaxPacketSize env ⟨0⟩ 64).run) :=
    run_of_outcome (by decide +kernel)
  obtain ⟨device, hd, hfields⟩ := Option.map_eq_some_iff.1 hdevice
  obtain ⟨hr, hspeed⟩ := Prod.mk.inj hfields
  obtain ⟨-, -, hrecorded, htold⟩ := (packet_size_is_recorded_first reachable_attached hfree
    serves (d := ⟨0⟩) hd hr hspeed 64).of_ok hrun
  exact ⟨device, _, reachable_attached, hfree, serves, hd, hr, hspeed, hrun, hrecorded, htold⟩

/-- The controller will refuse the next command, with Parameter Error. -/
def refusing : World Servant Unit := instruct [⟨17⟩] attached

/-- A call that is refused because its command has failed leaves the new size behind. -/
theorem packet_size_changed_by_refused_call : ∃ w',
    (setMaxPacketSize env ⟨0⟩ 64).run refusing = .ok (.error (.commandFailed ⟨17⟩)) w' ∧
      refusing.packetSize? ⟨0⟩ = some 8 ∧ w'.packetSize? ⟨0⟩ = some 64 := by
  exact ⟨_, run_of_outcome (by decide +kernel), by decide +kernel, by decide +kernel⟩

end Servant

end UsbHost
