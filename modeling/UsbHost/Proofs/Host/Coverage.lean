import UsbHost.Proofs.Host.Tables

/-!
Which requests a host takes care of. An endpoint is covered if it is registered on a device that is
in its slot: transfer events reach it, requests that have timed out are given back, and detaching
the device drops what is in flight. A request that is in flight on a covered endpoint stays so as
long as the device is in its slot, until it is handed back or its endpoint is shut down, or until
another endpoint is configured under the same ID. Configuring an endpoint does not shut down the one
that it takes the place of: requests in flight there are lost sight of.
-/

namespace UsbHost

variable {σ ρ α : Type} {m : AddressMap σ} {managing : Bool}

/-- Endpoints never go away, and those that are closed stay closed. -/
theorem Moves.follows {w w' : World σ ρ} (h : Moves m managing w w') (r : EndpointRef)
    (e : Endpoint ρ) (he : w.endpoints[r.index]? = some e) :
    ∃ e', w'.endpoints[r.index]? = some e' ∧ e.Follows e' := by
  induction h generalizing e with
  | trans _ _ ih ih' =>
    obtain ⟨e₁, he₁, hfollows₁⟩ := ih e he
    obtain ⟨e₂, he₂, hfollows₂⟩ := ih' e₁ he₁
    exact ⟨e₂, he₂, hfollows₁.trans hfollows₂⟩
  | aside h => exact ⟨e, by rwa [h.endpoints_eq], .refl e⟩
  | step hw hstep => exact World.endpoints_put hw (Endpoint.follows_of_step hstep) r e he
  | packetSize hw size =>
    exact World.endpoints_put hw (Endpoint.follows_packetSize _ size) r e he
  | newEndpoint w _ => exact w.endpoints_addEndpoint _ r e he
  | @register _ w w₁ e₀ _ _ _ _ _ _ _ _ ih =>
    obtain ⟨e₁, he₁, hfollows₁⟩ := w.endpoints_addEndpoint e₀ r e he
    obtain ⟨e₂, he₂, hfollows₂⟩ := ih e₁ he₁
    exact ⟨e₂, he₂, hfollows₁.trans hfollows₂⟩
  | input _ _ _ ih => exact ih e he
  | _ => exact ⟨e, he, .refl e⟩

/-- An asynchronous request that has been neither handed back nor dropped. -/
def InFlight.isAsync (record : InFlight ρ) : Bool :=
  match record.cargo with
  | .live _ .routine => true
  | _ => false

namespace World

/-- Every asynchronous request in flight on an endpoint of a device in its slot is on an endpoint
that is registered on this device. -/
def CoversAll (w : World σ ρ) : Prop :=
  ∀ slot d device (r : EndpointRef) e record, w.controller.slots.device? slot = some d →
    w.devices[d.index]? = some device → w.endpoints[r.index]? = some e →
    e.owner = device.owner → record ∈ e.inFlight → record.isAsync = true → r ∈ device.registered

/-- The host takes care of the endpoint `r` of the device `d`, which is in `slot`: what it does
about events, time-outs and the end of the device concerns this endpoint. -/
structure Covers (m : AddressMap σ) (w : World σ ρ) (slot : UInt8) (d : DeviceRef) (id : UInt8)
    (r : EndpointRef) : Prop where
  event : ∀ (env : Env σ ρ) (event : TransferEvent), event.slot = slot → event.endpoint = id →
    Host.slotEvent env event w =
      (do Host.transferEvent env r event; return true : HostM σ ρ Bool) w
  /-- The slot is polled, and in it the endpoint. -/
  timeouts : slot.toNat ∈ List.range' 1 w.controller.slots.maxSlots.toNat ∧
    ∃ rs : List EndpointRef, r ∈ rs ∧ ∀ (env : Env σ ρ) (now : UInt64),
      Host.pollSlot env now slot w =
        (do return (← rs.mapM (Host.pollEndpoint env now)).foldr (· + ·) 0 : HostM σ ρ Nat) w
  detach : ∀ env : Env σ ρ, env.Acts m true →
    ∃ e, (w.after (Host.detach env d).run).endpoints[r.index]? = some e ∧ e.Closed

variable {w : World σ ρ} {slot id : UInt8} {d : DeviceRef} {device : Device} {r : EndpointRef}

/-- After a device in its slot has been detached, all endpoints that it had are closed. -/
theorem Reachable.detach_closes (h : w.Reachable m) (hd : w.devices[d.index]? = some device)
    (hbound : w.controller.slots.device? device.owner.slot = some d) (hr : r ∈ device.registered)
    {env : Env σ ρ} (henv : env.Acts m true) :
    ∃ e, (w.after (Host.detach env d).run).endpoints[r.index]? = some e ∧ e.Closed := by
  obtain ⟨w₁, hrun, hremoves, -⟩ := Host.detach_removes env h.tidy hd hbound
  obtain ⟨e₁, he₁, hclosed⟩ := hremoves.closed r hr
  have hmoves := (Host.moves_disableSlot henv.onlyMoves device.owner.slot).after w₁
  obtain ⟨e₂, he₂, hfollows⟩ := hmoves.follows r e₁ he₁
  have hafter : w.after (Host.detach env d).run =
      w₁.after (Host.disableSlot env device.owner.slot).run := by
    rw [after, hrun, after]
  rw [hafter]
  exact ⟨e₂, he₂, hfollows.closed hclosed⟩

/-- An endpoint that is registered on a device in its slot is covered. -/
theorem Reachable.covers (h : w.Reachable m)
    (hbound : w.controller.slots.device? slot = some d) (hd : w.devices[d.index]? = some device)
    (hr : device.endpoint? id = some r) : w.Covers m slot d id r := by
  have hlook : (HostM.controller : HostM σ ρ _) w = .ok w.controller w := rfl
  have hmem : r ∈ device.registered := Device.mem_registered_iff.2 ⟨id, hr⟩
  constructor
  case event =>
    rintro env event rfl rfl
    rw [Host.slotEvent_some env hbound]
    simp only [bind, EStateM.bind, Host.deviceEvent_some env hd hr]
  case timeouts =>
    refine ⟨?_, device.registered, hmem, fun env now => ?_⟩
    · obtain ⟨i, hindex⟩ := SlotTable.index_of_device? hbound
      have hplace := SlotTable.toNat_of_index hindex
      rw [List.mem_range'_1]
      omega
    · rw [Host.pollSlot, HostM.bind_of_ok hlook]
      simp only [hbound]
      exact HostM.bind_of_ok (Host.device_eq hd)
  case detach =>
    intro env henv
    obtain ⟨device', hd', hslot⟩ := h.housed.device slot d hbound
    rw [Option.some.inj (hd'.symm.trans hd)] at hslot
    rw [← hslot] at hbound
    exact h.detach_closes hd hbound hmem henv

end World

/-- As long as a device is in its slot, the requests that one of its endpoints has in flight are
covered, unless they are handed back or dropped with the endpoint. The exception is an endpoint
that is made later and takes the place under the ID. -/
theorem World.Reachable.in_flight_covered_unless_replaced {w : World σ ρ} (h : w.Reachable m)
    {p : HostM σ ρ α} (hp : Program m true p) {slot id : UInt8} {d : DeviceRef} {device : Device}
    {r : EndpointRef} {e : Endpoint ρ} (hd : w.devices[d.index]? = some device)
    (hr : device.endpoint? id = some r) (he : w.endpoints[r.index]? = some e)
    (hbound : (w.after p).controller.slots.device? slot = some d) :
    ∃ device' r' e', (w.after p).devices[d.index]? = some device' ∧
      (w.after p).endpoints[r.index]? = some e' ∧ e'.owner = device'.owner ∧ e'.id = id ∧
      (e'.Closed ∨ e.Unharmed e') ∧ device'.endpoint? id = some r' ∧
      (w.after p).Covers m slot d id r' ∧ (r' = r ∨ w.endpoints.size ≤ r'.index) := by
  have hevolves := h.evolves hp
  obtain ⟨e₀, he₀, howner, hid⟩ := h.housed.endpoint d device id r hd hr
  obtain rfl : e₀ = e := Option.some.inj (he₀.symm.trans he)
  obtain ⟨e', he', hfollows⟩ := hevolves.endpoint r e₀ he
  obtain ⟨device', r', hd', hr', hsame⟩ := hevolves.table slot d hbound device id r hd hr
  have howner' : device'.owner = device.owner := by
    obtain ⟨device₁, hd₁, howner₁⟩ := hevolves.device d device hd
    rwa [Option.some.inj (hd'.symm.trans hd₁)]
  refine ⟨device', r', e', hd', he', ?_, ?_, ?_, hr', (h.run hp).covers hbound hd' hr', hsame⟩
  · rw [hfollows.owner_eq, howner, howner']
  · rw [← hid, Endpoint.id, hfollows.traits_eq, Endpoint.id]
  · exact hfollows.goesOn.imp_right fun hgoesOn => hgoesOn.elim fun _ => Endpoint.Continues.unharmed

namespace Board

def bulkIn : EndpointDescriptor :=
  { address := 0x81, attributes := 2, maxPacketSize := 512, interval := 0 }

def bulkOut : EndpointDescriptor := { bulkIn with address := 0x02 }

/-- Eight bytes are awaited from a bulk endpoint of the attached device, for 100 milliseconds. -/
def streaming : World Board Unit :=
  (attached.after ((Call.configure ⟨0⟩ bulkIn).run env)).after
    ((Call.transferAsync ⟨1⟩ { buffer := some (.zeroed ⟨0x800⟩ 8) } 100).run env)

theorem reachable_streaming : streaming.Reachable addresses :=
  reachable_call (reachable_call reachable_attached _) _

/-- Live requests in flight. -/
def liveCount (w : World Board Unit) (r : EndpointRef) : Nat :=
  w.endpoints[r.index]?.elim 0 fun e => e.inFlight.countP fun record => !record.isTombstone

/-- A second endpoint is configured while the first one has a request in flight. -/
theorem in_flight_covered_streaming : ∃ (device : Device) (e : Endpoint Unit),
    streaming.devices[0]? = some device ∧
    device.endpoint? 3 = some ⟨1⟩ ∧ streaming.endpoints[1]? = some e ∧ e.inFlight.length = 1 ∧
    (streaming.after ((Call.configure ⟨0⟩ bulkOut).run env)).controller.slots.device? 1 =
      some ⟨0⟩ ∧
    ∃ (device' : Device) (r' : EndpointRef) (e' : Endpoint Unit),
      (streaming.after ((Call.configure ⟨0⟩ bulkOut).run env)).devices[0]? = some device' ∧
      (streaming.after ((Call.configure ⟨0⟩ bulkOut).run env)).endpoints[1]? = some e' ∧
      e'.owner = device'.owner ∧ e'.id = 3 ∧ (e'.Closed ∨ e.Unharmed e') ∧
      device'.endpoint? 3 = some r' ∧
      (streaming.after ((Call.configure ⟨0⟩ bulkOut).run env)).Covers addresses 1 ⟨0⟩ 3 r' ∧
      (r' = ⟨1⟩ ∨ streaming.endpoints.size ≤ r'.index) := by
  have hfacts :
      (streaming.devices[0]?.map fun device : Device => device.endpoint? 3) = some (some ⟨1⟩) ∧
      (streaming.endpoints[1]?.map fun e : Endpoint Unit => e.inFlight.length) = some 1 ∧
      (streaming.after ((Call.configure ⟨0⟩ bulkOut).run env)).controller.slots.device? 1 =
        some ⟨0⟩ := by decide +kernel
  obtain ⟨hdevice, hendpoint, hbound⟩ := hfacts
  obtain ⟨device, hd, hr⟩ := Option.map_eq_some_iff.1 hdevice
  obtain ⟨e, he, hlength⟩ := Option.map_eq_some_iff.1 hendpoint
  exact ⟨device, e, hd, hr, he, hlength, hbound,
    reachable_streaming.in_flight_covered_unless_replaced
      ((acts true).call (.configure ⟨0⟩ bulkOut) (.inl rfl)) (d := ⟨0⟩) (r := ⟨1⟩) hd hr he hbound⟩

/-- The endpoint with the request in flight is configured once more. -/
def reconfigured : World Board Unit := streaming.after ((Call.configure ⟨0⟩ bulkIn).run env)

/-- Time passes until the request should have timed out. -/
def overdue : World Board Unit :=
  reconfigured.after (HostM.onPlatform fun b => { b with clock := b.clock + 1000 })

/-- The controller reports the TRB of the request. -/
def report : TransferEvent := ⟨.success, 0, 1, 3, 0x80000⟩

/-- The request is lost sight of: the device is in its slot, but its table does not name the
endpoint any more. Before, the report would have ended the request; now neither the report nor the
time-out nor the end of the device reaches it. -/
theorem reconfigured_loses_sight : reconfigured.Reachable addresses ∧
    reconfigured.controller.slots.device? 1 = some ⟨0⟩ ∧
    (reconfigured.devices[0]?.map Device.registered) = some [⟨0⟩, ⟨2⟩] ∧
    (reconfigured.endpoints[1]?.map fun e : Endpoint Unit => (e.owner.slot, e.id, e.valid)) =
      some (1, 3, true) ∧
    liveCount (streaming.after ((Call.slotEvent report).run env)) ⟨1⟩ = 0 ∧
    liveCount reconfigured ⟨1⟩ = 1 ∧
    liveCount (reconfigured.after ((Call.slotEvent report).run env)) ⟨1⟩ = 1 ∧
    liveCount (overdue.after (Call.pollTimeouts.run env)) ⟨1⟩ = 1 ∧
    liveCount (reconfigured.after ((Call.detach ⟨0⟩).run env)) ⟨1⟩ = 1 ∧
    ¬ reconfigured.CoversAll := by
  have hfacts : reconfigured.controller.slots.device? 1 = some ⟨0⟩ ∧
      (reconfigured.devices[0]?.map fun device : Device =>
        (device.owner, decide ((⟨1⟩ : EndpointRef) ∈ device.registered))) =
        (reconfigured.endpoints[1]?.map fun e : Endpoint Unit => (e.owner, false)) ∧
      (reconfigured.endpoints[1]?.map fun e : Endpoint Unit =>
        e.inFlight.any InFlight.isAsync) = some true ∧
      (reconfigured.devices[0]?.map Device.registered) = some [⟨0⟩, ⟨2⟩] ∧
      (reconfigured.endpoints[1]?.map fun e : Endpoint Unit => (e.owner.slot, e.id, e.valid)) =
        some (1, 3, true) ∧
      liveCount (streaming.after ((Call.slotEvent report).run env)) ⟨1⟩ = 0 ∧
      liveCount reconfigured ⟨1⟩ = 1 ∧
      liveCount (reconfigured.after ((Call.slotEvent report).run env)) ⟨1⟩ = 1 ∧
      liveCount (overdue.after (Call.pollTimeouts.run env)) ⟨1⟩ = 1 ∧
      liveCount (reconfigured.after ((Call.detach ⟨0⟩).run env)) ⟨1⟩ = 1 := by decide +kernel
  obtain ⟨hbound, hregistered, hlive, hnamed, hvalid, hended, hcount, hevent, htimeout,
    hdetach⟩ := hfacts
  refine ⟨reachable_call reachable_streaming _, hbound, hnamed, hvalid, hended, hcount, hevent,
    htimeout, hdetach, fun hcovers => ?_⟩
  obtain ⟨e, he, hany⟩ := Option.map_eq_some_iff.1 hlive
  rw [he, Option.map_some, Option.map_eq_some_iff] at hregistered
  obtain ⟨device, hd, hfields⟩ := hregistered
  obtain ⟨howner, hnot⟩ := Prod.mk.inj hfields
  obtain ⟨record, hrecord, hasync⟩ := List.any_eq_true.1 hany
  exact of_decide_eq_false hnot
    (hcovers 1 ⟨0⟩ device ⟨1⟩ e record hbound hd he howner.symm hrecord hasync)

end Board

end UsbHost
