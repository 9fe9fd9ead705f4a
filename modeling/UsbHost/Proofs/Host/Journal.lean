import UsbHost.Proofs.Host.Administration

/-!
Hosts whose platform keeps a journal of the completion routines that are run. What is a program on
such a host is what is a program on any host; only that each routine is noted when it is called, and
that the journal is written by nothing else. A routine tells which requests it belongs to as far as
requests for different endpoints come with different routines: `allows` says which routines may be
submitted to which endpoints.
-/

namespace UsbHost

variable {σ ρ α : Type} {m : AddressMap σ}

/-- The journal of a platform: the routines that have been run, the first one first. -/
structure RoutineJournal (m : AddressMap σ) (ρ : Type) where
  ran : σ → List ρ
  note : ρ → σ → σ
  ran_note : ∀ routine s, ran (note routine s) = ran s ++ [routine]
  extends_note : ∀ routine s, m.Extends s (note routine s)

/-- A program that notes every completion routine when it is called. -/
inductive NotedProgram (j : RoutineJournal m ρ) (allows : EndpointRef → ρ → Prop) :
    {α : Type} → HostM σ ρ α → Prop
  | pure {α : Type} (a : α) : NotedProgram j allows (pure a)
  | throw {α : Type} (fault : Fault) : NotedProgram j allows (throw fault : HostM σ ρ α)
  | look : NotedProgram j allows get
  | bind {α β : Type} {p : HostM σ ρ α} {f : α → HostM σ ρ β} (hp : NotedProgram j allows p)
      (hf : ∀ a, NotedProgram j allows (f a)) : NotedProgram j allows (p >>= f)
  | tryCatch {α : Type} {p : HostM σ ρ α} {f : Fault → HostM σ ρ α}
      (hp : NotedProgram j allows p) (hf : ∀ fault, NotedProgram j allows (f fault)) :
      NotedProgram j allows (tryCatch p f)
  | platform (f : σ → σ) (hf : ∀ s, m.Extends s (f s)) (hran : ∀ s, j.ran (f s) = j.ran s) :
      NotedProgram j allows (.onPlatform f)
  | events (f : EventRing → EventRing) : NotedProgram j allows (.writeEvents f)
  | context (d : DeviceRef) (f : Context.Device → Context.Device) :
      NotedProgram j allows (.writeContext d f)
  | call {α : Type} (env : Env σ ρ) (hplatform : env.toPlatform.Respects m)
      (hmute : env.toPlatform.Mute j.ran) (hyield : NotedProgram j allows env.yieldNow)
      (body : ρ → Request ρ → HostM σ ρ Unit)
      (hcomplete : ∀ routine request, env.complete routine request =
        (do HostM.onPlatform (j.note routine); body routine request))
      (hbody : ∀ routine request, NotedProgram j allows (body routine request))
      (hport : ∀ port, NotedProgram j allows (env.portChanged port)) (c : Call ρ α)
      (hfits : c.Fits allows) : NotedProgram j allows (c.run env)

/-- Surroundings that note the routines. -/
structure Env.Notes (j : RoutineJournal m ρ) (allows : EndpointRef → ρ → Prop) (env : Env σ ρ) :
    Prop where
  platform : env.toPlatform.Respects m
  mute : env.toPlatform.Mute j.ran
  yieldNow : NotedProgram j allows env.yieldNow
  complete : ∃ body : ρ → Request ρ → HostM σ ρ Unit, (∀ routine request,
    env.complete routine request =
      (do HostM.onPlatform (j.note routine); body routine request)) ∧
    ∀ routine request, NotedProgram j allows (body routine request)
  portChanged : ∀ port, NotedProgram j allows (env.portChanged port)

variable {j : RoutineJournal m ρ} {allows : EndpointRef → ρ → Prop}

theorem Env.Notes.call {env : Env σ ρ} (h : env.Notes j allows) (c : Call ρ α)
    (hfits : c.Fits allows) : NotedProgram j allows (c.run env) := by
  obtain ⟨body, hcomplete, hbody⟩ := h.complete
  exact .call env h.platform h.mute h.yieldNow body hcomplete hbody h.portChanged c hfits

/-- Programs with a journal have a compositional property if steps of the controller and the
platform have it that write nothing into the journal, and calls do in surroundings that have it. -/
theorem NotedProgram.holds {P : (α : Type) → HostM σ ρ α → Prop} (hP : HostM.Compositional P)
    (hplatform : ∀ f : σ → σ, (∀ s, m.Extends s (f s)) → (∀ s, j.ran (f s) = j.ran s) →
      P _ (.onPlatform f))
    (hevents : ∀ f, P _ (.writeEvents f)) (hcontext : ∀ d f, P _ (.writeContext d f))
    (hcall : ∀ {α : Type} (env : Env σ ρ) (c : Call ρ α) (body : ρ → Request ρ → HostM σ ρ Unit),
      env.toPlatform.Respects m → env.toPlatform.Mute j.ran → P _ env.yieldNow →
      (∀ routine request, env.complete routine request =
        (do HostM.onPlatform (j.note routine); body routine request)) →
      (∀ routine request, P _ (body routine request)) → (∀ port, P _ (env.portChanged port)) →
      c.Fits allows → P α (c.run env))
    {p : HostM σ ρ α} (h : NotedProgram j allows p) : P α p := by
  induction h with
  | pure a => exact hP.pure a
  | throw fault => exact hP.throw fault
  | look => exact hP.look
  | bind _ _ ih ih' => exact hP.bind ih ih'
  | tryCatch _ _ ih ih' => exact hP.tryCatch ih ih'
  | platform f hf hran => exact hplatform f hf hran
  | events f => exact hevents f
  | context d f => exact hcontext d f
  | call env hplatform hmute _ body hcomplete _ _ c hfits hyield hbody hport =>
    exact hcall env c body hplatform hmute hyield hcomplete hbody hport hfits

theorem NotedProgram.program {p : HostM σ ρ α} (h : NotedProgram j allows p) :
    Program m true p := by
  refine h.holds Program.compositional (fun f hf _ => .platform f hf) .events .context ?_
  intro α env c body hplatform _ hyield hcomplete hbody hport _
  refine .call env hplatform hyield (fun routine request => ?_) hport c (.inl rfl)
  rw [hcomplete]
  exact .bind (.platform _ (j.extends_note routine)) fun _ => hbody routine request

theorem Env.Notes.acts {env : Env σ ρ} (h : env.Notes j allows) : env.Acts m true where
  platform := h.platform
  yieldNow := h.yieldNow.program
  complete routine request := by
    obtain ⟨body, hcomplete, hbody⟩ := h.complete
    rw [hcomplete]
    exact .bind (.platform _ (j.extends_note routine)) fun _ => (hbody routine request).program
  portChanged port := (h.portChanged port).program

/-- The worlds of a host that programs with a journal lead to. -/
inductive World.NotedReachable (j : RoutineJournal m ρ) (allows : EndpointRef → ρ → Prop) :
    World σ ρ → Prop
  | create {env : Env σ ρ} (henv : env.toPlatform.Respects m) (config : Config) {s : σ}
      {w : World σ ρ} {bus : Bus σ}
      (h : (Host.create env config).run { platform := s } = .ok (.ok w) bus) :
      NotedReachable j allows { w with bus := bus }
  | run {α : Type} {w : World σ ρ} {p : HostM σ ρ α} (h : NotedReachable j allows w)
      (hp : NotedProgram j allows p) : NotedReachable j allows (w.after p)

theorem World.NotedReachable.reachable {w : World σ ρ} (h : w.NotedReachable j allows) :
    w.Reachable m := by
  induction h with
  | create henv config h => exact .create henv config h
  | run _ hp ih => exact .run ih hp.program

end UsbHost
