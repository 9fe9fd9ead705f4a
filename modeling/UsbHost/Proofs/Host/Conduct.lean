import UsbHost.Host.Wait
import UsbHost.Proofs.Host.Endings

/-!
Conduct of computations. A conduct is a relation between the worlds before and after that is
reflexive and transitive. A computation obeys it if it leads, from whatever world and however it
ends, to a related one. Each way to compose computations has a rule, so whether an operation obeys a
conduct comes down to the few places where it changes the world or calls its surroundings.
-/

namespace UsbHost

variable {σ ρ α β : Type}

structure Conduct (σ ρ : Type) where
  Leads : World σ ρ → World σ ρ → Prop
  refl : ∀ w, Leads w w
  trans : ∀ {w w₁ w₂}, Leads w w₁ → Leads w₁ w₂ → Leads w w₂

/-- What holds before, holds after. -/
def Conduct.keeping (P : World σ ρ → Prop) : Conduct σ ρ where
  Leads w w' := P w → P w'
  refl _ := id
  trans h h' := h' ∘ h

/-- Wherever the computation starts, the conduct leads to where it ends. -/
def HostM.Obeys (c : Conduct σ ρ) (p : HostM σ ρ α) : Prop :=
  ∀ w, HostM.Ends p w (c.Leads w) fun _ => c.Leads w

namespace HostM.Obeys

variable {c : Conduct σ ρ}

theorem after {p : HostM σ ρ α} (h : Obeys c p) (w : World σ ρ) : c.Leads w (w.after p) :=
  World.after_of_ends (h w)

/-- What has led to where the computation starts, leads on to where it ends. -/
theorem continued {p : HostM σ ρ α} (h : Obeys c p) {w w₁ : World σ ρ} (hw : c.Leads w w₁) :
    HostM.Ends p w₁ (c.Leads w) fun _ => c.Leads w :=
  (h w₁).mono (fun _ => c.trans hw) fun _ _ => c.trans hw

theorem pure (a : α) : Obeys c (pure a : HostM σ ρ α) := c.refl

theorem throw (fault : Fault) : Obeys c (throw fault : HostM σ ρ α) := c.refl

theorem look : Obeys c (get : HostM σ ρ (World σ ρ)) := c.refl

theorem modify {f : World σ ρ → World σ ρ} (hf : ∀ w, c.Leads w (f w)) :
    Obeys c (modify f : HostM σ ρ Unit) :=
  hf

theorem bind {p : HostM σ ρ α} {f : α → HostM σ ρ β} (hp : Obeys c p)
    (hf : ∀ a, Obeys c (f a)) : Obeys c (p >>= f) :=
  fun w => (hp w).bind fun a _ hw => (hf a).continued hw

theorem map {p : HostM σ ρ α} (f : α → β) (hp : Obeys c p) : Obeys c (f <$> p) := by
  rw [map_eq_pure_bind]
  exact hp.bind fun a => .pure (f a)

theorem tryCatch {p : HostM σ ρ α} {f : Fault → HostM σ ρ α} (hp : Obeys c p)
    (hf : ∀ fault, Obeys c (f fault)) : Obeys c (tryCatch p f) := by
  intro w
  cases h : p w with
  | ok a w₁ =>
    have hcatch : (MonadExcept.tryCatch p f : HostM σ ρ α) w = .ok a w₁ := by
      change EStateM.tryCatch p f w = _
      delta EStateM.tryCatch
      simp only [h]
    exact HostM.ends_of_ok hcatch ((hp w).of_ok h)
  | error fault w₁ =>
    have hcatch : (MonadExcept.tryCatch p f : HostM σ ρ α) w = f fault w₁ := by
      change EStateM.tryCatch p f w = _
      delta EStateM.tryCatch
      simp only [h]
      rfl
    rw [HostM.Ends, hcatch]
    exact (hf fault).continued ((hp w).of_error h)

theorem ofExcept (result : Except Fault α) :
    Obeys c (HostM.ofExcept result : HostM σ ρ α) := by
  cases result with
  | ok a => exact .pure a
  | error fault => exact .throw fault

theorem sequential (c : Conduct σ ρ) : HostM.Sequential fun _ (p : HostM σ ρ _) => p.Obeys c :=
  ⟨.pure, .throw, .bind⟩

theorem mapM {as : List α} {f : α → HostM σ ρ β} (hf : ∀ a, Obeys c (f a)) :
    Obeys c (as.mapM f) :=
  (sequential c).mapM hf

/-! ### Attempts -/

/-- A sequence of attempts stops at the first one that is refused. -/
theorem attempt_bind {x : HostAttempt σ ρ α} {f : α → HostAttempt σ ρ β} (hx : Obeys c x.run)
    (hf : ∀ a, Obeys c (f a).run) : Obeys c (x >>= f).run := by
  rw [ExceptT.run_bind]
  refine hx.bind fun result => ?_
  cases result with
  | ok a => exact hf a
  | error error => exact .pure _

theorem attempt_pure (a : α) : Obeys c (Pure.pure a : HostAttempt σ ρ α).run := c.refl

theorem refuse (error : Error) :
    Obeys c (MonadExcept.throw error : HostAttempt σ ρ α).run :=
  c.refl

theorem attempt_ofExcept (result : Except Error α) :
    Obeys c (HostAttempt.ofExcept result : HostAttempt σ ρ α).run :=
  c.refl

theorem lift {p : HostM σ ρ α} (hp : Obeys c p) : Obeys c (HostAttempt.lift p).run :=
  map Except.ok hp

theorem attempt_discard {x : HostAttempt σ ρ α} (hx : Obeys c x.run) :
    Obeys c (discard x).run :=
  attempt_bind hx fun _ => pure _

/-! ### What only looks -/

theorem now (env : Env σ ρ) : Obeys c (HostM.now env) := look.bind fun _ => pure _

theorem controller : Obeys c (HostM.controller : HostM σ ρ Controller) :=
  look.bind fun _ => pure _

theorem endpoint (r : EndpointRef) : Obeys c (HostM.endpoint r : HostM σ ρ (Endpoint ρ)) := by
  unfold HostM.endpoint
  refine look.bind fun w => ?_
  split
  · exact pure _
  · exact throw _

theorem device (d : DeviceRef) : Obeys c (HostM.device d : HostM σ ρ Device) := by
  unfold HostM.device
  refine look.bind fun w => ?_
  split
  · exact pure _
  · exact throw _

/-! ### Waiting -/

theorem awaitSome {env : Env σ ρ} (hyield : Obeys c env.yieldNow) {poll : HostM σ ρ (Option α)}
    (hpoll : Obeys c poll) (patience : Nat) : Obeys c (Host.awaitSome env poll patience) :=
  (sequential c).awaitSome hyield hpoll patience

theorem awaitSignal {env : Env σ ρ} (hyield : Obeys c env.yieldNow) {take : HostM σ ρ Bool}
    (htake : Obeys c take) (timeout : UInt64) : Obeys c (Host.awaitSignal env take timeout) :=
  (sequential c).awaitSignal hyield (now env) htake timeout

end HostM.Obeys

/-! ### Programs -/

/-- Surroundings whose parts obey a conduct. -/
structure Env.Obeys (c : Conduct σ ρ) (env : Env σ ρ) : Prop where
  yieldNow : env.yieldNow.Obeys c
  complete : ∀ routine request, (env.complete routine request).Obeys c
  portChanged : ∀ port, (env.portChanged port).Obeys c

/-- What a conduct has to admit so that every program obeys it. -/
structure Conduct.AdmitsPrograms (c : Conduct σ ρ) (m : AddressMap σ) (managing : Bool) :
    Prop where
  platform : ∀ f : σ → σ, (∀ s, m.Extends s (f s)) → (HostM.onPlatform f).Obeys c
  events : ∀ f, (HostM.writeEvents f).Obeys c
  context : ∀ d f, (HostM.writeContext d f).Obeys c
  call : ∀ {α : Type} {env : Env σ ρ}, env.toPlatform.Respects m → env.Obeys c →
    ∀ call : Call ρ α, managing = true ∨ call.isManagement = false → (call.run env).Obeys c

theorem HostM.Obeys.compositional (c : Conduct σ ρ) :
    HostM.Compositional fun _ (p : HostM σ ρ _) => p.Obeys c :=
  ⟨Obeys.sequential c, .look, .tryCatch⟩

theorem Program.obeys {c : Conduct σ ρ} {m : AddressMap σ} {managing : Bool}
    (hc : c.AdmitsPrograms m managing) {p : HostM σ ρ α} (h : Program m managing p) :
    p.Obeys c :=
  h.holds (HostM.Obeys.compositional c) hc.platform hc.events hc.context
    fun _ call hplatform hyield hcomplete hport hcall =>
      hc.call hplatform ⟨hyield, hcomplete, hport⟩ call hcall

theorem Env.Acts.obeys {c : Conduct σ ρ} {m : AddressMap σ} {managing : Bool}
    (hc : c.AdmitsPrograms m managing) {env : Env σ ρ} (h : env.Acts m managing) :
    env.Obeys c where
  yieldNow := h.yieldNow.obeys hc
  complete routine request := (h.complete routine request).obeys hc
  portChanged port := (h.portChanged port).obeys hc

variable {env : Env σ ρ} {w : World σ ρ}

/-- A wait comes to an end if time passes and the deadline is before the end of time. -/
theorem Host.awaitSignalSince_returns {I : World σ ρ → Prop} {take : HostM σ ρ Bool}
    (htake : ∀ w, I w → ∃ taken w', take w = .ok taken w' ∧ I w' ∧
      w'.bus.platform = w.bus.platform)
    (hyield : ∀ w, I w → ∃ w', env.yieldNow w = .ok () w' ∧ I w' ∧
      min ((env.now w.bus.platform).toNat + 1) (UInt64.size - 1) ≤
        (env.now w'.bus.platform).toNat)
    {start timeout : UInt64} (hdeadline : start.toNat + timeout.toNat < UInt64.size)
    (patience : Nat) (hw : I w) (hpatience : 0 < patience)
    (hlong : start.toNat + timeout.toNat < (env.now w.bus.platform).toNat + patience) :
    HostM.Ends (awaitSignalSince env take start timeout patience) w (fun _ => False)
      fun _ => I := by
  induction patience generalizing w with
  | zero => exact absurd hpatience (Nat.lt_irrefl 0)
  | succ patience ih =>
    obtain ⟨taken, w₁, hrun, hw₁, hsame⟩ := htake w hw
    rw [awaitSignalSince]
    refine HostM.ends_bind_of_ok hrun ?_
    cases taken with
    | true => exact HostM.ends_of_ok rfl hw₁
    | false =>
      have hnow : HostM.now env w₁ = .ok (env.now w₁.bus.platform) w₁ := rfl
      refine HostM.ends_bind_of_ok hnow ?_
      split
      · obtain ⟨taken', w₂, hrun', hw₂, -⟩ := htake w₁ hw₁
        exact HostM.ends_of_ok hrun' hw₂
      · rename_i hearly
        obtain ⟨w₂, hyields, hw₂, hclock⟩ := hyield w₁ hw₁
        rw [hsame] at hearly hclock
        refine HostM.ends_bind_of_ok hyields (ih hw₂ ?_ ?_)
        · omega
        · omega

end UsbHost
