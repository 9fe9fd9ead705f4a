import UsbHost.Proofs.Host.Programs

/-!
How computations end. A computation on a host ends in a fault or with a result, and one that may be
refused may end in an error as well. `Ends` says what is known of the world in each of these cases.
What is known of a sequence follows from what is known of its parts: a fault or an error ends all of
it, and what a result tells is where the rest begins.
-/

namespace UsbHost

variable {s σ ρ α β : Type}

section Sequences

variable {w w₁ : s}

/-! ### Runs of a sequence -/

theorem HostM.bind_of_ok {p : EStateM Fault s α} {f : α → EStateM Fault s β} {a : α}
    (h : p w = .ok a w₁) : (p >>= f) w = f a w₁ := by
  simp only [bind, EStateM.bind, h]

theorem HostM.bind_of_error {p : EStateM Fault s α} {f : α → EStateM Fault s β} {fault : Fault}
    (h : p w = .error fault w₁) : (p >>= f) w = .error fault w₁ := by
  simp only [bind, EStateM.bind, h]

namespace HostAttempt

variable {x : ExceptT Error (EStateM Fault s) α} {f : α → ExceptT Error (EStateM Fault s) β}

/-- The result of the attempt and the state that it leaves, if it succeeds. -/
def success? (x : ExceptT Error (EStateM Fault s) α) (w : s) : Option (α × s) :=
  match x.run w with
  | .ok (.ok a) w' => some (a, w')
  | _ => none

theorem run_of_success? {r : α × s} (h : success? x w = some r) : x.run w = .ok (.ok r.1) r.2 := by
  unfold success? at h
  split at h
  · rename_i a w' hrun
    cases h
    exact hrun
  · cases h

theorem exists_of_success? (h : (success? x w).isSome = true) :
    ∃ a w', x.run w = .ok (.ok a) w' := by
  obtain ⟨r, hr⟩ := Option.isSome_iff_exists.1 h
  exact ⟨r.1, r.2, run_of_success? hr⟩

theorem bind_of_ok {a : α} (h : x.run w = .ok (.ok a) w₁) : (x >>= f).run w = (f a).run w₁ := by
  rw [ExceptT.run_bind, HostM.bind_of_ok h]

theorem bind_of_refused {error : Error} (h : x.run w = .ok (.error error) w₁) :
    (x >>= f).run w = .ok (.error error) w₁ := by
  rw [ExceptT.run_bind, HostM.bind_of_ok h]
  rfl

theorem bind_of_error {fault : Fault} (h : x.run w = .error fault w₁) :
    (x >>= f).run w = .error fault w₁ := by
  rw [ExceptT.run_bind, HostM.bind_of_error h]

/-- A sequence of attempts gives a value exactly when each of them does. -/
theorem bind_eq_ok {b : β} {w' : s} (h : (x >>= f).run w = .ok (.ok b) w') :
    ∃ a w₁, x.run w = .ok (.ok a) w₁ ∧ (f a).run w₁ = .ok (.ok b) w' := by
  rcases hx : x.run w with ⟨error | a, w₁⟩ | ⟨fault, w₁⟩
  · cases (bind_of_refused hx).symm.trans h
  · exact ⟨a, w₁, rfl, (bind_of_ok hx).symm.trans h⟩
  · cases (bind_of_error hx).symm.trans h

theorem lift_of_ok {w w₁ : World σ ρ} {p : HostM σ ρ α} {a : α} (h : p w = .ok a w₁) :
    (lift p).run w = .ok (.ok a) w₁ := by
  change (Except.ok <$> p : HostM σ ρ _) w = _
  rw [map_eq_pure_bind, HostM.bind_of_ok h]
  rfl

theorem lift_of_error {w w₁ : World σ ρ} {p : HostM σ ρ α} {fault : Fault}
    (h : p w = .error fault w₁) : (lift p).run w = .error fault w₁ := by
  change (Except.ok <$> p : HostM σ ρ _) w = _
  rw [map_eq_pure_bind, HostM.bind_of_error h]

end HostAttempt

/-! ### What is known at the end -/

/-- Started in `w`, the computation ends in a fault and `failed`, or with a result and `done`. -/
def HostM.Ends (p : EStateM Fault s α) (w : s) (failed : s → Prop) (done : α → s → Prop) : Prop :=
  match p w with
  | .ok a w' => done a w'
  | .error _ w' => failed w'

/-- Started in `w`, the attempt ends in a fault and `failed`, in an error and `refused`, or with a
result and `done`. -/
def HostAttempt.Ends (x : ExceptT Error (EStateM Fault s) α) (w : s) (failed : s → Prop)
    (refused : Error → s → Prop) (done : α → s → Prop) : Prop :=
  HostM.Ends x.run w failed fun result w' =>
    match result with
    | .ok a => done a w'
    | .error error => refused error w'

variable {failed failed' : s → Prop}

namespace HostM

variable {p : EStateM Fault s α} {f : α → EStateM Fault s β} {done done' : α → s → Prop}
  {done₁ : β → s → Prop}

theorem ends_of_ok {a : α} (h : p w = .ok a w₁) (hdone : done a w₁) : Ends p w failed done := by
  rw [Ends, h]
  exact hdone

theorem ends_of_error {fault : Fault} (h : p w = .error fault w₁) (hfailed : failed w₁) :
    Ends p w failed done := by
  rw [Ends, h]
  exact hfailed

theorem Ends.of_ok (h : Ends p w failed done) {a : α} (hrun : p w = .ok a w₁) : done a w₁ := by
  rw [Ends, hrun] at h
  exact h

theorem Ends.of_error (h : Ends p w failed done) {fault : Fault} (hrun : p w = .error fault w₁) :
    failed w₁ := by
  rw [Ends, hrun] at h
  exact h

theorem Ends.mono (h : Ends p w failed done) (hfailed : ∀ w', failed w' → failed' w')
    (hdone : ∀ a w', done a w' → done' a w') : Ends p w failed' done' := by
  cases hp : p w with
  | ok a w' => exact ends_of_ok hp (hdone a w' (h.of_ok hp))
  | error fault w' => exact ends_of_error hp (hfailed w' (h.of_error hp))

theorem ends_trivial (p : EStateM Fault s α) (w : s) :
    Ends p w (fun _ => True) fun _ _ => True := by
  cases hp : p w with
  | ok a w' => exact ends_of_ok hp trivial
  | error fault w' => exact ends_of_error hp trivial

/-- The first step is known exactly. -/
theorem ends_bind_of_ok {a : α} (h : p w = .ok a w₁) (hf : Ends (f a) w₁ failed done₁) :
    Ends (p >>= f) w failed done₁ := by
  rw [Ends, bind_of_ok h]
  exact hf

theorem Ends.bind (h : Ends p w failed done)
    (hf : ∀ a w', done a w' → Ends (f a) w' failed done₁) : Ends (p >>= f) w failed done₁ := by
  cases hp : p w with
  | ok a w' => exact ends_bind_of_ok hp (hf a w' (h.of_ok hp))
  | error fault w' => exact ends_of_error (bind_of_error hp) (h.of_error hp)

end HostM

namespace HostAttempt

variable {x : ExceptT Error (EStateM Fault s) α} {f : α → ExceptT Error (EStateM Fault s) β}
  {refused refused' : Error → s → Prop} {done done' : α → s → Prop} {done₁ : β → s → Prop}

theorem ends_of_ok {a : α} (h : x.run w = .ok (.ok a) w₁) (hdone : done a w₁) :
    Ends x w failed refused done :=
  HostM.ends_of_ok h hdone

theorem ends_of_refused {error : Error} (h : x.run w = .ok (.error error) w₁)
    (hrefused : refused error w₁) : Ends x w failed refused done :=
  HostM.ends_of_ok h hrefused

theorem ends_of_error {fault : Fault} (h : x.run w = .error fault w₁) (hfailed : failed w₁) :
    Ends x w failed refused done :=
  HostM.ends_of_error h hfailed

theorem Ends.of_ok (h : Ends x w failed refused done) {a : α} (hrun : x.run w = .ok (.ok a) w₁) :
    done a w₁ :=
  HostM.Ends.of_ok h hrun

theorem Ends.of_refused (h : Ends x w failed refused done) {error : Error}
    (hrun : x.run w = .ok (.error error) w₁) : refused error w₁ :=
  HostM.Ends.of_ok h hrun

theorem Ends.of_error (h : Ends x w failed refused done) {fault : Fault}
    (hrun : x.run w = .error fault w₁) : failed w₁ :=
  HostM.Ends.of_error h hrun

theorem Ends.mono (h : Ends x w failed refused done) (hfailed : ∀ w', failed w' → failed' w')
    (hrefused : ∀ error w', refused error w' → refused' error w')
    (hdone : ∀ a w', done a w' → done' a w') : Ends x w failed' refused' done' := by
  refine HostM.Ends.mono h hfailed fun result w' => ?_
  cases result with
  | ok a => exact hdone a w'
  | error error => exact hrefused error w'

/-- The same is known whether the attempt is refused or not. -/
theorem ends_of_run {always : s → Prop} (h : HostM.Ends x.run w failed fun _ => always) :
    Ends x w failed (fun _ => always) fun _ => always := by
  refine HostM.Ends.mono h (fun _ hw' => hw') fun result w' hw' => ?_
  cases result with
  | ok a => exact hw'
  | error error => exact hw'

theorem Ends.run {always : s → Prop} (h : Ends x w failed (fun _ => always) fun _ => always) :
    HostM.Ends x.run w failed fun _ => always := by
  refine HostM.Ends.mono h (fun _ hw' => hw') fun result w' hw' => ?_
  cases result with
  | ok a => exact hw'
  | error error => exact hw'

/-- The first step is known exactly. -/
theorem ends_bind_of_ok {a : α} (h : x.run w = .ok (.ok a) w₁)
    (hf : Ends (f a) w₁ failed refused done₁) : Ends (x >>= f) w failed refused done₁ := by
  rw [Ends, HostM.Ends, bind_of_ok h]
  exact hf

theorem Ends.bind (h : Ends x w failed refused done)
    (hf : ∀ a w', done a w' → Ends (f a) w' failed refused done₁) :
    Ends (x >>= f) w failed refused done₁ := by
  rcases hx : x.run w with ⟨error | a, w'⟩ | ⟨fault, w'⟩
  · exact ends_of_refused (bind_of_refused hx) (h.of_refused hx)
  · exact ends_bind_of_ok hx (hf a w' (h.of_ok hx))
  · exact ends_of_error (bind_of_error hx) (h.of_error hx)

/-- Started in `w`, the attempt changes nothing, or it gives a result and `done`. -/
def AllOrNothing (x : ExceptT Error (EStateM Fault s) α) (w : s) (done : α → s → Prop) : Prop :=
  Ends x w (· = w) (fun _ => (· = w)) done

theorem AllOrNothing.ends (h : AllOrNothing x w done) (hfailed : failed w)
    (hrefused : ∀ error, refused error w) (hdone : ∀ a w', done a w' → done' a w') :
    Ends x w failed refused done' := by
  refine Ends.mono h ?_ ?_ hdone
  · rintro _ rfl
    exact hfailed
  · rintro error _ rfl
    exact hrefused error

theorem AllOrNothing.bind_ends (h : AllOrNothing x w done) (hfailed : failed w)
    (hrefused : ∀ error, refused error w)
    (hf : ∀ a w', done a w' → Ends (f a) w' failed refused done₁) :
    Ends (x >>= f) w failed refused done₁ :=
  (h.ends hfailed hrefused fun _ _ hdone => hdone).bind hf

/-- What comes after a step that changes nothing. -/
theorem AllOrNothing.bind (h : AllOrNothing x w fun _ => (· = w))
    (hf : ∀ a, AllOrNothing (f a) w done₁) : AllOrNothing (x >>= f) w done₁ := by
  refine Ends.bind h ?_
  rintro a _ rfl
  exact hf a

/-- What is never refused ends as it does on its own. -/
theorem ends_lift {p : HostM σ ρ α} {w : World σ ρ} {failed : World σ ρ → Prop}
    {refused : Error → World σ ρ → Prop} {done : α → World σ ρ → Prop}
    (h : HostM.Ends p w failed done) : Ends (lift p) w failed refused done := by
  cases hp : p w with
  | ok a w' => exact ends_of_ok (lift_of_ok hp) (h.of_ok hp)
  | error fault w' => exact ends_of_error (lift_of_error hp) (h.of_error hp)

end HostAttempt

end Sequences

namespace World

variable {w w₁ : World σ ρ} {p : HostM σ ρ α} {f : α → HostM σ ρ β}

theorem after_of_ok {a : α} (h : p w = .ok a w₁) : w.after p = w₁ := by rw [after, h]

theorem after_of_error {fault : Fault} (h : p w = .error fault w₁) : w.after p = w₁ := by
  rw [after, h]

/-- A computation that gives a result ends in the world that it leaves. -/
theorem run_of_isSome (h : (p.run' w).isSome = true) : ∃ a, p w = .ok a (w.after p) := by
  cases hrun : p w with
  | ok a w' => exact ⟨a, by rw [after_of_ok hrun]⟩
  | error fault w' =>
    delta EStateM.run' EStateM.run at h
    rw [hrun] at h
    cases h

theorem after_of_ends {always : World σ ρ → Prop} (h : HostM.Ends p w always fun _ => always) :
    always (w.after p) := by
  cases hp : p w with
  | ok a w' =>
    rw [after_of_ok hp]
    exact h.of_ok hp
  | error fault w' =>
    rw [after_of_error hp]
    exact h.of_error hp

end World

end UsbHost
