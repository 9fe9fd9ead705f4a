import UsbHost.Error

/-!
Opening attempts. A sequence of attempts gives a value exactly when each of them does, so that a
proof about a value that came out can go through the steps one by one.
-/

namespace UsbHost

/-- Steps that may fault give a value exactly when each of them does. -/
theorem Fault.bind_eq_ok {α β : Type} {x : Except Fault α} {f : α → Except Fault β} {b : β} :
    (x >>= f) = .ok b ↔ ∃ a, x = .ok a ∧ f a = .ok b := by
  cases x <;> simp [bind, Except.bind]

theorem Fault.map_eq_ok {α β : Type} {x : Except Fault α} {f : α → β} {b : β} :
    f <$> x = .ok b ↔ ∃ a, x = .ok a ∧ f a = b := by
  cases x <;> simp [Functor.map, Except.map]

theorem guard_bind {α : Type} (p : Prop) [Decidable p] (k : Unit → Option α) :
    (guard p >>= k) = if p then k () else none := by
  change ((if p then pure () else failure) >>= k) = _
  split <;> rfl

theorem Fault.length_mapM {α β : Type} {f : α → Except Fault β} {as : List α} {bs : List β}
    (h : as.mapM f = .ok bs) : bs.length = as.length := by
  induction as generalizing bs with
  | nil =>
    obtain rfl : [] = bs := Except.ok.inj h
    rfl
  | cons a as ih =>
    rw [List.mapM_cons] at h
    obtain ⟨b, -, h⟩ := Fault.bind_eq_ok.1 h
    obtain ⟨bs, hrest, h⟩ := Fault.bind_eq_ok.1 h
    obtain rfl := Except.ok.inj h
    rw [List.length_cons, List.length_cons, ih hrest]

/-- Each result of a run over a list is that of the element at its place. -/
theorem Fault.getElem?_mapM {α β : Type} {f : α → Except Fault β} {as : List α} {bs : List β}
    (h : as.mapM f = .ok bs) {k : Nat} {b : β} (hb : bs[k]? = some b) :
    ∃ a, as[k]? = some a ∧ f a = .ok b := by
  induction as generalizing bs k with
  | nil =>
    obtain rfl : [] = bs := Except.ok.inj h
    cases hb
  | cons a as ih =>
    rw [List.mapM_cons] at h
    obtain ⟨first, hfirst, h⟩ := Fault.bind_eq_ok.1 h
    obtain ⟨rest, hrest, h⟩ := Fault.bind_eq_ok.1 h
    obtain rfl := Except.ok.inj h
    cases k with
    | zero => exact ⟨a, rfl, hfirst.trans (congrArg _ (Option.some.inj hb))⟩
    | succ k => exact ih hrest hb

/-- A run over a list succeeds if it does on each element. -/
theorem Fault.exists_mapM {α β : Type} {f : α → Except Fault β} {as : List α}
    (h : ∀ a ∈ as, ∃ b, f a = .ok b) : ∃ bs, as.mapM f = .ok bs := by
  induction as with
  | nil => exact ⟨[], rfl⟩
  | cons a as ih =>
    obtain ⟨b, hb⟩ := h a List.mem_cons_self
    obtain ⟨bs, hbs⟩ := ih fun a' ha' => h a' (List.mem_cons_of_mem a ha')
    refine ⟨b :: bs, ?_⟩
    rw [List.mapM_cons, hb, hbs]
    rfl

theorem Fault.mem_mapM {α β : Type} {f : α → Except Fault β} {as : List α} {bs : List β}
    (h : as.mapM f = .ok bs) {b : β} (hb : b ∈ bs) : ∃ a ∈ as, f a = .ok b := by
  obtain ⟨k, hk⟩ := List.mem_iff_getElem?.1 hb
  obtain ⟨a, ha, hf⟩ := Fault.getElem?_mapM h hk
  exact ⟨a, List.mem_of_getElem? ha, hf⟩

/-- A run over a list goes to its end if each step does, and keeps what each step keeps. -/
theorem Fault.exists_of_run {σ μ : Type} {step : σ → μ → Except Fault σ}
    {run : σ → List μ → Except Fault σ} {Kept : σ → Prop} (hnil : ∀ s, run s [] = .ok s)
    (hcons : ∀ s move moves, run s (move :: moves) = step s move >>= fun s' => run s' moves)
    (hstep : ∀ s, Kept s → ∀ move, ∃ s', step s move = .ok s' ∧ Kept s') {s : σ} (h : Kept s)
    (moves : List μ) : ∃ s', run s moves = .ok s' ∧ Kept s' := by
  induction moves generalizing s with
  | nil => exact ⟨s, hnil s, h⟩
  | cons move moves ih =>
    obtain ⟨s₁, hone, h₁⟩ := hstep s h move
    obtain ⟨s₂, hrest, h₂⟩ := ih h₁
    refine ⟨s₂, ?_, h₂⟩
    rw [hcons, hone]
    exact hrest

namespace Attempt

variable {α β : Type}

theorem run_bind_eq_ok {x : Attempt α} {f : α → Attempt β} {b : β} :
    (x >>= f).run = .ok (.ok b) ↔ ∃ a, x.run = .ok (.ok a) ∧ (f a).run = .ok (.ok b) := by
  rw [ExceptT.run_bind]
  rcases hx : x.run with fault | (error | a)
  · simp [bind, Except.bind]
  · simp [bind, Except.bind, pure, Except.pure]
  · simp [bind, Except.bind]

theorem run_liftM_eq_ok {x : Except Fault α} {a : α} :
    (liftM x : Attempt α).run = .ok (.ok a) ↔ x = .ok a := by
  cases x with
  | error fault => constructor <;> intro h <;> cases h
  | ok b => constructor <;> intro h <;> cases h <;> rfl

@[simp] theorem run_liftExcept {x : Except Error α} : (liftExcept x : Attempt α).run = .ok x := by
  cases x <;> rfl

end Attempt

end UsbHost
