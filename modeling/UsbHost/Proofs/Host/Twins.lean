import Mathlib.Data.List.Induction
import UsbHost.Proofs.Host.Programs
import UsbHost.Proofs.Queue.Completion

/-!
Twin hosts. Of two twins one parks finished requests until task level and the other runs their
routines at once; in everything else they are alike. Both run on a platform that takes notes of the
routines called. The calls of the second one are the postponed calls of the first one, made or still
due, interleaved with those that the first one has made directly because its queue was full.

Two computations are alike if they lead twins to twins, with related results. Each way to compose
computations has a rule, as for a single computation, so whether an operation can tell the modes
apart comes down to the few places where it looks at a device, an endpoint or the settings.
-/

namespace UsbHost

variable {σ ρ α β γ δ : Type}

/-! ### Interleaved sequences -/

/-- The third sequence consists of the first two, and each of them keeps its order in it. -/
inductive Interleaves : List α → List α → List α → Prop
  | nil : Interleaves [] [] []
  | left {xs ys zs : List α} (h : Interleaves xs ys zs) (x : α) :
      Interleaves (xs ++ [x]) ys (zs ++ [x])
  | right {xs ys zs : List α} (h : Interleaves xs ys zs) (y : α) :
      Interleaves xs (ys ++ [y]) (zs ++ [y])

namespace Interleaves

variable {xs ys zs : List α}

theorem append_left (h : Interleaves xs ys zs) (l : List α) :
    Interleaves (xs ++ l) ys (zs ++ l) := by
  induction l generalizing xs zs with
  | nil => simpa using h
  | cons x l ih => simpa using ih (h.left x)

theorem append_right (h : Interleaves xs ys zs) (l : List α) :
    Interleaves xs (ys ++ l) (zs ++ l) := by
  induction l generalizing ys zs with
  | nil => simpa using h
  | cons y l ih => simpa using ih (h.right y)

theorem perm (h : Interleaves xs ys zs) : zs.Perm (xs ++ ys) := by
  induction h with
  | nil => exact .nil
  | left _ x ih =>
    refine (ih.append_right [x]).trans ?_
    rw [List.append_assoc, List.append_assoc]
    exact List.perm_append_comm.append_left _
  | right _ y ih =>
    rw [← List.append_assoc]
    exact ih.append_right [y]

end Interleaves

/-! ### Notes -/

/-- A call of a completion routine, and how many requests were parked at that time. -/
structure Note (ρ : Type) where
  routine : ρ
  request : Request ρ
  parked : Nat

/-- A platform with notes of the routines called so far. -/
structure Noting (σ ρ : Type) where
  base : σ
  notes : List (Note ρ) := []
  deriving Inhabited

/-- The same platform, whatever notes are taken. -/
def Platform.noting (p : Platform σ) : Platform (Noting σ ρ) where
  now s := p.now s.base
  busAddress id s :=
    ((p.busAddress id s.base).1, { s with base := (p.busAddress id s.base).2 })
  doorbell slot target s := { s with base := p.doorbell slot target s.base }
  setCommandRing base cycle s := { s with base := p.setCommandRing base cycle s.base }
  setEventRing table segments dequeue s :=
    { s with base := p.setEventRing table segments dequeue s.base }
  writeEventDequeue address s := { s with base := p.writeEventDequeue address s.base }
  setContextArray address slots s := { s with base := p.setContextArray address slots s.base }

/-- The routine called, and what it was given. -/
def Note.call (n : Note ρ) : ρ × Request ρ := (n.routine, n.request)

/-- The call that a finished request leads to, unless it has no routine. -/
def callOf (request : Request ρ) : List (ρ × Request ρ) :=
  request.routine.toList.map fun routine => (routine, { request with routine := none })

namespace World

variable (w : World (Noting σ ρ) ρ)

def notes : List (Note ρ) := w.bus.platform.notes

/-- The calls that have been made. -/
def made : List (ρ × Request ρ) := w.notes.map Note.call

/-- The calls that have been made while the queue had room: those of parked requests. -/
def postponed (depth : Nat) : List (ρ × Request ρ) :=
  (w.notes.filter fun n => n.parked < depth).map Note.call

/-- The calls that have been made while the queue was full: those of requests that could not be
parked. -/
def direct (depth : Nat) : List (ρ × Request ρ) :=
  (w.notes.filter fun n => !decide (n.parked < depth)).map Note.call

/-- The calls that are still to be made. -/
def due : List (ρ × Request ρ) :=
  w.completions.elim [] fun q => q.toList.flatMap fun entry => callOf entry.item

/-- Take a note of a call. -/
def note (routine : ρ) (request : Request ρ) : World (Noting σ ρ) ρ :=
  { w with bus.platform.notes := w.bus.platform.notes ++
      [⟨routine, request, w.completions.elim 0 CompletionQueue.length⟩] }

end World

/-- What goes on around a host whose completion routines do not use it: each is noted when it is
called. -/
structure Surroundings (σ ρ : Type) where
  platform : Platform σ
  yieldNow : HostM (Noting σ ρ) ρ Unit
  portChanged : UInt8 → HostM (Noting σ ρ) ρ Unit
  patience : Nat

def Surroundings.env (s : Surroundings σ ρ) : Env (Noting σ ρ) ρ where
  toPlatform := s.platform.noting
  yieldNow := s.yieldNow
  complete routine request := modify fun w => w.note routine request
  portChanged := s.portChanged
  patience := s.patience

/-! ### Twins -/

def Config.immediate (c : Config) : Config := { c with completionMode := .immediate }

def Controller.immediate (c : Controller) : Controller := { c with config := c.config.immediate }

def Owner.immediate (o : Owner) : Owner := { o with sink := .immediate }

def Device.immediate (d : Device) : Device := { d with owner := d.owner.immediate }

def Endpoint.immediate (e : Endpoint ρ) : Endpoint ρ := { e with owner := e.owner.immediate }

namespace World

/-- The same host in immediate mode, when `notes` have been taken. -/
def immediate (w : World (Noting σ ρ) ρ) (notes : List (Note ρ)) : World (Noting σ ρ) ρ where
  bus := { w.bus with platform := { w.bus.platform with notes := notes } }
  controller := w.controller.immediate
  devices := w.devices.map Device.immediate
  endpoints := w.endpoints.map Endpoint.immediate
  waiters := w.waiters
  inputs := w.inputs

/-- The host and all that it has are in deferred mode. -/
structure Deferred (w : World σ ρ) : Prop where
  mode : w.controller.config.completionMode = .deferred
  devices : ∀ d ∈ w.devices, d.owner.sink = .deferred
  endpoints : ∀ e ∈ w.endpoints, e.owner.sink = .deferred

/-- How the calls made in deferred mode compare with the notes taken in immediate mode. -/
structure Tallies (depth : Nat) (w : World (Noting σ ρ) ρ) (notes : List (Note ρ)) : Prop where
  queue : ∃ q, w.completions = some q ∧ q.Bounded depth
  interleaves :
    Interleaves (w.postponed depth ++ w.due) (w.direct depth) (notes.map Note.call)

/-- `w` is in deferred mode, and `v` is like it but for immediate mode. -/
structure Twins (depth : Nat) (w v : World (Noting σ ρ) ρ) : Prop where
  deferred : w.Deferred
  eq : v = w.immediate v.notes
  tallies : w.Tallies depth v.notes

/-- Parked requests and notes are as they were. -/
structure SameCalls (w w' : World (Noting σ ρ) ρ) : Prop where
  completions_eq : w'.completions = w.completions
  notes_eq : w'.notes = w.notes

variable {depth : Nat} {w w' v : World (Noting σ ρ) ρ} {notes : List (Note ρ)}

theorem Tallies.of_sameCalls (h : w.Tallies depth notes) (hsame : SameCalls w w') :
    w'.Tallies depth notes := by
  constructor
  · rw [hsame.completions_eq]
    exact h.queue
  · rw [postponed, direct, due, hsame.notes_eq, hsame.completions_eq]
    exact h.interleaves

/-- A change in deferred mode, and the like change in immediate mode. -/
theorem Twins.change (h : w.Twins depth v) {v' : World (Noting σ ρ) ρ}
    (heq : v' = w'.immediate v.notes) (hdeferred : w'.Deferred) (hsame : SameCalls w w') :
    w'.Twins depth v' where
  deferred := hdeferred
  eq := by
    rw [heq]
    rfl
  tallies := by
    rw [heq]
    exact h.tallies.of_sameCalls hsame

end World

/-! ### Computations that twins carry out -/

/-- Both computations end in the same way, with related results, and leave twins. -/
inductive Outcomes (depth : Nat) (R : α → β → Prop) :
    EStateM.Result Fault (World (Noting σ ρ) ρ) α →
      EStateM.Result Fault (World (Noting σ ρ) ρ) β → Prop
  | ok {a : α} {b : β} {w v : World (Noting σ ρ) ρ} (h : R a b) (htwins : w.Twins depth v) :
      Outcomes depth R (.ok a w) (.ok b v)
  | error (fault : Fault) {w v : World (Noting σ ρ) ρ} (htwins : w.Twins depth v) :
      Outcomes depth R (.error fault w) (.error fault v)

namespace HostM

/-- `p` does in deferred mode what `q` does in immediate mode. -/
def Alike (depth : Nat) (R : α → β → Prop) (p : HostM (Noting σ ρ) ρ α)
    (q : HostM (Noting σ ρ) ρ β) : Prop :=
  ∀ w v, w.Twins depth v → Outcomes depth R (p w) (q v)

/-- The computation does the same in both modes. -/
abbrev Blind (depth : Nat) (p : HostM (Noting σ ρ) ρ α) : Prop := Alike depth Eq p p

variable {depth : Nat} {R : α → β → Prop} {S : γ → δ → Prop}

namespace Alike

theorem pure {a : α} {b : β} (h : R a b) :
    Alike depth R (pure a : HostM (Noting σ ρ) ρ α) (pure b) :=
  fun _ _ htwins => .ok h htwins

theorem throw (fault : Fault) :
    Alike depth R (throw fault : HostM (Noting σ ρ) ρ α) (throw fault) :=
  fun _ _ htwins => .error fault htwins

theorem bind {p : HostM (Noting σ ρ) ρ α} {q : HostM (Noting σ ρ) ρ β}
    {f : α → HostM (Noting σ ρ) ρ γ} {g : β → HostM (Noting σ ρ) ρ δ}
    (hp : Alike depth R p q) (hf : ∀ a b, R a b → Alike depth S (f a) (g b)) :
    Alike depth S (p >>= f) (q >>= g) := by
  intro w v htwins
  have houtcome := hp w v htwins
  change Outcomes depth S (EStateM.bind p f w) (EStateM.bind q g v)
  unfold EStateM.bind
  generalize p w = x, q v = y at houtcome
  cases houtcome with
  | ok h htwins' => exact hf _ _ h _ _ htwins'
  | error fault htwins' => exact .error fault htwins'

theorem tryCatch {p : HostM (Noting σ ρ) ρ α} {q : HostM (Noting σ ρ) ρ β}
    {f : Fault → HostM (Noting σ ρ) ρ α} {g : Fault → HostM (Noting σ ρ) ρ β}
    (hp : Alike depth R p q) (hf : ∀ fault, Alike depth R (f fault) (g fault)) :
    Alike depth R (tryCatch p f) (tryCatch q g) := by
  intro w v htwins
  have houtcome := hp w v htwins
  change Outcomes depth R (EStateM.tryCatch p f w) (EStateM.tryCatch q g v)
  delta EStateM.tryCatch
  dsimp only
  generalize p w = x, q v = y at houtcome
  cases houtcome with
  | ok h htwins' => exact .ok h htwins'
  | error fault htwins' => exact hf fault _ _ htwins'

/-- Twins are left, however the computations end. -/
theorem after {p : HostM (Noting σ ρ) ρ α} {q : HostM (Noting σ ρ) ρ β} (h : Alike depth R p q)
    {w v : World (Noting σ ρ) ρ} (htwins : w.Twins depth v) :
    (w.after p).Twins depth (v.after q) := by
  have houtcome := h w v htwins
  unfold World.after
  generalize p w = x, q v = y at houtcome
  cases houtcome with
  | ok _ htwins' => exact htwins'
  | error _ htwins' => exact htwins'

theorem map {p : HostM (Noting σ ρ) ρ α} {q : HostM (Noting σ ρ) ρ β} (h : Alike depth R p q)
    {f : α → γ} {g : β → δ} (hf : ∀ a b, R a b → S (f a) (g b)) :
    Alike depth S (f <$> p) (g <$> q) := by
  rw [map_eq_pure_bind, map_eq_pure_bind]
  exact h.bind fun a b hab => .pure (hf a b hab)

/-- What is looked up is related. -/
theorem look {f : World (Noting σ ρ) ρ → α} {g : World (Noting σ ρ) ρ → β}
    (h : ∀ w notes, w.Deferred → w.Tallies depth notes → R (f w) (g (w.immediate notes))) :
    Alike depth R (do return f (← get)) (do return g (← get)) := by
  intro w v htwins
  refine .ok ?_ htwins
  have hR := h w v.notes htwins.deferred htwins.tallies
  rwa [← htwins.eq] at hR

/-- Both sides change alike, and neither calls nor parks. -/
theorem modify {f g : World (Noting σ ρ) ρ → World (Noting σ ρ) ρ}
    (heq : ∀ w notes, g (w.immediate notes) = (f w).immediate notes)
    (hdeferred : ∀ w, w.Deferred → (f w).Deferred) (hsame : ∀ w, World.SameCalls w (f w)) :
    Alike depth Eq (modify f : HostM (Noting σ ρ) ρ Unit) (modify g) := by
  intro w v htwins
  refine .ok rfl (htwins.change ?_ (hdeferred w htwins.deferred) (hsame w))
  rw [← heq, ← htwins.eq]

theorem modifyGet {f : World (Noting σ ρ) ρ → α × World (Noting σ ρ) ρ}
    {g : World (Noting σ ρ) ρ → β × World (Noting σ ρ) ρ}
    (hR : ∀ w notes, R (f w).1 (g (w.immediate notes)).1)
    (heq : ∀ w notes, (g (w.immediate notes)).2 = (f w).2.immediate notes)
    (hdeferred : ∀ w, w.Deferred → (f w).2.Deferred)
    (hsame : ∀ w, World.SameCalls w (f w).2) :
    Alike depth R (modifyGet f : HostM (Noting σ ρ) ρ α) (modifyGet g) := by
  intro w v htwins
  have hab := hR w v.notes
  have hv := heq w v.notes
  rw [← htwins.eq] at hab hv
  exact .ok hab (htwins.change hv (hdeferred w htwins.deferred) (hsame w))

theorem ofExcept (x : Except Fault α) :
    Alike depth Eq (HostM.ofExcept x : HostM (Noting σ ρ) ρ α) (HostM.ofExcept x) := by
  cases x with
  | error fault => exact .throw fault
  | ok a => exact .pure rfl

theorem forM {as : List α} {f : α → HostM (Noting σ ρ) ρ PUnit}
    {g : α → HostM (Noting σ ρ) ρ PUnit} (hf : ∀ a, Alike depth Eq (f a) (g a)) :
    Alike depth Eq (as.forM f) (as.forM g) := by
  induction as with
  | nil => exact .pure rfl
  | cons a as ih => exact (hf a).bind fun _ _ _ => ih

/-! ### Attempts -/

section

variable {x : HostAttempt (Noting σ ρ) ρ α} {y : HostAttempt (Noting σ ρ) ρ α}
  {f : α → HostAttempt (Noting σ ρ) ρ β} {g : α → HostAttempt (Noting σ ρ) ρ β}

theorem attempt_bind (hx : Alike depth Eq x.run y.run)
    (hf : ∀ a, Alike depth Eq (f a).run (g a).run) :
    Alike depth Eq (x >>= f).run (y >>= g).run := by
  rw [ExceptT.run_bind, ExceptT.run_bind]
  refine hx.bind ?_
  rintro result _ rfl
  cases result with
  | ok a => exact hf a
  | error error => exact .pure rfl

theorem attempt_pure (a : α) :
    Alike depth Eq (Pure.pure a : HostAttempt (Noting σ ρ) ρ α).run
      (Pure.pure a : HostAttempt (Noting σ ρ) ρ α).run :=
  .pure rfl

theorem refuse (error : Error) :
    Alike depth Eq (MonadExcept.throw error : HostAttempt (Noting σ ρ) ρ α).run
      (MonadExcept.throw error : HostAttempt (Noting σ ρ) ρ α).run :=
  .pure rfl

theorem attempt_ofExcept (result : Except Error α) :
    Alike depth Eq (HostAttempt.ofExcept result : HostAttempt (Noting σ ρ) ρ α).run
      (HostAttempt.ofExcept result : HostAttempt (Noting σ ρ) ρ α).run :=
  .pure rfl

theorem attempt_discard (hx : Alike depth Eq x.run y.run) :
    Alike depth Eq (discard x).run (discard y).run :=
  attempt_bind hx fun _ => attempt_pure _

theorem lift {p q : HostM (Noting σ ρ) ρ α} (hp : Alike depth Eq p q) :
    Alike depth Eq (HostAttempt.lift p).run (HostAttempt.lift q).run :=
  hp.map fun _ _ => congrArg Except.ok

end

end Alike

namespace Blind

variable {p : HostM (Noting σ ρ) ρ α} {f : α → HostM (Noting σ ρ) ρ β}

theorem pure (a : α) : Blind depth (pure a : HostM (Noting σ ρ) ρ α) := Alike.pure rfl

theorem bind (hp : Blind depth p) (hf : ∀ a, Blind depth (f a)) : Blind depth (p >>= f) :=
  Alike.bind hp fun a _ heq => heq ▸ hf a

theorem map (f : α → β) (hp : Blind depth p) : Blind depth (f <$> p) :=
  Alike.map hp fun _ _ heq => congrArg f heq

theorem sequential (depth : Nat) :
    HostM.Sequential fun _ (p : HostM (Noting σ ρ) ρ _) => Blind depth p :=
  ⟨.pure, .throw, .bind⟩

theorem mapM {as : List α} (hf : ∀ a, Blind depth (f a)) : Blind depth (as.mapM f) :=
  (sequential depth).mapM hf

end Blind

end HostM

end UsbHost
