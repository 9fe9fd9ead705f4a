import UsbHost.Proofs.Frame.Appointment
import UsbHost.Proofs.Frame.Upkeep

/-!
Courses. A dispatcher is used by many: stages are queued in either way, due ones are offered at
start of frame, where whoever is asked may go on using the dispatcher, and devices go away. Whatever
happens, a stage is parked by one of two acts: somebody has queued it, or it has been handed back.
-/

namespace UsbHost.Frame

variable {α : Type}

/-- What parks stages. -/
inductive Act (α : Type)
  | submit (current : UInt16) (stage : Stage α) (wish : Wish)
  /-- At start of frame `current` the stage is handed back. -/
  | handBack (current : UInt16) (stage : Stage α)

/-- A stage is parked by an act for a frame, if there is room. -/
inductive Act.Parks : Act α → Stage α → UInt16 → Prop
  | submitted {current frame : UInt16} {stage stage' : Stage α} {wish : Wish}
      (h : stage.plan current wish = .ok (some (frame, stage'))) :
      Parks (.submit current stage wish) stage' frame
  | handedBack {current : UInt16} {stage : Stage α} :
      Parks (.handBack current stage) stage (add current 1)

namespace Dispatcher

/-- What may become of a dispatcher when stages are parked by acts from `A` alone. -/
inductive Course (A : Act α → Prop) : Dispatcher α → Dispatcher α → Prop
  | refl (d : Dispatcher α) : Course A d d
  | trans {d₁ d₂ d₃ : Dispatcher α} (h : Course A d₁ d₂) (h' : Course A d₂ d₃) : Course A d₁ d₃
  | submit {d d' : Dispatcher α} {current frame : UInt16} {stage : Stage α} {wish : Wish}
      (hact : A (.submit current stage wish))
      (h : d.submit current stage wish = .ok (.ok (frame, d'))) : Course A d d'
  | startOfFrame {ρ : Type} {start : Taker α ρ} {current : UInt16}
      (hstart : ∀ stage d record, Course A d (start stage d record).1.2)
      (hback : ∀ stage d record stage', (start stage d record).1.1 = .handedBack stage' →
        A (.handBack current stage'))
      (limit : Nat) (d : Dispatcher α) (record : ρ) :
      Course A d (startOfFrame limit current start d record).1.2
  | flushDevice (d : Dispatcher α) (owner : DeviceId) : Course A d (d.flushDevice owner).2
  | flush (d : Dispatcher α) : Course A d d.flush.2
  | shutdown (d : Dispatcher α) : Course A d d.shutdown.2

variable {A : Act α → Prop} {capacity : Nat} {d d' : Dispatcher α}

/-- What is parked in `d'` has been parked in `d`, or else by an act from `A`. -/
structure Parked (A : Act α → Prop) (capacity : Nat) (d d' : Dispatcher α) : Prop where
  wellFormed : d'.WellFormed capacity
  origin : ∀ entry ∈ d'.queue.toList, entry ∈ d.queue.toList ∨
    ∃ act, A act ∧ act.Parks entry.item entry.frame

namespace Parked

theorem trans {d₁ d₂ d₃ : Dispatcher α} (h : Parked A capacity d₁ d₂)
    (h' : Parked A capacity d₂ d₃) : Parked A capacity d₁ d₃ := by
  refine ⟨h'.wellFormed, fun entry hentry => ?_⟩
  rcases h'.origin entry hentry with hbefore | hact
  · exact h.origin entry hbefore
  · exact .inr hact

theorem park (hd : d.WellFormed capacity) {stage : Stage α} {frame frame' : UInt16} {act : Act α}
    (hact : A act) (hparks : act.Parks stage frame)
    (hpark : d.park stage frame = .ok (frame', d')) : Parked A capacity d d' := by
  refine ⟨hd.park hpark, fun entry hentry => ?_⟩
  rcases (hd.mem_park hpark).1 hentry with rfl | hbefore
  · exact .inr ⟨act, hact, hparks⟩
  · exact .inl hbefore

theorem take (hd : d.WellFormed capacity) {current : UInt16} {stage : Stage α}
    {q : DeadlineQueue (Stage α)} (hdequeue : d.queue.dequeue current = some (stage, q)) :
    Parked A capacity d { d with queue := q } := by
  obtain ⟨hwf, entry, hlist, -, -⟩ := hd.take_due hdequeue
  exact ⟨hwf, fun other hother => .inl (hlist ▸ List.mem_cons_of_mem entry hother)⟩

theorem dropWhere (hd : d.WellFormed capacity) (p : DeadlineQueue.Entry (Stage α) → Bool)
    (closed : Bool) : Parked A capacity d ⟨(d.queue.dropWhere p).2, closed⟩ := by
  obtain ⟨-, hwf, hlist⟩ := DeadlineQueue.WellFormed.dropWhere hd p
  refine ⟨hwf, fun entry hentry => .inl ?_⟩
  change entry ∈ (d.queue.dropWhere p).2.toList at hentry
  rw [hlist] at hentry
  exact (List.mem_filter.1 hentry).1

end Parked

theorem Course.parked (h : Course A d d') (hd : d.WellFormed capacity) :
    Parked A capacity d d' := by
  induction h with
  | refl d => exact ⟨hd, fun _ h => .inl h⟩
  | trans _ _ ih ih' => exact (ih hd).trans (ih' (ih hd).wellFormed)
  | submit hact h =>
    obtain ⟨stage', hplan, hpark⟩ := submit_accepted h
    exact .park hd hact (.submitted hplan) hpark
  | @startOfFrame ρ start current hstart hback limit d record ih =>
    -- the loop as a whole keeps what has come of `d` up to each of its steps
    have hkeeps : Keeps (Parked A capacity d) (fun _ => True)
        (fun stage => A (.handBack current stage)) current start :=
      { take := fun _ _ _ h hdequeue => ⟨trivial, h.trans (.take h.wellFormed hdequeue)⟩
        offer := fun stage d record _ h =>
          ⟨h.trans (ih stage d record h.wellFormed), hback stage d record⟩
        park := fun _ _ _ _ h hact hpark => h.trans (.park h.wellFormed hact .handedBack hpark) }
    exact (hkeeps.startOfFrame limit ⟨hd, fun _ h => .inl h⟩ record).1
  | flushDevice d owner => exact .dropWhere hd _ d.closed
  | flush d => exact .dropWhere hd _ d.closed
  | shutdown d => exact .dropWhere hd _ true

/-- In a course that begins with a new dispatcher, all that is parked has been parked by one of its
acts. -/
theorem Course.origin (h : Course A d d') (hd : withCapacity capacity = .ok d)
    {entry : DeadlineQueue.Entry (Stage α)} (hentry : entry ∈ d'.queue.toList) :
    ∃ act, A act ∧ act.Parks entry.item entry.frame := by
  obtain ⟨hwf, hnil⟩ := withCapacity_ok hd
  refine ((h.parked hwf).origin entry hentry).resolve_left fun hbefore => ?_
  rw [List.map_eq_nil_iff.1 hnil] at hbefore
  cases hbefore

end Dispatcher

end UsbHost.Frame
