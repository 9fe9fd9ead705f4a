import UsbHost.Proofs.Frame.Course
import UsbHost.Proofs.Queue.Agenda

/-!
Offers at start of frame. Frame numbers wrap, so a dispatcher orders stages by comparing them
pairwise, and each time it may compare only what lies in one window. If it has always been so when
a stage was queued, the parked stages are in the order of their deadlines. Start of frame then
offers those that are due, in this order, and stops at the first one that is handed back. A
dispatcher that has been shut down offers nothing, whatever is done to it.
-/

namespace UsbHost

open Agenda (Due)

/-! ### Windows -/

/-- The frame now, the next one and all deadlines lie in one window. -/
def Agenda.Near {α : Type} (a : Agenda α) (current : Nat) : Prop :=
  ∀ x ∈ current :: a.dues.map Due.deadline, ∀ y ∈ current :: a.dues.map Due.deadline,
    x < y + Frame.window

namespace Agenda.Near

variable {α : Type} {a : Agenda α} {current arrivals : Nat} {due : Due α} {rest : List (Due α)}

instance (a : Agenda α) (current : Nat) : Decidable (a.Near current) :=
  inferInstanceAs (Decidable (∀ x ∈ _, _))

theorem dequeue (h : a.Near current) : a.Fits (.dequeue current) :=
  fun x hx y hy => Nat.le_of_lt (h x hx y hy)

theorem tail (h : a.Near current) (hdues : a.dues = due :: rest) :
    Agenda.Near ⟨rest, arrivals⟩ current := by
  have hmem : ∀ x ∈ current :: rest.map Due.deadline, x ∈ current :: a.dues.map Due.deadline := by
    intro x hx
    rw [hdues, List.map_cons]
    exact List.mem_cons.2 ((List.mem_cons.1 hx).imp_right (List.mem_cons_of_mem _))
  exact fun x hx y hy => h x (hmem x hx) y (hmem y hy)

theorem enqueue (h : a.Near current) (item : α) (owner : DeviceId) :
    a.Fits (.enqueue item owner (current + 1)) := by
  intro x hx y hy
  rcases List.mem_cons.1 hx with rfl | hx <;> rcases List.mem_cons.1 hy with rfl | hy
  · exact Nat.le_add_right _ _
  · exact h _ List.mem_cons_self y (List.mem_cons_of_mem _ hy)
  · have hlt := h x (List.mem_cons_of_mem _ hx) current List.mem_cons_self
    omega
  · exact Nat.le_of_lt (h x (List.mem_cons_of_mem _ hx) y (List.mem_cons_of_mem _ hy))

end Agenda.Near

namespace Frame.Dispatcher

variable {α κ ρ : Type} {capacity limit current : Nat} {d d' : Dispatcher α} {a : Agenda (Stage α)}

/-! ### Stages queued in time -/

/-- A dispatcher together with what is parked in it, when each time a stage was queued its deadline
and those of the stages then parked lay in one window. All uses of a dispatcher are made up of
these. -/
inductive Timely (capacity : Nat) : Dispatcher α → Agenda (Stage α) → Prop
  | new {d : Dispatcher α} (h : withCapacity capacity = .ok d) : Timely capacity d {}
  | park {d d' : Dispatcher α} {a : Agenda (Stage α)} {stage : Stage α} {deadline : Nat}
      {frame : UInt16} (h : Timely capacity d a)
      (hfits : a.Fits (.enqueue stage stage.owner deadline))
      (hpark : d.park stage (numberOf deadline) = .ok (frame, d')) :
      Timely capacity d' (a.perform capacity (.enqueue stage stage.owner deadline)).2
  | take {d : Dispatcher α} {a : Agenda (Stage α)} {frame : UInt16} {stage : Stage α}
      {q : DeadlineQueue (Stage α)} (h : Timely capacity d a)
      (hdequeue : d.queue.dequeue frame = some (stage, q)) :
      Timely capacity { d with queue := q } { a with dues := a.dues.tail }
  | flushDevice {d : Dispatcher α} {a : Agenda (Stage α)} (h : Timely capacity d a)
      (owner : DeviceId) :
      Timely capacity (d.flushDevice owner).2 (a.perform capacity (.flushOwner owner)).2
  | flush {d : Dispatcher α} {a : Agenda (Stage α)} (h : Timely capacity d a) :
      Timely capacity d.flush.2 (a.perform capacity .flush).2
  | shutdown {d : Dispatcher α} {a : Agenda (Stage α)} (h : Timely capacity d a) :
      Timely capacity d.shutdown.2 (a.perform capacity .flush).2

/-- In the window, a stage is parked where the agenda has it. -/
theorem park_agrees (h : Agenda.Follows capacity d.queue a) {stage : Stage α} {deadline : Nat}
    (hfits : a.Fits (.enqueue stage stage.owner deadline)) :
    (a.dues.length < capacity ∧ ∃ d', d.park stage (numberOf deadline) =
      .ok (numberOf deadline, d') ∧ Agenda.Follows capacity d'.queue
        (a.perform capacity (.enqueue stage stage.owner deadline)).2) ∨
    a.dues.length = capacity ∧ d.park stage (numberOf deadline) = .error stage := by
  have hlength : d.stages.length = a.dues.length := by
    rw [stages, h.toList_eq, List.length_map, List.length_map]
  have hfollows := (h.enqueue stage stage.owner deadline hfits).follows
  rw [Agenda.performOn] at hfollows
  rw [← hlength]
  rcases WellFormed.park_cases h.wellFormed stage (numberOf deadline) with
    ⟨hlt, d', hpark, -⟩ | hfull
  · refine .inl ⟨hlt, d', hpark, ?_⟩
    unfold Dispatcher.park at hpark
    cases henqueue : d.queue.enqueue stage stage.owner (numberOf deadline) with
    | error stage =>
      rw [henqueue] at hpark
      cases hpark
    | ok q =>
      rw [henqueue] at hpark hfollows
      cases hpark
      exact hfollows
  · exact .inr hfull

/-- Of stages queued in time, the queue knows which is to come first. -/
theorem Timely.follows (h : Timely capacity d a) : Agenda.Follows capacity d.queue a := by
  induction h with
  | new h =>
    obtain ⟨hwf, hnil⟩ := withCapacity_ok h
    exact ⟨hwf, List.map_eq_nil_iff.1 hnil, .nil, nofun⟩
  | park _ hfits hpark ih =>
    rcases park_agrees ih hfits with ⟨-, d₁, hpark₁, hfollows⟩ | ⟨-, hpark₁⟩
    · rw [hpark₁] at hpark
      cases hpark
      exact hfollows
    · rw [hpark₁] at hpark
      cases hpark
  | @take d a frame stage q _ hdequeue ih =>
    obtain ⟨hwf, entry, hlist, -⟩ := DeadlineQueue.WellFormed.dequeue_some ih.wellFormed hdequeue
    rw [ih.toList_eq] at hlist
    refine ⟨hwf, ?_, ih.ordered.pairwise.sublist (List.tail_sublist _),
      fun due hdue => ih.ordered.arrival_lt due (List.mem_of_mem_tail hdue)⟩
    rw [List.map_tail, hlist, List.tail_cons]
  | flushDevice _ owner ih => exact (ih.flushOwner owner).follows
  | flush _ ih => exact ih.flush.follows
  | shutdown _ ih => exact ih.flush.follows

/-! ### Polling -/

/-- What has been offered, with the answers, beside what is remembered. -/
structure Log (α κ : Type) where
  memory : κ
  offers : List (Stage α × Offer α) := []

/-- Offer a stage to one who leaves the dispatcher alone and answers by what it remembers. -/
def poll (answer : κ → Stage α → Offer α × κ) : Taker α (Log α κ) := fun stage => do
  let log ← getThe (Log α κ)
  let (offer, memory) := answer log.memory stage
  set (⟨memory, log.offers ++ [(stage, offer)]⟩ : Log α κ)
  return offer

variable {answer : κ → Stage α → Offer α × κ}

theorem poll_apply (stage : Stage α) (d : Dispatcher α) (log : Log α κ) :
    poll answer stage d log = (((answer log.memory stage).1, d),
      ⟨(answer log.memory stage).2, log.offers ++ [(stage, (answer log.memory stage).1)]⟩) := rfl

/-- What comes of an agenda at start of frame `current`: the offers with their answers, how many
have been accepted, and the dues that are left. -/
inductive Served (current : Nat) (a : Agenda (Stage α)) :
    List (Stage α × Offer α) → Nat → List (Due (Stage α)) → Prop
  | all (due later : List (Due (Stage α))) (hdue : due = a.dues.filter (·.deadline ≤ current))
      (hlater : later = a.dues.filter (current < ·.deadline)) :
      Served current a (due.map fun d => (d.item, .started)) due.length later
  /-- A stage is handed back, and goes behind all that wait for the next frame or an earlier one. -/
  | handedBack (accepted others later : List (Due (Stage α))) (last : Due (Stage α))
      (stage : Stage α)
      (hdue : accepted ++ last :: others = a.dues.filter (·.deadline ≤ current))
      (hlater : later = a.dues.filter (current < ·.deadline)) :
      Served current a
        (accepted.map (fun d => (d.item, .started)) ++ [(last.item, .handedBack stage)])
        accepted.length
        ((others ++ later).filter (·.deadline ≤ current + 1) ++
          ⟨stage, stage.owner, current + 1, a.arrivals⟩ ::
            (others ++ later).filter (current + 1 < ·.deadline))

section Serving

variable {due : Due (Stage α)} {rest dues : List (Due (Stage α))}
  {offers : List (Stage α × Offer α)} {count : Nat}

/-- The first due is one of those due now. -/
theorem filter_due (hdues : a.dues = due :: rest) (hdue : due.deadline ≤ current) :
    a.dues.filter (·.deadline ≤ current) = due :: rest.filter (·.deadline ≤ current) ∧
    a.dues.filter (current < ·.deadline) = rest.filter (current < ·.deadline) := by
  rw [hdues]
  exact ⟨List.filter_cons_of_pos (by simpa using hdue),
    List.filter_cons_of_neg (by simpa using hdue)⟩

/-- In order, those due now come before the others. -/
theorem filter_append_filter (h : a.Ordered) (current : Nat) :
    a.dues.filter (·.deadline ≤ current) ++ a.dues.filter (current < ·.deadline) = a.dues := by
  obtain ⟨htake, hdrop⟩ :=
    h.takeWhile_eq (p := fun d => !decide (current < d.deadline)) fun d _ => rfl
  rw [← htake, ← hdrop, List.takeWhile_append_dropWhile]

theorem Served.none_due (h : ∀ due ∈ a.dues, current < due.deadline) :
    Served current a [] 0 a.dues := by
  have hnow : a.dues.filter (·.deadline ≤ current) = [] :=
    List.filter_eq_nil_iff.2 fun due hdue => by simpa using h due hdue
  have hlater : a.dues.filter (current < ·.deadline) = a.dues :=
    List.filter_eq_self.2 fun due hdue => decide_eq_true (h due hdue)
  exact .all [] a.dues hnow.symm hlater.symm

theorem Served.accept (hdues : a.dues = due :: rest) (hdue : due.deadline ≤ current)
    (h : Served current { a with dues := rest } offers count dues) :
    Served current a ((due.item, .started) :: offers) (count + 1) dues := by
  obtain ⟨hnow, hafter⟩ := filter_due hdues hdue
  cases h with
  | all accepted _ haccepted hlater =>
    exact .all (due :: accepted) dues (by rw [hnow, haccepted]) (by rw [hafter, hlater])
  | handedBack accepted others later last stage haccepted hlater =>
    exact .handedBack (due :: accepted) others later last stage
      (by rw [hnow, ← haccepted]; rfl) (by rw [hafter, hlater])

/-- When the first due stage is handed back, all others stay. -/
theorem Served.refuse (hrest : Agenda.Ordered { a with dues := rest })
    (hdues : a.dues = due :: rest) (hdue : due.deadline ≤ current) (stage : Stage α) :
    Served current a [(due.item, .handedBack stage)] 0
      (rest.filter (·.deadline ≤ current + 1) ++ ⟨stage, stage.owner, current + 1, a.arrivals⟩ ::
        rest.filter (current + 1 < ·.deadline)) := by
  obtain ⟨hnow, hafter⟩ := filter_due hdues hdue
  have hserved := Served.handedBack [] _ _ due stage hnow.symm hafter.symm
  have hall : rest.filter (·.deadline ≤ current) ++ rest.filter (current < ·.deadline) = rest :=
    filter_append_filter hrest current
  rwa [hall] at hserved

/-- What is due first is what the queue hands out. -/
theorem dequeue_cases (h : Agenda.Follows capacity d.queue a) (hnear : a.Near current) :
    ((∀ due ∈ a.dues, current < due.deadline) ∧ d.queue.dequeue (numberOf current) = none) ∨
    ∃ due rest q, a.dues = due :: rest ∧ due.deadline ≤ current ∧
      d.queue.dequeue (numberOf current) = some (due.item, q) ∧
      Agenda.Follows capacity q { a with dues := rest } := by
  obtain ⟨hreply, hfollows⟩ := h.dequeue current hnear.dequeue
  have hpairwise := h.ordered.pairwise
  rw [Agenda.performOn, Agenda.perform] at hreply hfollows
  cases hdues : a.dues with
  | nil =>
    cases hdequeue : d.queue.dequeue (numberOf current) with
    | none => exact .inl ⟨List.forall_mem_nil _, rfl⟩
    | some next => simp [hdequeue, hdues] at hreply
  | cons due rest =>
    rw [hdues] at hpairwise
    by_cases hdue : due.deadline ≤ current
    · cases hdequeue : d.queue.dequeue (numberOf current) with
      | none => simp [hdequeue, hdues, hdue] at hreply
      | some next =>
        obtain ⟨stage, q⟩ := next
        simp only [hdequeue, hdues, if_pos hdue, Agenda.Reply.taken.injEq, Option.some.injEq]
          at hreply hfollows
        exact .inr ⟨due, rest, q, rfl, hdue, by rw [hreply], hfollows⟩
    · cases hdequeue : d.queue.dequeue (numberOf current) with
      | none =>
        refine .inl ⟨List.forall_mem_cons.2 ⟨Nat.lt_of_not_le hdue, fun other hother => ?_⟩, rfl⟩
        have hle := (List.rel_of_pairwise_cons hpairwise hother).le
        omega
      | some next => simp [hdequeue, hdues, hdue] at hreply

/-- The loop serves the agenda: by induction on the number of stages that it may still offer. -/
theorem offerDue_serves (h : Agenda.Follows capacity d.queue a) (hnear : a.Near current)
    (hlimit : a.dues.length ≤ limit) (log : Log α κ) :
    ∃ offers count dues d' memory,
      offerDue (numberOf current) (poll answer) limit d log =
        ((count, d'), ⟨memory, log.offers ++ offers⟩) ∧
      Served current a offers count dues ∧ d'.queue.toList = dues.map Due.entry := by
  induction limit generalizing d a log with
  | zero =>
    have hnil : a.dues = [] := List.eq_nil_of_length_eq_zero (Nat.le_zero.1 hlimit)
    have hnone : Served current a [] 0 a.dues := .none_due (by rw [hnil]; nofun)
    exact ⟨[], 0, a.dues, d, log.memory, by rw [List.append_nil]; rfl, hnone, h.toList_eq⟩
  | succ limit ih =>
    rcases dequeue_cases h hnear with ⟨hlater, hdequeue⟩ | ⟨due, rest, q, hdues, hdue, hdequeue, hq⟩
    · refine ⟨[], 0, a.dues, d, log.memory, ?_, .none_due hlater, h.toList_eq⟩
      rw [offerDue_none hdequeue, List.append_nil]
    · have hlength : rest.length + 1 ≤ limit + 1 := by rwa [hdues, List.length_cons] at hlimit
      have hrest : Agenda.Near { a with dues := rest } current := hnear.tail hdues
      have hanswer : poll answer due.item { d with queue := q } log = _ := poll_apply ..
      rw [offerDue_some hdequeue]
      cases hoffer : (answer log.memory due.item).1 with
      | started =>
        rw [hoffer] at hanswer
        obtain ⟨offers, count, dues, d', memory, hloop, hserved, hlist⟩ :=
          ih (d := { d with queue := q }) hq hrest (Nat.le_of_succ_le_succ hlength)
            ⟨(answer log.memory due.item).2, log.offers ++ [(due.item, .started)]⟩
        refine ⟨(due.item, .started) :: offers, count + 1, dues, d', memory, ?_,
          hserved.accept hdues hdue, hlist⟩
        rw [offerOne_started hanswer, hloop, List.append_assoc, List.singleton_append]
      | handedBack stage =>
        rw [hoffer] at hanswer
        -- the place of the stage that was taken is still free
        have hroom : rest.length < capacity := by
          have hle := h.wellFormed.length_le
          rwa [h.toList_eq, List.length_map, hdues] at hle
        rcases park_agrees (d := { d with queue := q }) hq (hrest.enqueue stage stage.owner) with
          ⟨-, d', hpark, hfollows⟩ | ⟨hfull, -⟩
        · have hnext : add (numberOf current) 1 = numberOf (current + 1) := add_numberOf current 1
          rw [← hnext] at hpark
          have hlist := hfollows.toList_eq
          rw [Agenda.perform, if_pos hroom] at hlist
          exact ⟨_, 0, _, d', _, offerOne_handedBack hanswer hpark,
            .refuse hq.ordered hdues hdue stage, hlist⟩
        · exact absurd hroom (by rw [← hfull]; exact Nat.lt_irrefl _)

end Serving

/-! ### After shutdown -/

/-- A dispatcher that has been closed stays closed. -/
theorem Course.closed {A : Act α → Prop} (h : Course A d d') (hd : d.closed = true) :
    d'.closed = true := by
  induction h with
  | refl d => exact hd
  | trans _ _ ih ih' => exact ih' (ih hd)
  | submit _ h =>
    obtain ⟨stage', -, hpark⟩ := submit_accepted h
    exact (closed_of_park hpark).trans hd
  | @startOfFrame ρ start current hstart hback limit d record ih =>
    have hkeeps : Keeps (·.closed = true) (fun _ => True) (fun _ => True) current start :=
      { take := fun _ _ _ h _ => ⟨trivial, h⟩
        offer := fun stage d record _ h => ⟨ih stage d record h, fun _ _ => trivial⟩
        park := fun _ _ _ _ h _ hpark => (closed_of_park hpark).trans h }
    exact (hkeeps.startOfFrame limit hd record).1
  | flushDevice d owner => exact hd
  | flush d => exact hd
  | shutdown d => rfl

/-! ### What is offered -/

/-- Start of frame offers what is due, and nothing else. Say that stages have always been queued in
time, and that at start of frame the frame now, the next one and all deadlines lie in one window.
Then the parked stages are in the order of their deadlines, those for one frame in the order in
which they were queued. The ones that are due are offered in this order, up to the first one that is
handed back. All others stay where they are, and the one that is handed back goes behind those that
wait for the next frame. Once a dispatcher has been shut down, nothing is offered at any start of
frame, whatever happens in between. -/
theorem startOfFrame_serves :
    (∀ {capacity limit current : Nat} {d : Dispatcher α} {a : Agenda (Stage α)},
      Timely capacity d a → d.closed = false → a.Near current → d.pending ≤ limit →
      ∀ {κ : Type} (answer : κ → Stage α → Offer α × κ) (memory : κ),
        a.dues.Pairwise Due.Precedes ∧ d.queue.toList = a.dues.map Due.entry ∧
        ∃ offers count dues d' memory',
          startOfFrame limit (numberOf current) (poll answer) d ⟨memory, []⟩ =
            ((count, d'), ⟨memory', offers⟩) ∧
          Served current a offers count dues ∧ d'.queue.toList = dues.map Due.entry) ∧
    ∀ {d d' : Dispatcher α}, Course (fun _ => True) d.shutdown.2 d' →
      ∀ {ρ : Type} (start : Taker α ρ) (limit : Nat) (current : UInt16) (record : ρ),
        startOfFrame limit current start d' record = ((0, d'), record) := by
  refine ⟨?serves, ?silent⟩
  case serves =>
    intro capacity limit current d a htimely hopen hnear hlimit κ answer memory
    have hfollows := htimely.follows
    have hlength : a.dues.length ≤ limit := by
      rwa [pending, hfollows.wellFormed.length_eq, hfollows.toList_eq, List.length_map] at hlimit
    obtain ⟨offers, count, dues, d', memory', hloop, hserved, hlist⟩ :=
      offerDue_serves hfollows hnear hlength ⟨memory, []⟩
    refine ⟨hfollows.ordered.pairwise, hfollows.toList_eq, offers, count, dues, d', memory', ?_,
      hserved, hlist⟩
    rw [startOfFrame_eq, hopen]
    exact hloop
  case silent =>
    intro d d' hcourse ρ start limit current record
    have hclosed : d'.closed = true := hcourse.closed rfl
    rw [startOfFrame_eq, hclosed]
    rfl

/-- A stage of a device of its own. -/
def owned (request : Nat) : Stage Nat := ⟨request, ⟨.ofNat request⟩, none, 0⟩

/-- A dispatcher with stages parked for deadlines, those at the end of the list first. -/
def parkedFor (capacity : Nat) : List (Nat × Nat) → Dispatcher Nat
  | [] => { queue := ⟨{ arena := .empty capacity }⟩ }
  | (request, deadline) :: rest =>
    match (parkedFor capacity rest).park (owned request) (numberOf deadline) with
    | .ok (_, d) => d
    | .error _ => parkedFor capacity rest

/-- The agenda of such a dispatcher. -/
def agendaFor (capacity : Nat) : List (Nat × Nat) → Agenda (Stage Nat)
  | [] => {}
  | (request, deadline) :: rest =>
    ((agendaFor capacity rest).perform capacity
      (.enqueue (owned request) (owned request).owner deadline)).2

theorem timely_parkedFor : Timely 4 (parkedFor 4 [(1, 0x3fff), (3, 0x4001), (2, 0x4000)])
    (agendaFor 4 [(1, 0x3fff), (3, 0x4001), (2, 0x4000)]) := by
  have h₀ : Timely 4 (parkedFor 4 []) (agendaFor 4 []) := .new rfl
  have h₁ : Timely 4 (parkedFor 4 [(2, 0x4000)]) (agendaFor 4 [(2, 0x4000)]) :=
    .park h₀ (by decide) rfl
  have h₂ : Timely 4 (parkedFor 4 [(3, 0x4001), (2, 0x4000)])
      (agendaFor 4 [(3, 0x4001), (2, 0x4000)]) := .park h₁ (by decide) rfl
  exact .park h₂ (by decide) rfl

/-- Turn down one request, and accept the others. -/
def allBut (request : Nat) (_ : Unit) (stage : Stage Nat) : Offer Nat × Unit :=
  (if stage.request = request then .handedBack stage else .started, ())

/-- Across the wrap, what was due in the frame before is offered first; the stage for this frame is
handed back, and goes behind the one for the next. -/
theorem startOfFrame_serves_wrapping : ∃ d a, Timely 4 d a ∧ d.closed = false ∧ a.Near 0x4000 ∧
    d.pending ≤ 3 ∧ ∃ d',
      startOfFrame 3 (numberOf 0x4000) (poll (allBut 2)) d ⟨(), []⟩ =
        ((1, d'), ⟨(), [(owned 1, .started), (owned 2, .handedBack (owned 2))]⟩) ∧
      d'.queue.toList = [⟨owned 3, ⟨3⟩, 1⟩, ⟨owned 2, ⟨2⟩, 1⟩] ∧
      (startOfFrame 3 1 (poll (allBut 2)) d.shutdown.2 ⟨(), []⟩).2.offers = [] := by
  obtain ⟨hserves, hsilent⟩ := startOfFrame_serves (α := Nat)
  have hnear : (agendaFor 4 [(1, 0x3fff), (3, 0x4001), (2, 0x4000)]).Near 0x4000 := by decide
  have hpending : (parkedFor 4 [(1, 0x3fff), (3, 0x4001), (2, 0x4000)]).pending ≤ 3 := by decide
  obtain ⟨-, -, offers, count, dues, d', memory, hrun, -, hlist⟩ :=
    hserves timely_parkedFor rfl hnear hpending (allBut 2) ()
  have hsilent' := hsilent (.refl (parkedFor 4 [(1, 0x3fff), (3, 0x4001), (2, 0x4000)]).shutdown.2)
    (poll (allBut 2)) 3 1 ⟨(), []⟩
  cases hrun
  exact ⟨_, _, timely_parkedFor, rfl, hnear, hpending, _, rfl, rfl, by rw [hsilent']⟩

/-- Stages 1, 2 and 3 have been parked one after another, and the first of them has gone with its
device. -/
def crossed : Dispatcher Nat :=
  ((parkedFor 4 [(3, 0x5500), (2, 0x4000), (1, 0x2a00)]).flushDevice ⟨1⟩).2

/-- What is left waits for 0x4000 and 0x5500, less than half the range apart. But when stage 3 was
queued, stage 1 was so far behind that it looked later, and so stage 3 has come first and is offered
before stage 2. -/
theorem late_stage_is_offered_first :
    withCapacity 4 = .ok (parkedFor 4 []) ∧
    (parkedFor 4 []).queueStage (numberOf 0x29ff) (owned 1) =
      .ok (.ok (numberOf 0x2a00, parkedFor 4 [(1, 0x2a00)])) ∧
    (parkedFor 4 [(1, 0x2a00)]).queueStage (numberOf 0x3fff) (owned 2) =
      .ok (.ok (numberOf 0x4000, parkedFor 4 [(2, 0x4000), (1, 0x2a00)])) ∧
    (parkedFor 4 [(2, 0x4000), (1, 0x2a00)]).queueStage (numberOf 0x54ff) (owned 3) =
      .ok (.ok (numberOf 0x5500, parkedFor 4 [(3, 0x5500), (2, 0x4000), (1, 0x2a00)])) ∧
    crossed.closed = false ∧
    crossed.queue.toList =
      [⟨owned 3, ⟨3⟩, numberOf 0x5500⟩, ⟨owned 2, ⟨2⟩, numberOf 0x4000⟩] ∧
    0x5500 < 0x4000 + window ∧
    (startOfFrame 2 (numberOf 0x5500) (poll (allBut 0)) crossed ⟨(), []⟩).2.offers =
      [(owned 3, .started), (owned 2, .started)] :=
  ⟨rfl, rfl, rfl, rfl, rfl, rfl, by decide, rfl⟩

end Frame.Dispatcher

end UsbHost
