import UsbHost.Proofs.Frame.Window
import UsbHost.Proofs.Queue.Deadline

/-!
Agendas. An agenda lists items with the frames they wait for, counted without wrap, the earliest
first and those for one frame in the order in which they came. As long as these frames, and the
frame that an operation is about, lie in one window, a deadline queue that is told frame numbers
does what the agenda does.
-/

namespace UsbHost

/-- An item, the frame it waits for, and how many items have been accepted before it. -/
structure Agenda.Due (α : Type) where
  item : α
  owner : DeviceId
  deadline : Nat
  arrival : Nat
  deriving DecidableEq

/-- What a deadline queue is to do, told with frames that do not wrap. -/
structure Agenda (α : Type) where
  dues : List (Agenda.Due α) := []
  /-- Items accepted so far. -/
  arrivals : Nat := 0
  deriving DecidableEq

namespace Agenda

variable {α : Type}

inductive Operation (α : Type)
  | enqueue (item : α) (owner : DeviceId) (deadline : Nat)
  | dequeue (time : Nat)
  | flushOwner (owner : DeviceId)
  | flush

inductive Reply (α : Type)
  | queued
  | refused (item : α)
  | taken (item : Option α)
  | dropped (count : Nat)
  deriving DecidableEq

/-- The earlier deadline comes first, and the earlier arrival within one deadline. -/
def Due.Precedes (d d' : Due α) : Prop :=
  d.deadline < d'.deadline ∨ d.deadline = d'.deadline ∧ d.arrival < d'.arrival

/-- The dues are in order, and each has come at its own time. -/
structure Ordered (a : Agenda α) : Prop where
  pairwise : a.dues.Pairwise Due.Precedes
  arrival_lt : ∀ d ∈ a.dues, d.arrival < a.arrivals

/-- What the queue knows of a due. -/
def Due.entry (d : Due α) : DeadlineQueue.Entry α := ⟨d.item, d.owner, Frame.numberOf d.deadline⟩

/-- What an operation does to an agenda with room for `capacity` items. -/
def perform (capacity : Nat) (a : Agenda α) : Operation α → Reply α × Agenda α
  | .enqueue item owner deadline =>
    if a.dues.length < capacity then
      (.queued, {
        dues := a.dues.filter (·.deadline ≤ deadline) ++
          ⟨item, owner, deadline, a.arrivals⟩ :: a.dues.filter (deadline < ·.deadline)
        arrivals := a.arrivals + 1 })
    else
      (.refused item, a)
  | .dequeue time =>
    match a.dues with
    | [] => (.taken none, a)
    | d :: rest =>
      if d.deadline ≤ time then (.taken (some d.item), { a with dues := rest }) else
        (.taken none, a)
  | .flushOwner owner =>
    (.dropped (a.dues.countP (·.owner == owner)),
      { a with dues := a.dues.filter fun d => !(d.owner == owner) })
  | .flush => (.dropped a.dues.length, { a with dues := [] })

/-- What an operation does to a deadline queue, which is told frame numbers. -/
def performOn (q : DeadlineQueue α) : Operation α → Reply α × DeadlineQueue α
  | .enqueue item owner deadline =>
    match q.enqueue item owner (Frame.numberOf deadline) with
    | .ok q => (.queued, q)
    | .error item => (.refused item, q)
  | .dequeue time =>
    match q.dequeue (Frame.numberOf time) with
    | some (item, q) => (.taken (some item), q)
    | none => (.taken none, q)
  | .flushOwner owner => let (count, q) := q.flushOwner owner; (.dropped count, q)
  | .flush => let (count, q) := q.flush; (.dropped count, q)

/-- Perform operations one after another, and collect the replies. -/
def play {σ : Type} (perform : σ → Operation α → Reply α × σ) (s : σ) :
    List (Operation α) → List (Reply α) × σ
  | [] => ([], s)
  | op :: ops =>
    let (reply, s) := perform s op
    let (replies, s) := play perform s ops
    (reply :: replies, s)

/-- The frame that an operation is about. -/
def Operation.instants : Operation α → List Nat
  | .enqueue _ _ deadline => [deadline]
  | .dequeue time => [time]
  | .flushOwner _ | .flush => []

/-- All deadlines, together with the frame that the operation is about, lie in one window. -/
def Fits (a : Agenda α) (op : Operation α) : Prop :=
  ∀ x ∈ op.instants ++ a.dues.map Due.deadline, ∀ y ∈ op.instants ++ a.dues.map Due.deadline,
    x ≤ y + Frame.window

/-- The same holds of every operation when its turn comes. -/
def FitsAll (capacity : Nat) : Agenda α → List (Operation α) → Prop
  | _, [] => True
  | a, op :: ops => a.Fits op ∧ FitsAll capacity (a.perform capacity op).2 ops

instance (a : Agenda α) (op : Operation α) : Decidable (a.Fits op) :=
  inferInstanceAs (Decidable (∀ x ∈ _, _))

instance decidableFitsAll (capacity : Nat) :
    (a : Agenda α) → (ops : List (Operation α)) → Decidable (FitsAll capacity a ops)
  | _, [] => .isTrue trivial
  | a, op :: ops =>
    have := decidableFitsAll capacity (a.perform capacity op).2 ops
    inferInstanceAs (Decidable (a.Fits op ∧ FitsAll capacity (a.perform capacity op).2 ops))

/-! ### Agendas keep their order -/

variable {a : Agenda α} {capacity : Nat}

theorem Due.Precedes.le {d d' : Due α} (h : d.Precedes d') : d.deadline ≤ d'.deadline := by
  rcases h with h | h <;> omega

theorem Ordered.perform (h : a.Ordered) (capacity : Nat) (op : Operation α) :
    (a.perform capacity op).2.Ordered := by
  cases op with
  | enqueue item owner deadline =>
    simp only [Agenda.perform]
    split
    case isFalse => exact h
    case isTrue =>
      constructor
      · refine List.pairwise_append.2 ⟨h.pairwise.filter _,
          List.pairwise_cons.2 ⟨fun d hd => ?_, h.pairwise.filter _⟩, fun d hd d' hd' => ?_⟩
        · exact .inl (of_decide_eq_true (List.mem_filter.1 hd).2)
        · obtain ⟨hmem, hd⟩ := List.mem_filter.1 hd
          have hle : d.deadline ≤ deadline := of_decide_eq_true hd
          rcases List.mem_cons.1 hd' with rfl | hd'
          · exact (Nat.lt_or_eq_of_le hle).imp_right fun heq => ⟨heq, h.arrival_lt d hmem⟩
          · exact .inl (Nat.lt_of_le_of_lt hle (of_decide_eq_true (List.mem_filter.1 hd').2))
      · intro d hd
        rw [List.mem_append, List.mem_cons, List.mem_filter, List.mem_filter] at hd
        rcases hd with ⟨hmem, -⟩ | rfl | ⟨hmem, -⟩
        · exact Nat.lt_succ_of_lt (h.arrival_lt d hmem)
        · exact Nat.lt_succ_self _
        · exact Nat.lt_succ_of_lt (h.arrival_lt d hmem)
  | dequeue time =>
    simp only [Agenda.perform]
    split
    · exact h
    · rename_i d rest hdues
      split
      · have hpairwise := h.pairwise
        rw [hdues] at hpairwise
        refine ⟨(List.pairwise_cons.1 hpairwise).2, fun d' hd' => h.arrival_lt d' ?_⟩
        rw [hdues]
        exact List.mem_cons_of_mem d hd'
      · exact h
  | flushOwner owner =>
    exact ⟨h.pairwise.filter _, fun d hd => h.arrival_lt d (List.mem_filter.1 hd).1⟩
  | flush => exact ⟨.nil, nofun⟩

/-- In a list where `p` holds up to some place, what satisfies `p` comes before what does not. -/
theorem takeWhile_eq_filter {β : Type} {p : β → Bool} {l : List β}
    (h : l.Pairwise fun x y => p y = true → p x = true) :
    l.takeWhile p = l.filter p ∧ l.dropWhile p = l.filter fun x => !p x := by
  induction l with
  | nil => exact ⟨rfl, rfl⟩
  | cons x l ih =>
    obtain ⟨hx, hl⟩ := List.pairwise_cons.1 h
    cases hp : p x with
    | true =>
      rw [List.takeWhile_cons_of_pos hp, List.filter_cons_of_pos hp, List.dropWhile_cons_of_pos hp,
        List.filter_cons_of_neg (by simp [hp])]
      exact ⟨congrArg _ (ih hl).1, (ih hl).2⟩
    | false =>
      have hnone : ∀ y ∈ x :: l, p y = false := by
        refine List.forall_mem_cons.2 ⟨hp, fun y hy => Bool.eq_false_iff.2 fun hpy => ?_⟩
        rw [hx y hy hpy] at hp
        cases hp
      rw [List.takeWhile_cons_of_neg (by simp [hp]), List.dropWhile_cons_of_neg (by simp [hp])]
      refine ⟨(List.filter_eq_nil_iff.2 fun y hy => ?_).symm,
        (List.filter_eq_self.2 fun y hy => ?_).symm⟩
      · rw [hnone y hy]
        exact Bool.false_ne_true
      · rw [hnone y hy]
        rfl

/-- What tells the deadlines up to some frame from the later ones tells where a due for this frame
belongs. -/
theorem Ordered.takeWhile_eq (h : a.Ordered) {deadline : Nat} {p : Due α → Bool}
    (hp : ∀ d ∈ a.dues, p d = !decide (deadline < d.deadline)) :
    a.dues.takeWhile p = a.dues.filter (·.deadline ≤ deadline) ∧
    a.dues.dropWhile p = a.dues.filter (deadline < ·.deadline) := by
  have hup : a.dues.Pairwise fun d d' => p d' = true → p d = true := by
    refine h.pairwise.imp_of_mem fun {d d'} hd hd' hprecedes hp' => ?_
    have hle := hprecedes.le
    rw [hp d' hd', Bool.not_eq_true', decide_eq_false_iff_not] at hp'
    rw [hp d hd, Bool.not_eq_true', decide_eq_false_iff_not]
    omega
  obtain ⟨htake, hdrop⟩ := takeWhile_eq_filter hup
  refine ⟨htake.trans (List.filter_congr fun d hd => ?_),
    hdrop.trans (List.filter_congr fun d hd => ?_)⟩
  · rw [hp d hd, Bool.eq_iff_iff, Bool.not_eq_true', decide_eq_false_iff_not, decide_eq_true_iff]
    exact Nat.not_lt
  · rw [hp d hd, Bool.not_not]

/-! ### Queues follow agendas -/

/-- The queue holds what is on the agenda. -/
structure Follows (capacity : Nat) (q : DeadlineQueue α) (a : Agenda α) : Prop where
  wellFormed : q.WellFormed capacity
  toList_eq : q.toList = a.dues.map Due.entry
  ordered : a.Ordered

variable {q : DeadlineQueue α} {op : Operation α}

/-- Within the window, the numbers of the frames tell which one is later. -/
theorem Fits.isLater_eq (h : a.Fits op) {frame : Nat} (hframe : frame ∈ op.instants) {d : Due α}
    (hd : d ∈ a.dues) :
    Frame.isLater d.entry.frame (Frame.numberOf frame) = decide (frame < d.deadline) := by
  have hdeadline : d.deadline ∈ op.instants ++ a.dues.map Due.deadline :=
    List.mem_append_right _ (List.mem_map_of_mem hd)
  have hframe' : frame ∈ op.instants ++ a.dues.map Due.deadline := List.mem_append_left _ hframe
  exact Frame.isLater_numberOf (h _ hdeadline _ hframe') (h _ hframe' _ hdeadline)

/-- The queue and the agenda give the same reply, and the queue goes on to hold what is on the
agenda. -/
structure Agrees (capacity : Nat) (x : Reply α × DeadlineQueue α) (y : Reply α × Agenda α) :
    Prop where
  reply_eq : x.1 = y.1
  follows : Follows capacity x.2 y.2

theorem Follows.enqueue (h : Follows capacity q a) (item : α) (owner : DeviceId) (deadline : Nat)
    (hfits : a.Fits (.enqueue item owner deadline)) :
    Agrees capacity (performOn q (.enqueue item owner deadline))
      (a.perform capacity (.enqueue item owner deadline)) := by
  have hordered := h.ordered.perform capacity (.enqueue item owner deadline)
  have hlength : q.toList.length = a.dues.length := by rw [h.toList_eq, List.length_map]
  rcases h.wellFormed.enqueue_cases item owner (Frame.numberOf deadline) with
    ⟨hlt, q', henqueue, hwf, hlist⟩ | ⟨hfull, henqueue⟩
  · rw [hlength] at hlt
    obtain ⟨htake, hdrop⟩ := h.ordered.takeWhile_eq fun d hd =>
      congrArg (! ·) (hfits.isLater_eq (List.mem_singleton_self _) hd)
    rw [h.toList_eq, List.takeWhile_map, List.dropWhile_map] at hlist
    rw [Agenda.perform, if_pos hlt] at hordered ⊢
    rw [performOn, henqueue]
    refine ⟨rfl, hwf, ?_, hordered⟩
    rw [hlist, List.map_append, List.map_cons, ← htake, ← hdrop]
    rfl
  · rw [hlength] at hfull
    rw [Agenda.perform, if_neg (by omega), performOn, henqueue]
    exact ⟨rfl, h⟩

theorem Follows.dequeue (h : Follows capacity q a) (time : Nat) (hfits : a.Fits (.dequeue time)) :
    Agrees capacity (performOn q (.dequeue time)) (a.perform capacity (.dequeue time)) := by
  have hordered := h.ordered.perform capacity (.dequeue time)
  rw [Agenda.perform] at hordered ⊢
  rw [performOn]
  cases hdues : a.dues with
  | nil =>
    have hnone : q.dequeue (Frame.numberOf time) = none :=
      h.wellFormed.dequeue_none (by simp [h.toList_eq, hdues])
    rw [hnone]
    exact ⟨rfl, h⟩
  | cons d rest =>
    have hlater := hfits.isLater_eq (List.mem_singleton_self _) (hdues ▸ List.mem_cons_self)
    have hlist := h.toList_eq
    rw [hdues, List.map_cons] at hlist
    rw [hdues] at hordered
    by_cases hdue : d.deadline ≤ time
    · rw [decide_eq_false (Nat.not_lt.2 hdue)] at hlater
      obtain ⟨q', hdequeue, hwf, hrest⟩ := h.wellFormed.dequeue_cons hlist hlater
      simp only [if_pos hdue] at hordered ⊢
      rw [hdequeue]
      exact ⟨rfl, hwf, hrest, hordered⟩
    · rw [decide_eq_true (Nat.lt_of_not_le hdue)] at hlater
      have hnone : q.dequeue (Frame.numberOf time) = none :=
        h.wellFormed.dequeue_none (by simp [hlist, hlater])
      simp only [if_neg hdue]
      rw [hnone]
      exact ⟨rfl, h⟩

theorem Follows.flushOwner (h : Follows capacity q a) (owner : DeviceId) :
    Agrees capacity (performOn q (.flushOwner owner)) (a.perform capacity (.flushOwner owner)) := by
  have hordered := h.ordered.perform capacity (.flushOwner owner)
  obtain ⟨hcount, hwf, hlist⟩ := h.wellFormed.dropWhere fun entry => entry.owner == owner
  rw [h.toList_eq] at hcount hlist
  refine ⟨congrArg Reply.dropped ?_, hwf, ?_, hordered⟩
  · exact hcount.trans (List.countP_map ..)
  · exact hlist.trans (List.filter_map ..)

theorem Follows.flush (h : Follows capacity q a) :
    Agrees capacity (performOn q .flush) (a.perform capacity .flush) := by
  have hordered := h.ordered.perform capacity .flush
  obtain ⟨hcount, hwf, hlist⟩ := h.wellFormed.dropWhere fun _ => true
  rw [h.toList_eq] at hcount hlist
  refine ⟨congrArg Reply.dropped ?_, hwf, ?_, hordered⟩
  · exact hcount.trans (by simp)
  · exact hlist.trans (by simp [Agenda.perform])

theorem Follows.perform (h : Follows capacity q a) (hfits : a.Fits op) :
    Agrees capacity (performOn q op) (a.perform capacity op) := by
  cases op with
  | enqueue item owner deadline => exact h.enqueue item owner deadline hfits
  | dequeue time => exact h.dequeue time hfits
  | flushOwner owner => exact h.flushOwner owner
  | flush => exact h.flush

theorem Follows.play (h : Follows capacity q a) {ops : List (Operation α)}
    (hfits : FitsAll capacity a ops) :
    (Agenda.play performOn q ops).1 = (Agenda.play (Agenda.perform capacity) a ops).1 ∧
    Follows capacity (Agenda.play performOn q ops).2
      (Agenda.play (Agenda.perform capacity) a ops).2 := by
  induction ops generalizing q a with
  | nil => exact ⟨rfl, h⟩
  | cons op ops ih =>
    obtain ⟨hreply, hfollows⟩ := h.perform hfits.1
    obtain ⟨hreplies, hlast⟩ := ih hfollows hfits.2
    exact ⟨congrArg₂ List.cons hreply hreplies, hlast⟩

/-- A deadline queue is a stable queue ordered by deadlines. Whatever is done to a new queue, as
long as the frames lie in one window at each operation, the replies are those of the agenda, the
queue holds what is on the agenda, and this is in order. -/
theorem queue_follows_agenda {q : DeadlineQueue α}
    (hq : DeadlineQueue.withCapacity capacity = .ok q) (ops : List (Operation α))
    (hfits : FitsAll capacity {} ops) :
    ∃ replies q' a', play performOn q ops = (replies, q') ∧
      play (perform capacity) {} ops = (replies, a') ∧
      q'.toList = a'.dues.map Due.entry ∧ a'.dues.Pairwise Due.Precedes := by
  obtain ⟨hwf, hnil⟩ := DeadlineQueue.withCapacity_ok hq
  have hfollows : Follows capacity q {} := ⟨hwf, hnil, .nil, nofun⟩
  obtain ⟨hreplies, hlast⟩ := hfollows.play hfits
  exact ⟨_, _, _, rfl, Prod.ext hreplies.symm rfl, hlast.toList_eq, hlast.ordered.pairwise⟩

/-- Items around the wrap of the frame counter, on a queue with room for three. -/
def wrapping : List (Operation String) :=
  [.enqueue "after" ⟨1⟩ 0x4003, .enqueue "before" ⟨2⟩ 0x3ffd, .enqueue "same" ⟨2⟩ 0x4003,
   .enqueue "more" ⟨1⟩ 0x4000, .dequeue 0x3ffe, .dequeue 0x3fff, .enqueue "first" ⟨1⟩ 0x4000,
   .flushOwner ⟨2⟩, .dequeue 0x4003, .dequeue 0x4003, .dequeue 0x4003]

theorem queue_follows_wrapping : ∃ q, DeadlineQueue.withCapacity 3 = .ok q ∧
    (play performOn q wrapping).1 =
      [.queued, .queued, .queued, .refused "more", .taken (some "before"), .taken none, .queued,
       .dropped 1, .taken (some "first"), .taken (some "after"), .taken none] := by
  obtain ⟨replies, q', a', hqueue, hagenda, -, -⟩ :=
    queue_follows_agenda (rfl : DeadlineQueue.withCapacity 3 = .ok _) wrapping (by decide)
  exact ⟨_, rfl, (congrArg Prod.fst hqueue).trans (congrArg Prod.fst hagenda).symm⟩

end Agenda

end UsbHost
