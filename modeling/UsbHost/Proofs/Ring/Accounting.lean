import UsbHost.Proofs.Ring.Laps
import UsbHost.Proofs.Ring.Pending
import UsbHost.Ring.Basic

/-!
The accounts of a producer ring. A ring counts nothing: how many TRBs are outstanding, where the
next one goes and which one is the oldest are all read off two indices, and whether an address may
be released off a remainder. Here a ring is followed together with its books, in which every
accepted TRB is entered with the address it was put at, and every released one is counted. Whatever
is done to the ring, the two agree.
-/

namespace UsbHost.ProducerRing

variable {r r' : ProducerRing}

/-! ### The Link TRB -/

/-- A Link TRB that toggles the cycle state goes on doing so. -/
theorem accept_toggles (hr : r.WellFormed)
    (htoggles : (r.trbAt r.capacity).flags.contains .toggleCycle = true) (t : Trb) :
    ((r.accept t).trbAt r.capacity).flags.contains .toggleCycle = true := by
  rw [link_accept hr]
  split_ifs
  · simp [htoggles]
  · exact htoggles

/-! ### Releasing through an address -/

/-- Releasing one TRB at a time, until the one at `index` has been released, comes to an end after
`count` of them. -/
inductive Unwinds (index : Nat) : ProducerRing → Nat → ProducerRing → Prop
  | last {r r' : ProducerRing} {address : UInt64} (hindex : r.dequeueIndex = index)
      (hrelease : r.releaseOne = .ok (address, r')) : Unwinds index r 1 r'
  | next {r r₁ r' : ProducerRing} {address : UInt64} {count : Nat}
      (hindex : r.dequeueIndex ≠ index) (hrelease : r.releaseOne = .ok (address, r₁))
      (hrest : Unwinds index r₁ count r') : Unwinds index r (count + 1) r'

/-- The TRB `n` places behind the oldest one is reached. -/
theorem unwinds_place (hr : r.WellFormed) {n : Nat} (hn : n < r.outstanding) :
    Unwinds ((r.dequeueIndex + n) % r.capacity) r (n + 1) (r.drop (n + 1)) := by
  have hout := outstanding_lt hr
  induction n generalizing r with
  | zero =>
    refine .last ?_ (releaseOne_eq hr hn)
    rw [Nat.add_zero, Nat.mod_eq_of_lt hr.dequeue_lt]
  | succ n ih =>
    -- The oldest TRB is another one: less than a turn lies between the two.
    have hne : r.dequeueIndex ≠ (r.dequeueIndex + (n + 1)) % r.capacity := by
      have hplace := Ring.place_ne (n := r.capacity) (j := r.dequeueIndex)
        (k := r.dequeueIndex + (n + 1)) (by omega) (by omega)
      rw [Nat.mod_eq_of_lt hr.dequeue_lt] at hplace
      exact hplace.symm
    have hone : 0 < r.outstanding := by omega
    have hleft : (r.drop 1).outstanding = r.outstanding - 1 := outstanding_drop hr hone
    have hrest := ih (hr.drop 1) (by omega) (by simp only [capacity_drop]; omega)
    have hplace : ((r.drop 1).dequeueIndex + n) % (r.drop 1).capacity =
        (r.dequeueIndex + (n + 1)) % r.capacity := by
      simp [Nat.add_assoc, Nat.add_comm 1 n]
    rw [hplace, drop_drop, Nat.add_comm 1 (n + 1)] at hrest
    exact .next hne (releaseOne_eq hr hone) hrest

/-- An address that no outstanding TRB lies at releases nothing. -/
theorem releaseThrough_elsewhere (hr : r.WellFormed) {x : UInt64}
    (hx : ∀ n < r.outstanding, x ≠ r.addressAt ((r.dequeueIndex + n) % r.capacity)) :
    r.releaseThrough x = .ok (0, r) := by
  unfold releaseThrough
  cases hindex : r.indexOf? x with
  | none => rfl
  | some index =>
    obtain ⟨-, rfl⟩ := eq_addressAt hr hindex
    have hvacant : r.isOutstanding index = false := by
      rw [Bool.eq_false_iff]
      intro hout
      rw [isOutstanding, Bool.and_eq_true, decide_eq_true_eq, decide_eq_true_eq] at hout
      obtain ⟨hlt, hdistance⟩ := hout
      apply hx _ hdistance
      rw [place_distance hr hlt]
    simp only [hvacant, Bool.false_eq_true, if_false]
    rfl

/-! ### Books -/

/-- A TRB that a ring has accepted, as it was written, and the address it was put at. -/
structure Entry where
  address : UInt64
  trb : Trb

end ProducerRing

/-- A producer ring and its books. -/
structure Account where
  ring : ProducerRing
  /-- What the ring has accepted, oldest first. -/
  accepted : List ProducerRing.Entry := []
  /-- How many TRBs have been released. -/
  released : Nat := 0

namespace Account

open ProducerRing

/-- What is done to the ring. -/
inductive Move
  | enqueue (t : Trb)
  /-- Release the oldest outstanding TRB, if the books show one. -/
  | release
  | releaseThrough (address : UInt64)

/-- The account of an unused ring of `count` TRBs. -/
def start (kind : Ring.Kind) (count : Nat) (base : UInt64) : Account where
  ring := .create kind count base

def step (s : Account) : Move → Except Fault Account
  | .enqueue t => do
    match ← s.ring.enqueue t with
    | none => return s
    | some (address, ring) =>
      return { s with
        ring := ring
        accepted := s.accepted ++ [⟨address, t.withCycle s.ring.cycle⟩] }
  | .release =>
    if s.released < s.accepted.length then do
      let (_, ring) ← s.ring.releaseOne
      return { s with ring := ring, released := s.released + 1 }
    else
      .ok s
  | .releaseThrough address => do
    let (count, ring) ← s.ring.releaseThrough address
    return { s with ring := ring, released := s.released + count }

def run (s : Account) : List Move → Except Fault Account
  | [] => .ok s
  | move :: moves => do (← s.step move).run moves

/-- Ring and books agree. -/
structure Kept (count : Nat) (s : Account) : Prop where
  wellFormed : s.ring.WellFormed
  capacity_eq : s.ring.capacity = count - 1
  accepted_eq : s.accepted.length = s.released + s.ring.outstanding
  enqueueIndex_eq : s.ring.enqueueIndex = s.accepted.length % s.ring.capacity
  dequeueIndex_eq : s.ring.dequeueIndex = s.released % s.ring.capacity
  toggles : (s.ring.trbAt s.ring.capacity).flags.contains .toggleCycle = true
  cycle_eq : s.ring.cycle = Ring.lapCycle (s.accepted.length / s.ring.capacity)
  address_eq : ∀ (k : Nat) (entry : Entry), s.accepted[k]? = some entry →
    entry.address = s.ring.addressAt (k % s.ring.capacity)
  /-- What has not been released is still in memory. -/
  trbAt_eq : ∀ (k : Nat) (entry : Entry), s.released ≤ k → s.accepted[k]? = some entry →
    s.ring.trbAt (k % s.ring.capacity) = entry.trb

variable {s : Account} {count : Nat}

theorem kept_start (kind : Ring.Kind) {base : UInt64} (hcount : 3 ≤ count)
    (hfits : Ring.Fits base count) : (start kind count base).Kept count := by
  have hr := wellFormed_create kind hcount hfits
  have hcapacity : (create kind count base).capacity = count - 1 := by simp [create, capacity]
  constructor
  case wellFormed => exact hr
  case capacity_eq => exact hcapacity
  case accepted_eq =>
    show 0 = 0 + (create kind count base).outstanding
    rw [outstanding_eq hr]
    simp [create]
  case enqueueIndex_eq => simp [start, create]
  case dequeueIndex_eq => simp [start, create]
  case toggles =>
    show ((create kind count base).trbAt (create kind count base).capacity).flags.contains _ = true
    rw [trbAt_create kind base (by omega), if_pos hcapacity, Trb.contains_toggleCycle_link]
  case cycle_eq => simp [start, create, Ring.lapCycle]
  case address_eq => simp [start]
  case trbAt_eq => simp [start]

/-! ### What a move preserves -/

theorem Kept.accept (h : s.Kept count) (hfull : s.ring.isFull = false) (t : Trb) :
    Kept count { s with
      ring := s.ring.accept t
      accepted := s.accepted ++
        [⟨s.ring.addressAt s.ring.enqueueIndex, t.withCycle s.ring.cycle⟩] } := by
  have hr := h.wellFormed
  have hcycle := cycle_accept hr h.toggles t
  have hout := outstanding_lt hr
  have hcount := h.accepted_eq
  have hroom : s.ring.outstanding < s.ring.capacity - 1 := by
    have hne := mt (isFull_iff hr).2 (by simp [hfull])
    omega
  have hlap := Ring.succ_place (Nat.zero_lt_of_lt hout) s.accepted.length
  constructor
  case wellFormed => exact hr.accept t
  case capacity_eq => simpa using h.capacity_eq
  case accepted_eq => simp [outstanding_accept hr hroom, h.accepted_eq, Nat.add_assoc]
  case enqueueIndex_eq => simp [hr, next, h.enqueueIndex_eq]
  case dequeueIndex_eq => simp [h.dequeueIndex_eq]
  case toggles => simpa using accept_toggles hr h.toggles t
  case cycle_eq =>
    simp only [hcycle, capacity_accept, List.length_append, List.length_singleton,
      h.enqueueIndex_eq, h.cycle_eq]
    rcases hlap with ⟨hend, -, hdiv⟩ | ⟨hend, -, hdiv⟩
    · simp [hend, hdiv]
    · rw [if_neg hend, hdiv]
  case address_eq =>
    intro k entry hk
    simp only [capacity_accept, addressAt_accept]
    rcases Ring.getElem?_concat_cases hk with hold | ⟨rfl, rfl⟩
    · exact h.address_eq k entry hold
    · rw [h.enqueueIndex_eq]
  case trbAt_eq =>
    intro k entry hk hget
    rw [capacity_accept, trbAt_accept hr t (Nat.mod_lt _ (by omega)), h.enqueueIndex_eq]
    rcases Ring.getElem?_concat_cases hget with hold | ⟨rfl, rfl⟩
    · have hlt := (List.getElem?_eq_some_iff.1 hold).1
      have hne : s.accepted.length % s.ring.capacity ≠ k % s.ring.capacity :=
        Ring.place_ne hlt (by have hk : s.released ≤ k := hk; omega)
      rw [if_neg hne.symm]
      exact h.trbAt_eq k entry hk hold
    · rw [if_pos rfl]

theorem Kept.drop (h : s.Kept count) {n : Nat} (hn : n ≤ s.ring.outstanding) :
    Kept count { s with ring := s.ring.drop n, released := s.released + n } where
  wellFormed := h.wellFormed.drop n
  capacity_eq := h.capacity_eq
  accepted_eq := by
    have hcount := h.accepted_eq
    simp only [outstanding_drop h.wellFormed hn]
    omega
  enqueueIndex_eq := h.enqueueIndex_eq
  dequeueIndex_eq := by simp [h.dequeueIndex_eq]
  toggles := h.toggles
  cycle_eq := h.cycle_eq
  address_eq := h.address_eq
  trbAt_eq k entry hk := h.trbAt_eq k entry (Nat.le_trans (Nat.le_add_right _ n) hk)

/-- The outstanding TRBs lie where the books say. -/
theorem Kept.address_of_place (h : s.Kept count) {n : Nat} {entry : Entry}
    (hentry : s.accepted[s.released + n]? = some entry) :
    entry.address = s.ring.addressAt ((s.ring.dequeueIndex + n) % s.ring.capacity) := by
  rw [h.address_eq _ _ hentry, h.dequeueIndex_eq, Nat.mod_add_mod]

theorem Kept.getElem? (h : s.Kept count) {n : Nat} (hn : n < s.ring.outstanding) :
    ∃ entry, s.accepted[s.released + n]? = some entry := by
  have hlt : s.released + n < s.accepted.length := by
    rw [h.accepted_eq]
    omega
  exact ⟨_, List.getElem?_eq_getElem hlt⟩

/-- The address of the TRB `n` places behind the oldest one releases `n + 1` TRBs. -/
theorem Kept.releaseThrough_entry (h : s.Kept count) {n : Nat} {entry : Entry}
    (hentry : s.accepted[s.released + n]? = some entry) :
    n < s.ring.outstanding ∧
      s.ring.releaseThrough entry.address = .ok (n + 1, s.ring.drop (n + 1)) := by
  have hlt := (List.getElem?_eq_some_iff.1 hentry).1
  have hn : n < s.ring.outstanding := by
    have hcount := h.accepted_eq
    omega
  refine ⟨hn, ?_⟩
  have hthrough := releaseThrough_eq h.wellFormed (Nat.succ_pos n) hn
  rw [Nat.add_succ_sub_one, ← h.address_of_place hentry] at hthrough
  exact hthrough

/-- Any other address releases nothing. -/
theorem Kept.releaseThrough_other (h : s.Kept count) {x : UInt64}
    (hx : ∀ entry ∈ s.accepted.drop s.released, x ≠ entry.address) :
    s.ring.releaseThrough x = .ok (0, s.ring) := by
  refine releaseThrough_elsewhere h.wellFormed fun n hn => ?_
  obtain ⟨entry, hentry⟩ := h.getElem? hn
  rw [← h.address_of_place hentry]
  apply hx
  rw [← List.getElem?_drop] at hentry
  exact List.mem_of_getElem? hentry

theorem Kept.step (h : s.Kept count) (move : Move) :
    ∃ s', s.step move = .ok s' ∧ s'.Kept count := by
  have hr := h.wellFormed
  cases move with
  | enqueue t =>
    cases hfull : s.ring.isFull with
    | true => exact ⟨s, by rw [Account.step, enqueue_eq hr, hfull]; rfl, h⟩
    | false =>
      refine ⟨_, ?_, h.accept hfull t⟩
      rw [Account.step, enqueue_eq hr, hfull]
      rfl
  | release =>
    by_cases hsome : s.released < s.accepted.length
    · have hone : 0 < s.ring.outstanding := by
        have hcount := h.accepted_eq
        omega
      refine ⟨_, ?_, h.drop hone⟩
      rw [Account.step, if_pos hsome, releaseOne_eq hr hone]
      rfl
    · exact ⟨s, by rw [Account.step, if_neg hsome], h⟩
  | releaseThrough x =>
    by_cases hx : ∃ n entry, s.accepted[s.released + n]? = some entry ∧ x = entry.address
    · obtain ⟨n, entry, hentry, rfl⟩ := hx
      obtain ⟨hn, hrelease⟩ := h.releaseThrough_entry hentry
      refine ⟨_, ?_, h.drop hn⟩
      rw [Account.step, hrelease]
      rfl
    · refine ⟨s, ?_, h⟩
      have hother : ∀ entry ∈ s.accepted.drop s.released, x ≠ entry.address := by
        intro entry hentry heq
        obtain ⟨n, hn⟩ := List.mem_iff_getElem?.1 hentry
        rw [List.getElem?_drop] at hn
        exact hx ⟨n, entry, hn, heq⟩
      rw [Account.step, h.releaseThrough_other hother]
      rfl

theorem Kept.run (h : s.Kept count) (moves : List Move) :
    ∃ s', s.run moves = .ok s' ∧ s'.Kept count :=
  Fault.exists_of_run (fun _ => rfl) (fun _ _ _ => rfl) (fun _ h move => h.step move) h moves

/-! ### What the ring says -/

/-- All that a ring of `count` TRBs says of itself is what its books show. -/
structure Balanced (count : Nat) (s : Account) : Prop where
  capacity_eq : s.ring.capacity = count - 1
  released_le : s.released ≤ s.accepted.length
  outstanding_eq : s.ring.outstanding = s.accepted.length - s.released
  /-- One TRB always stays free. -/
  freeSlots_eq : s.ring.freeSlots + s.ring.outstanding + 1 = s.ring.capacity
  full_iff_freeSlots : s.ring.isFull = true ↔ s.ring.freeSlots = 0
  full_iff_nextAddress? : s.ring.isFull = true ↔ s.ring.nextAddress? = .ok none
  /-- A full ring takes nothing and stays as it is. -/
  full : s.ring.isFull = true → ∀ t,
    Ring.enqueue t (.producer s.ring) = .ok none (.producer s.ring)
  /-- Any other ring takes a TRB at the address that it has named. -/
  room : s.ring.isFull = false → ∀ t, ∃ address, s.ring.nextAddress? = .ok (some address) ∧
    Ring.enqueue t (.producer s.ring) = .ok (some address) (.producer (s.ring.accept t))
  oldest?_eq : s.ring.oldest? = s.accepted[s.released]?.map Entry.trb
  /-- The cycle state has flipped once in each lap. -/
  cycle_eq : s.ring.cycle = Ring.lapCycle (s.accepted.length / s.ring.capacity)
  /-- The address of an outstanding TRB releases it and those before it, one after the other. -/
  release : ∀ n entry, s.accepted[s.released + n]? = some entry →
    s.ring.releaseThrough entry.address = .ok (n + 1, s.ring.drop (n + 1)) ∧
      (s.ring.drop (n + 1)).outstanding = s.ring.outstanding - (n + 1) ∧
      ∃ index, s.ring.indexOf? entry.address = some index ∧
        Unwinds index s.ring (n + 1) (s.ring.drop (n + 1))
  /-- No other address releases anything. -/
  release_other : ∀ x, (∀ entry ∈ s.accepted.drop s.released, x ≠ entry.address) →
    s.ring.releaseThrough x = .ok (0, s.ring)

theorem Kept.oldest?_eq (h : s.Kept count) :
    s.ring.oldest? = s.accepted[s.released]?.map Entry.trb := by
  have hr := h.wellFormed
  have hcount := h.accepted_eq
  unfold oldest?
  split
  · rename_i hempty
    have hzero : s.ring.outstanding = 0 := by simp [ProducerRing.outstanding_eq hr, hempty]
    rw [List.getElem?_eq_none (by omega)]
    rfl
  · rename_i hsome
    have hpos : 0 < s.ring.outstanding := by
      refine Nat.pos_of_ne_zero fun hzero => ?_
      have hend := ProducerRing.enqueueIndex_eq hr
      rw [hzero, Nat.add_zero, Nat.mod_eq_of_lt hr.dequeue_lt] at hend
      exact hsome hend.symm
    obtain ⟨entry, hentry⟩ := h.getElem? hpos
    rw [Nat.add_zero] at hentry
    rw [hentry, h.dequeueIndex_eq, h.trbAt_eq _ _ (Nat.le_refl _) hentry]
    rfl

theorem Kept.balanced (h : s.Kept count) : s.Balanced count := by
  have hr := h.wellFormed
  have hcount := h.accepted_eq
  have hout := outstanding_lt hr
  have hone := hr.one_lt_capacity
  have haddress := ProducerRing.address_eq hr (Nat.le_of_lt hr.enqueue_lt)
  have hnext (hroom : s.ring.isFull = false) :
      s.ring.nextAddress? = .ok (some (s.ring.addressAt s.ring.enqueueIndex)) := by
    simp [nextAddress?, hroom, haddress, Functor.map, Except.map]
  constructor
  case capacity_eq => exact h.capacity_eq
  case released_le => omega
  case outstanding_eq => omega
  case freeSlots_eq =>
    rw [freeSlots]
    omega
  case full_iff_freeSlots =>
    rw [isFull_iff hr, freeSlots]
    omega
  case full_iff_nextAddress? =>
    cases hfull : s.ring.isFull with
    | true => simp [nextAddress?, hfull]
    | false => simp [hnext hfull]
  case full =>
    intro hfull t
    simp [Ring.enqueue, Ring.onProducer, enqueue_eq hr, hfull, bind, Except.bind, pure, Except.pure]
  case room =>
    intro hroom t
    refine ⟨_, hnext hroom, ?_⟩
    simp [Ring.enqueue, Ring.onProducer, enqueue_eq hr, hroom, bind, Except.bind, pure,
      Except.pure]
  case oldest?_eq => exact h.oldest?_eq
  case cycle_eq => exact h.cycle_eq
  case release =>
    intro n entry hentry
    obtain ⟨hn, hrelease⟩ := h.releaseThrough_entry hentry
    refine ⟨hrelease, outstanding_drop hr hn, _, ?_, unwinds_place hr hn⟩
    rw [h.address_of_place hentry]
    exact indexOf?_addressAt hr (Nat.le_of_lt (Nat.mod_lt _ (by omega)))
  case release_other => exact fun x hx => h.releaseThrough_other hx

/-- Whatever is done to a ring that can be allocated, nothing faults, and all that the ring says of
itself is what its books show. -/
theorem account_balances (kind : Ring.Kind) {count : Nat} {base : UInt64} {layout : Dma.Layout}
    (hlayout : (Ring.layout count).run = .ok (.ok layout)) (hfits : Ring.Fits base count)
    (moves : List Move) : ∃ s, (start kind count base).run moves = .ok s ∧ s.Balanced count := by
  have hcount : Config.minRingSize ≤ count := (Ring.layout_bounds hlayout).1
  have hstart := kept_start kind (Nat.le_trans (by decide) hcount) hfits
  obtain ⟨s, hrun, hs⟩ := hstart.run moves
  exact ⟨s, hrun, hs.balanced⟩

/-- Fill the smallest ring at 0x1000 and try one TRB more, release through the third and two more,
and go on past the end. -/
def lap : List Move :=
  List.replicate 15 (.enqueue .blank) ++ [.releaseThrough 0x1020, .release, .release] ++
    List.replicate 5 (.enqueue .blank)

theorem account_balances_lap :
    (Ring.layout Config.minRingSize).run = .ok (.ok ⟨256, 256⟩) ∧
      Ring.Fits 0x1000 Config.minRingSize ∧
      ∃ s, (start .transfer Config.minRingSize 0x1000).run lap = .ok s ∧
        s.Balanced Config.minRingSize ∧ s.accepted.length = 19 ∧ s.released = 5 := by
  have hfits : Ring.Fits 0x1000 Config.minRingSize := by decide
  refine ⟨Ring.layout_minRingSize, hfits, ?_⟩
  obtain ⟨s, hrun, hs⟩ := account_balances .transfer Ring.layout_minRingSize hfits lap
  refine ⟨s, hrun, hs, ?_⟩
  -- The counts are those of the run itself.
  have hcounts : ((start .transfer Config.minRingSize 0x1000).run lap).map
      (fun s => (s.accepted.length, s.released)) = .ok (19, 5) := by
    rfl
  rw [hrun] at hcounts
  simpa [Except.map] using hcounts

end Account

end UsbHost
