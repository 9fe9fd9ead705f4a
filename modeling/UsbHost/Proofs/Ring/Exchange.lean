import Mathlib.Tactic.SplitIfs
import UsbHost.Proofs.Ring.Laps
import UsbHost.Ring.Cursor

/-!
A producer ring and the controller that reads it. The two share the memory of the ring and
nothing else. Software enqueues TRBs, and releases those that the controller has reported; the
controller moves its cursor as far as the cycle bits let it. Both go round the ring, so what
relates them is counted in laps: the cursor is in the lap of the enqueueing end and not past it,
or in the lap before and past it. In the first case the TRBs before the enqueueing end carry the
cycle bit of the common lap, in the second the TRBs behind it still carry that of the lap before.
-/

namespace UsbHost

/-- A producer ring, the controller's cursor on it, and what has passed between the two. -/
structure Exchange where
  ring : ProducerRing
  cursor : Ring.Cursor
  /-- TRBs that the ring has accepted, oldest first. -/
  accepted : List Trb := []
  /-- TRBs that the cursor has read, oldest first; Link TRBs are left out. -/
  consumed : List Trb := []
  /-- How many TRBs have been released. -/
  released : Nat := 0

namespace Exchange

open ProducerRing

/-- What software or the controller does next. -/
inductive Move
  /-- Enqueue a TRB of a caller; the Link TRB belongs to the ring alone. -/
  | enqueue (t : Trb) (notLink : t.kind? ≠ some .link)
  /-- The controller looks at its position. -/
  | read
  /-- Release one TRB, if the controller has read one that is not released. -/
  | release

/-- An unused ring of `count` TRBs, with the controller at its base. -/
def start (kind : Ring.Kind) (count : Nat) (base : UInt64) : Exchange where
  ring := .create kind count base
  cursor := ⟨base, true⟩

def step (s : Exchange) : Move → Except Fault Exchange
  | .enqueue t _ => do
    match ← s.ring.enqueue t with
    | none => return s
    | some (_, ring) => return { s with ring := ring, accepted := s.accepted ++ [t] }
  | .read =>
    match s.cursor.step? s.ring with
    | none => .ok s
    | some (read, cursor) =>
      .ok { s with cursor := cursor, consumed := s.consumed ++ read.toList }
  | .release =>
    if s.released < s.consumed.length then do
      let (_, ring) ← s.ring.releaseOne
      return { s with ring := ring, released := s.released + 1 }
    else
      .ok s

def run (s : Exchange) : List Move → Except Fault Exchange
  | [] => .ok s
  | move :: moves => do (← s.step move).run moves

/-- TRBs as the two sides compare them: without the cycle bit. -/
def payloads (ts : List Trb) : List Trb := ts.map (·.withCycle false)

@[simp] theorem payloads_append (ts us : List Trb) :
    payloads (ts ++ us) = payloads ts ++ payloads us := List.map_append

/-! ### Where the cursor is -/

/-- The cursor of `s` is in lap `lap` at `place`; the last place of a lap is the Link TRB. -/
structure At (s : Exchange) (lap place : Nat) : Prop where
  place_le : place ≤ s.ring.capacity
  position_eq : s.cursor.position = s.ring.addressAt place
  cycle_eq : s.cursor.cycle = Ring.lapCycle lap
  length_eq : s.consumed.length = lap * s.ring.capacity + place

/-- The two sides agree: the cursor has read the oldest TRBs that were accepted, and only those
that it has read are released. -/
structure Agree (s : Exchange) : Prop where
  holds : ∃ lap, s.ring.Holds s.accepted lap
  cursor_at : ∃ lap place, s.At lap place
  consumed_le : s.consumed.length ≤ s.accepted.length
  payloads_eq : payloads s.consumed = payloads (s.accepted.take s.consumed.length)
  released_le : s.released ≤ s.consumed.length
  accepted_eq : s.accepted.length = s.released + s.ring.outstanding

variable {s : Exchange} {lap place : Nat}

/-- The cursor is in the lap of the enqueueing end and not past it, or one lap behind and past it:
it neither overtakes nor is lapped. -/
theorem Agree.laps (h : s.Agree) {last : Nat} (hholds : s.ring.Holds s.accepted last)
    (hat : s.At lap place) :
    last = lap ∧ place ≤ s.ring.enqueueIndex ∨ last = lap + 1 ∧ s.ring.enqueueIndex < place := by
  have hconsumed := hat.length_eq
  have haccepted := hholds.length_eq
  have hplace := hat.place_le
  have hend := hholds.wellFormed.enqueue_lt
  have hroom := outstanding_lt hholds.wellFormed
  have hle := h.consumed_le
  have hreleased := h.released_le
  have hcount := h.accepted_eq
  rcases Nat.lt_trichotomy last lap with hlt | rfl | hgt
  -- A cursor in a later lap would have read more than was accepted.
  · have := Nat.mul_le_mul_right s.ring.capacity (Nat.succ_le_of_lt hlt)
    rw [Nat.succ_mul] at this
    omega
  · omega
  · rcases Nat.eq_or_lt_of_le (Nat.succ_le_of_lt hgt) with rfl | hfar
    · rw [Nat.succ_mul] at haccepted
      omega
    -- With more than a lap between them, more TRBs would be outstanding than fit on the ring.
    · have := Nat.mul_le_mul_right s.ring.capacity (Nat.succ_le_of_lt hfar)
      rw [Nat.succ_mul, Nat.succ_mul] at this
      omega

/-- The cursor sees the TRB at its place exactly if that carries the cycle bit of its lap. -/
theorem At.fetch_eq (hr : s.ring.WellFormed) (hat : s.At lap place) :
    s.cursor.fetch? s.ring =
      if (s.ring.trbAt place).cycle = Ring.lapCycle lap then some (s.ring.trbAt place)
      else none := by
  rw [Ring.Cursor.fetch?, hat.position_eq, indexOf?_addressAt hr hat.place_le, hat.cycle_eq]
  exact guard_bind _ fun _ => some _

/-- A cursor that has read every TRB finds nothing fresh, unless it is at the Link TRB. -/
theorem Agree.fetch_nothing (h : s.Agree) (hat : s.At lap place)
    (hplace : place < s.ring.capacity) (hall : s.consumed.length = s.accepted.length) :
    s.cursor.fetch? s.ring = none := by
  obtain ⟨last, hholds⟩ := h.holds
  have hlaps := h.laps hholds hat
  have hconsumed := hat.length_eq
  have haccepted := hholds.length_eq
  have hend := hholds.wellFormed.enqueue_lt
  obtain ⟨rfl, hend⟩ : last = lap ∧ place = s.ring.enqueueIndex := by
    rcases hlaps with ⟨rfl, _⟩ | ⟨rfl, _⟩
    · omega
    · rw [Nat.succ_mul] at haccepted
      omega
  have hstale := hholds.stale place hplace (Nat.le_of_eq hend.symm)
  rw [hat.fetch_eq hholds.wellFormed, hstale, hholds.cycle_eq, if_neg (by simp)]

/-- A cursor that is behind finds the next accepted TRB, unless it is at the Link TRB. -/
theorem Agree.fetch_next (h : s.Agree) (hat : s.At lap place)
    (hplace : place < s.ring.capacity) {t : Trb} (ht : s.accepted[s.consumed.length]? = some t) :
    s.cursor.fetch? s.ring = some (t.withCycle (Ring.lapCycle lap)) := by
  obtain ⟨last, hholds⟩ := h.holds
  have hlt : s.consumed.length < s.accepted.length := (List.getElem?_eq_some_iff.1 ht).1
  have hconsumed := hat.length_eq
  have haccepted := hholds.length_eq
  rw [hconsumed] at ht
  have htrb : s.ring.trbAt place = t.withCycle (Ring.lapCycle lap) := by
    rcases h.laps hholds hat with ⟨rfl, hle⟩ | ⟨rfl, hpast⟩
    · rw [hholds.current place (by omega) t ht, hholds.cycle_eq]
    · simp [hholds.before lap rfl place hplace (Nat.le_of_lt hpast) t ht, hholds.cycle_eq]
  simp [hat.fetch_eq hholds.wellFormed, htrb]

/-- A cursor at the Link TRB follows it to the base; the link chains like the TRB before it. -/
theorem Agree.fetch_link (h : s.Agree) (hat : s.At lap s.ring.capacity) :
    ∃ t, s.cursor.fetch? s.ring = some t ∧ t.kind? = some .link ∧ t.parameter = s.ring.base ∧
      t.flags.contains .toggleCycle = true ∧
      ∀ u, s.accepted[s.consumed.length - 1]? = some u →
        t.flags.contains .chain = u.flags.contains .chain := by
  obtain ⟨last, hholds⟩ := h.holds
  have hend := hholds.wellFormed.enqueue_lt
  obtain rfl : last = lap + 1 := by
    rcases h.laps hholds hat with ⟨_, hle⟩ | ⟨rfl, _⟩
    · omega
    · rfl
  refine ⟨s.ring.trbAt s.ring.capacity, ?_, hholds.link_kind, hholds.link_target,
    hholds.link_toggles, ?_⟩
  · simp [hat.fetch_eq hholds.wellFormed, hholds.link_cycle, hholds.cycle_eq]
  · intro u hu
    apply hholds.link_chain lap rfl u
    rw [← hu, hat.length_eq, Nat.add_sub_assoc (by omega)]

/-! ### What a step preserves -/

theorem agree_start (kind : Ring.Kind) {count : Nat} {base : UInt64} (hcount : 3 ≤ count)
    (hfits : Ring.Fits base count) : (start kind count base).Agree where
  holds := ⟨0, holds_create kind hcount hfits⟩
  cursor_at := ⟨0, 0, Nat.zero_le _, by simp [start, ProducerRing.create], rfl, by simp [start]⟩
  consumed_le := Nat.le_refl _
  payloads_eq := rfl
  released_le := Nat.le_refl _
  accepted_eq := by
    change 0 = 0 + (ProducerRing.create kind count base).outstanding
    rw [outstanding_eq (wellFormed_create kind hcount hfits)]
    simp [ProducerRing.create]

theorem Agree.step_enqueue (h : s.Agree) {t : Trb} (ht : t.kind? ≠ some .link) :
    ∃ s', s.step (.enqueue t ht) = .ok s' ∧ s'.Agree := by
  obtain ⟨last, hholds⟩ := h.holds
  have hr := hholds.wellFormed
  by_cases hfull : s.ring.isFull = true
  · exact ⟨s, by rw [step, enqueue_eq hr, if_pos hfull]; rfl, h⟩
  · refine ⟨{ s with ring := s.ring.accept t, accepted := s.accepted ++ [t] }, ?_, ?_⟩
    · rw [step, enqueue_eq hr, if_neg hfull]
      rfl
    · have hroom : s.ring.outstanding < s.ring.capacity - 1 := by
        have := outstanding_lt hr
        have := mt (isFull_iff hr).2 hfull
        omega
      obtain ⟨lap, place, hat⟩ := h.cursor_at
      constructor
      case holds => exact hholds.accept ht
      case cursor_at =>
        exact ⟨lap, place, by simpa using hat.place_le, by simpa using hat.position_eq,
          hat.cycle_eq, by simpa using hat.length_eq⟩
      case consumed_le => simpa using Nat.le_succ_of_le h.consumed_le
      case payloads_eq => rw [List.take_append_of_le_length h.consumed_le, ← h.payloads_eq]
      case released_le => exact h.released_le
      case accepted_eq =>
        simp [outstanding_accept hr hroom, h.accepted_eq, Nat.add_assoc]

theorem Agree.step_release (h : s.Agree) : ∃ s', s.step .release = .ok s' ∧ s'.Agree := by
  obtain ⟨last, hholds⟩ := h.holds
  have hr := hholds.wellFormed
  by_cases hsome : s.released < s.consumed.length
  · have hone : 1 ≤ s.ring.outstanding := by
      have := h.consumed_le
      have := h.accepted_eq
      omega
    refine ⟨{ s with ring := s.ring.drop 1, released := s.released + 1 }, ?_, ?_⟩
    · rw [step, if_pos hsome, releaseOne_eq hr hone]
      rfl
    · constructor
      case holds => exact ⟨last, hholds.drop 1⟩
      case cursor_at =>
        obtain ⟨lap, place, hat⟩ := h.cursor_at
        exact ⟨lap, place, hat.place_le, hat.position_eq, hat.cycle_eq, hat.length_eq⟩
      case consumed_le => exact h.consumed_le
      case payloads_eq => exact h.payloads_eq
      case released_le => exact hsome
      case accepted_eq =>
        have := h.accepted_eq
        simp only [outstanding_drop hr hone]
        omega
  · exact ⟨s, by rw [step, if_neg hsome], h⟩

theorem Agree.step_read (h : s.Agree) : ∃ s', s.step .read = .ok s' ∧ s'.Agree := by
  obtain ⟨last, hholds⟩ := h.holds
  obtain ⟨lap, place, hat⟩ := h.cursor_at
  rcases Nat.lt_or_eq_of_le hat.place_le with hplace | rfl
  · rcases Nat.lt_or_eq_of_le h.consumed_le with hbehind | hall
    · have ht := List.getElem?_eq_getElem hbehind
      have hfetch := h.fetch_next hat hplace ht
      generalize s.accepted[s.consumed.length] = t at ht hfetch
      have hkind : t.kind? ≠ some .link := hholds.notLink t (List.mem_of_getElem? ht)
      refine ⟨{ s with
        cursor := { s.cursor with position := s.cursor.position + UInt64.ofNat Trb.byteSize }
        consumed := s.consumed ++ [t.withCycle (Ring.lapCycle lap)] }, ?_, ?_⟩
      · simp [step, Ring.Cursor.step?, Ring.Cursor.pass, hfetch, hkind]
      · constructor
        case holds => exact h.holds
        case cursor_at =>
          refine ⟨lap, place + 1, hplace, ?_, hat.cycle_eq, ?_⟩
          · rw [addressAt_succ, hat.position_eq]
          · simp [hat.length_eq, Nat.add_assoc]
        case consumed_le =>
          rw [List.length_append]
          exact hbehind
        case payloads_eq =>
          rw [payloads_append, h.payloads_eq, List.length_append, List.length_singleton,
            List.take_add_one, ht, Option.toList_some, payloads_append]
          simp [payloads]
        case released_le => simpa using Nat.le_succ_of_le h.released_le
        case accepted_eq => exact h.accepted_eq
    · exact ⟨s, by simp [step, Ring.Cursor.step?, h.fetch_nothing hat hplace hall], h⟩
  -- Nothing is read at the Link TRB: the cursor only goes on to the next lap.
  · obtain ⟨t, hfetch, hkind, htarget, htoggles, -⟩ := h.fetch_link hat
    refine ⟨{ s with cursor := ⟨t.parameter, !s.cursor.cycle⟩ }, ?_, ?_⟩
    · simp [step, Ring.Cursor.step?, Ring.Cursor.pass, hfetch, hkind, htoggles]
    · refine { h with cursor_at := ⟨lap + 1, 0, Nat.zero_le _, ?_, ?_, ?_⟩ }
      · simpa using htarget
      · rw [Ring.lapCycle_succ, ← hat.cycle_eq]
      · rw [Nat.succ_mul]
        exact hat.length_eq

theorem Agree.step (h : s.Agree) (move : Move) : ∃ s', s.step move = .ok s' ∧ s'.Agree := by
  cases move with
  | enqueue t ht => exact h.step_enqueue ht
  | read => exact h.step_read
  | release => exact h.step_release

theorem Agree.run (h : s.Agree) (moves : List Move) :
    ∃ s', s.run moves = .ok s' ∧ s'.Agree :=
  Fault.exists_of_run (fun _ => rfl) (fun _ _ _ => rfl) (fun _ h move => h.step move) h moves

/-! ### What agreement means for the controller -/

theorem Agree.payloads_prefix (h : s.Agree) : payloads s.consumed <+: payloads s.accepted := by
  rw [h.payloads_eq]
  exact (List.take_prefix _ _).map _

theorem Agree.all_read (h : s.Agree) (hfetch : s.cursor.fetch? s.ring = none) :
    payloads s.consumed = payloads s.accepted := by
  obtain ⟨lap, place, hat⟩ := h.cursor_at
  rcases Nat.lt_or_eq_of_le hat.place_le with hplace | rfl
  · rcases Nat.lt_or_eq_of_le h.consumed_le with hbehind | hall
    · rw [h.fetch_next hat hplace (List.getElem?_eq_getElem hbehind)] at hfetch
      cases hfetch
    · rw [h.payloads_eq, hall, List.take_length]
  · obtain ⟨t, hsome, -⟩ := h.fetch_link hat
    rw [hsome] at hfetch
    cases hfetch

theorem Agree.link_chain (h : s.Agree) {t : Trb} (hfetch : s.cursor.fetch? s.ring = some t)
    (hkind : t.kind? = some .link) :
    ∃ before, s.consumed.getLast? = some before ∧
      t.flags.contains .chain = before.flags.contains .chain := by
  obtain ⟨last, hholds⟩ := h.holds
  obtain ⟨lap, place, hat⟩ := h.cursor_at
  rcases Nat.lt_or_eq_of_le hat.place_le with hplace | rfl
  · exfalso
    rcases Nat.lt_or_eq_of_le h.consumed_le with hbehind | hall
    · rw [h.fetch_next hat hplace (List.getElem?_eq_getElem hbehind), Option.some.injEq] at hfetch
      rw [← hfetch, Trb.kind?_withCycle] at hkind
      exact hholds.notLink _ (List.getElem_mem hbehind) hkind
    · rw [h.fetch_nothing hat hplace hall] at hfetch
      cases hfetch
  · obtain ⟨link, hlink, -, -, -, hchain⟩ := h.fetch_link hat
    obtain rfl : link = t := Option.some.inj (hlink.symm.trans hfetch)
    have hone := hholds.wellFormed.one_lt_capacity
    have hlength := hat.length_eq
    have hle := h.consumed_le
    have hlt : s.consumed.length - 1 < s.accepted.length := by omega
    -- The TRB read last is the one accepted at this place, up to the cycle bit.
    have hlast : (payloads s.consumed)[s.consumed.length - 1]? =
        (payloads s.accepted)[s.consumed.length - 1]? := by
      rw [h.payloads_eq]
      simp only [payloads, List.map_take]
      rw [List.getElem?_take_of_lt (by omega)]
    have hbefore : s.consumed.length - 1 < s.consumed.length := by omega
    simp only [payloads, List.getElem?_map, List.getElem?_eq_getElem hlt,
      List.getElem?_eq_getElem hbefore, Option.map_some, Option.some.injEq] at hlast
    refine ⟨_, List.getLast?_eq_getElem?.trans (List.getElem?_eq_getElem hbefore), ?_⟩
    rw [hchain _ (List.getElem?_eq_getElem hlt), ← Trb.contains_chain_withCycle _ false, ← hlast,
      Trb.contains_chain_withCycle]

/-- Ring and controller agree after any moves of either side, for every ring that can be
allocated: the controller has read a prefix of what was enqueued, it finds nothing only when it has
read everything, and a link that it follows chains like the TRB before it. -/
theorem controller_reads_what_was_enqueued (kind : Ring.Kind) {count : Nat} {base : UInt64}
    {layout : Dma.Layout} (hlayout : (Ring.layout count).run = .ok (.ok layout))
    (hfits : Ring.Fits base count) (moves : List Move) :
    ∃ s, (start kind count base).run moves = .ok s ∧
      payloads s.consumed <+: payloads s.accepted ∧
      (s.cursor.fetch? s.ring = none → payloads s.consumed = payloads s.accepted) ∧
      ∀ t, s.cursor.fetch? s.ring = some t → t.kind? = some .link →
        ∃ before, s.consumed.getLast? = some before ∧
          t.flags.contains .chain = before.flags.contains .chain := by
  have hcount : Config.minRingSize ≤ count := (Ring.layout_bounds hlayout).1
  have hstart := agree_start kind (Nat.le_trans (by decide) hcount) hfits
  obtain ⟨s, hrun, hs⟩ := hstart.run moves
  exact ⟨s, hrun, hs.payloads_prefix, hs.all_read, fun t => hs.link_chain⟩

/-- A ring of 16 TRBs of which two have been enqueued, one read and one released. -/
theorem controller_reads_small_ring :
    ∃ s, (start .transfer Config.minRingSize 0x1000).run
        [.enqueue .blank (by decide), .read, .release, .enqueue .blank (by decide)] = .ok s ∧
      payloads s.consumed <+: payloads s.accepted ∧
      (s.cursor.fetch? s.ring = none → payloads s.consumed = payloads s.accepted) ∧
      ∀ t, s.cursor.fetch? s.ring = some t → t.kind? = some .link →
        ∃ before, s.consumed.getLast? = some before ∧
          t.flags.contains .chain = before.flags.contains .chain :=
  controller_reads_what_was_enqueued .transfer Ring.layout_minRingSize (by decide) _

end Exchange

end UsbHost
