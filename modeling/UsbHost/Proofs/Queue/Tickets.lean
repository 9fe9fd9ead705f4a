import UsbHost.Proofs.Queue.Vacancy

/-!
The handles that an arena has issued. An arena is followed here together with the tickets of those
who have stored something: each has the handle and the value, as long as this has not been taken
out, and counts how often the slot has been emptied since. An arena does not count this; it moves
the slot on to the next generation, of which there are 65536. So a ticket whose value is gone finds
nothing, until its slot has been emptied so often that the generations begin again.
-/

namespace UsbHost.Arena

variable {α : Type}

/-! ### Generations -/

def Slot.generation : Slot α → UInt16
  | occupied generation _ => generation
  | vacant generation _ => generation

/-- The generation that a slot is in. -/
def generation? (a : Arena α) (index : Nat) : Option UInt16 :=
  a.slots[index]?.map Slot.generation

variable {a a' : Arena α} {h : Handle} {v : α} {capacity : Nat}

theorem generation?_of_get? (hv : a.get? h = some v) :
    a.generation? h.index = some h.generation := by
  rw [generation?, get?_eq_some.1 hv]
  rfl

theorem generation?_setSlot {index : Nat} {slot : Slot α}
    (hslots : a'.slots = a.slots.setIfInBounds index slot) (hindex : index < a.slots.size)
    (i : Nat) :
    a'.generation? i = if i = index then some slot.generation else a.generation? i := by
  unfold generation?
  rw [hslots]
  by_cases hi : i = index
  · subst hi
    rw [Array.getElem?_setIfInBounds_self_of_lt hindex, if_pos rfl]
    rfl
  · rw [Array.getElem?_setIfInBounds_ne (Ne.symm hi), if_neg hi]

/-- Storing a value leaves every slot in its generation. -/
theorem generation?_insert (hinsert : a.insert v = .ok (h, a')) (i : Nat) :
    a'.generation? i = a.generation? i := by
  obtain ⟨⟨next, hslot⟩, hslots⟩ := insert_cases hinsert
  rw [generation?_setSlot hslots (Array.getElem?_eq_some_iff.1 hslot).1]
  split
  · rename_i hi
    rw [hi, generation?, hslot]
    rfl
  · rfl

theorem generation?_set {w : α} (hw : a.get? h = some w) (v : α) (i : Nat) :
    (a.set h v).generation? i = a.generation? i := by
  rw [generation?_setSlot (set_eq hw v) (index_lt hw)]
  split
  · rename_i hi
    rw [hi, generation?_of_get? hw]
    rfl
  · rfl

/-- Taking a value out moves its slot on, and no other one. -/
theorem generation?_remove (hremove : a.remove h = some (v, a')) (i : Nat) :
    a'.generation? i = if i = h.index then some (h.generation + 1) else a.generation? i := by
  obtain ⟨hv, hslots⟩ := remove_cases hremove
  exact generation?_setSlot hslots (index_lt hv) i

/-! ### Tickets -/

/-- What whoever stores a value is left with. -/
structure Ticket (α : Type) where
  handle : Handle
  /-- The value, until it is taken out. -/
  value : Option α
  /-- How often the slot has been emptied since the handle was issued. -/
  turns : Nat := 0

/-- The slot of `h` is emptied. -/
def Ticket.vacate (h : Handle) (t : Ticket α) : Ticket α where
  handle := t.handle
  value := if t.handle = h then none else t.value
  turns := if t.handle.index = h.index then t.turns + 1 else t.turns

/-- The value stored under `h` becomes `v`. -/
def Ticket.replace (h : Handle) (v : α) (t : Ticket α) : Ticket α :=
  { t with value := if t.handle = h then t.value.map fun _ => v else t.value }

/-- A ticket that still has its value is one for another handle. -/
theorem Ticket.of_value_vacate (t : Ticket α) (hv : (t.vacate h).value = some v) :
    t.handle ≠ h ∧ t.value = some v := by
  unfold Ticket.vacate at hv
  split at hv
  · cases hv
  · rename_i hne
    exact ⟨hne, hv⟩

@[simp] theorem Ticket.isSome_value_replace (t : Ticket α) :
    (t.replace h v).value.isSome = t.value.isSome := by
  unfold Ticket.replace
  split <;> simp

/-- An arena and all the tickets for it. -/
structure Desk (α : Type) where
  arena : Arena α
  tickets : List (Ticket α) := []

/-- What changes an arena. Handles can be any, those that have been issued among them. -/
inductive Operation (α : Type)
  | insert (value : α)
  | remove (h : Handle)
  /-- Write to the value that `h` finds. -/
  | set (h : Handle) (value : α)

namespace Desk

def perform (d : Desk α) : Operation α → Desk α
  | .insert v =>
    match d.arena.insert v with
    | .error _ => d
    | .ok (h, a) => { arena := a, tickets := d.tickets ++ [{ handle := h, value := some v }] }
  | .remove h =>
    match d.arena.remove h with
    | none => d
    | some (_, a) => { arena := a, tickets := d.tickets.map (Ticket.vacate h) }
  | .set h v =>
    match d.arena.get? h with
    | none => d
    | some _ => { arena := d.arena.set h v, tickets := d.tickets.map (Ticket.replace h v) }

def run (d : Desk α) (ops : List (Operation α)) : Desk α := ops.foldl perform d

/-- Arena and tickets agree. -/
structure Agrees (capacity : Nat) (d : Desk α) : Prop where
  sound : d.arena.Sound capacity
  found : ∀ t ∈ d.tickets, ∀ v, t.value = some v → d.arena.get? t.handle = some v
  held : ∀ h v, d.arena.get? h = some v → ∃ t ∈ d.tickets, t.handle = h ∧ t.value = some v
  apart : d.tickets.Pairwise fun t t' =>
    t.value.isSome = true → t'.value.isSome = true → t.handle ≠ t'.handle
  /-- The slot of a ticket has come as far as it has been emptied. -/
  generation : ∀ t ∈ d.tickets, d.arena.generation? t.handle.index =
    some (t.handle.generation + UInt16.ofNat t.turns)
  spent : ∀ t ∈ d.tickets, t.value = none → 0 < t.turns

variable {d : Desk α}

theorem agrees_empty (hcapacity : 0 < capacity) :
    Agrees capacity { arena := .empty capacity : Desk α } where
  sound := sound_empty hcapacity
  found := nofun
  held h v hv := by
    obtain ⟨hlt, hslot⟩ := Array.getElem?_eq_some_iff.1 (get?_eq_some.1 hv)
    simp [Arena.empty] at hslot
  apart := .nil
  generation := nofun
  spent := nofun

/-! ### What an operation preserves -/

theorem Agrees.insert (hd : d.Agrees capacity) (hinsert : d.arena.insert v = .ok (h, a)) :
    Agrees capacity
      { arena := a, tickets := d.tickets ++ [{ handle := h, value := some v }] } := by
  -- Whatever has been found so far is found in other slots than the one that the value goes to.
  have hnew : ∀ h' w, d.arena.get? h' = some w → h' ≠ h := by
    rintro h' w hw rfl
    rw [get?_of_insert hinsert rfl] at hw
    cases hw
  constructor
  case sound => exact hd.sound.insert hinsert
  case found =>
    intro t ht w hw
    rcases List.mem_append.1 ht with ht | ht
    · have hfound := hd.found t ht w hw
      show a.get? t.handle = some w
      rw [get?_insert_ne hinsert (hnew _ _ hfound), hfound]
    · obtain rfl := List.mem_singleton.1 ht
      obtain rfl := Option.some.inj hw
      exact get?_insert_self hinsert
  case held =>
    intro h' w hw
    by_cases hh : h' = h
    · subst hh
      refine ⟨_, List.mem_append_right _ (List.mem_singleton_self _), rfl, ?_⟩
      rw [← hw]
      exact (get?_insert_self hinsert).symm
    · change a.get? h' = some w at hw
      rw [get?_insert_ne hinsert hh] at hw
      obtain ⟨t, ht, htw⟩ := hd.held h' w hw
      exact ⟨t, List.mem_append_left _ ht, htw⟩
  case apart =>
    refine List.pairwise_append.2 ⟨hd.apart, List.pairwise_singleton _ _, ?_⟩
    intro t ht t' ht' hlive _
    obtain rfl := List.mem_singleton.1 ht'
    obtain ⟨w, hw⟩ := Option.isSome_iff_exists.1 hlive
    exact hnew _ w (hd.found t ht w hw)
  case generation =>
    intro t ht
    show a.generation? t.handle.index = _
    rcases List.mem_append.1 ht with ht | ht
    · rw [generation?_insert hinsert, hd.generation t ht]
    · obtain rfl := List.mem_singleton.1 ht
      rw [generation?_of_get? (get?_insert_self hinsert)]
      simp
  case spent =>
    intro t ht hnone
    rcases List.mem_append.1 ht with ht | ht
    · exact hd.spent t ht hnone
    · obtain rfl := List.mem_singleton.1 ht
      cases hnone

theorem Agrees.remove (hd : d.Agrees capacity) (hremove : d.arena.remove h = some (v, a)) :
    Agrees capacity { arena := a, tickets := d.tickets.map (Ticket.vacate h) } := by
  constructor
  case sound => exact hd.sound.remove hremove
  case found =>
    intro t' ht' w hw
    obtain ⟨t, ht, rfl⟩ := List.mem_map.1 ht'
    obtain ⟨hne, hw⟩ := t.of_value_vacate hw
    show a.get? t.handle = some w
    rw [get?_remove_ne hremove hne, hd.found t ht w hw]
  case held =>
    intro h' w hw
    change a.get? h' = some w at hw
    have hne : h' ≠ h := by
      rintro rfl
      rw [get?_remove_self hremove] at hw
      cases hw
    rw [get?_remove_ne hremove hne] at hw
    obtain ⟨t, ht, rfl, htw⟩ := hd.held h' w hw
    refine ⟨_, List.mem_map_of_mem ht, rfl, ?_⟩
    rw [← htw]
    exact if_neg hne
  case apart =>
    refine List.pairwise_map.2 (hd.apart.imp fun {t t'} hapart ht ht' => ?_)
    obtain ⟨w, hw⟩ := Option.isSome_iff_exists.1 ht
    obtain ⟨w', hw'⟩ := Option.isSome_iff_exists.1 ht'
    apply hapart
    · simp [(t.of_value_vacate hw).2]
    · simp [(t'.of_value_vacate hw').2]
  case generation =>
    intro t' ht'
    obtain ⟨t, ht, rfl⟩ := List.mem_map.1 ht'
    have hgeneration := hd.generation t ht
    have hslot := generation?_of_get? (remove_cases hremove).1
    show a.generation? t.handle.index = some (t.handle.generation +
      UInt16.ofNat (if t.handle.index = h.index then t.turns + 1 else t.turns))
    rw [generation?_remove hremove]
    split
    · -- The slot has come as far as its value was stored in, and goes one generation on.
      rename_i hindex
      rw [hindex, hslot, Option.some.injEq] at hgeneration
      rw [hgeneration, UInt16.ofNat_add, UInt16.add_assoc]
      rfl
    · exact hgeneration
  case spent =>
    intro t' ht' hnone
    obtain ⟨t, ht, rfl⟩ := List.mem_map.1 ht'
    show 0 < if t.handle.index = h.index then t.turns + 1 else t.turns
    split
    · exact Nat.succ_pos _
    · rename_i hindex
      apply hd.spent t ht
      rw [← hnone]
      exact (if_neg fun heq => hindex (congrArg Handle.index heq)).symm

theorem Agrees.set {w : α} (hd : d.Agrees capacity) (hw : d.arena.get? h = some w) (v : α) :
    Agrees capacity
      { arena := d.arena.set h v, tickets := d.tickets.map (Ticket.replace h v) } := by
  constructor
  case sound => exact hd.sound.set h v
  case found =>
    intro t' ht' u hu
    obtain ⟨t, ht, rfl⟩ := List.mem_map.1 ht'
    show (d.arena.set h v).get? t.handle = some u
    by_cases hh : t.handle = h
    · simp only [Ticket.replace, if_pos hh, Option.map_eq_some_iff] at hu
      obtain ⟨-, -, rfl⟩ := hu
      simp [hh, hw]
    · simp only [Ticket.replace, if_neg hh] at hu
      simp [hw, hh, hd.found t ht u hu]
  case held =>
    intro h' u hu
    change (d.arena.set h v).get? h' = some u at hu
    by_cases hh : h' = h
    · subst hh
      rw [get?_set_self hw, Option.some.injEq] at hu
      subst hu
      obtain ⟨t, ht, rfl, htw⟩ := hd.held h' w hw
      exact ⟨_, List.mem_map_of_mem ht, rfl, by simp [Ticket.replace, htw]⟩
    · rw [get?_set_ne hw v hh] at hu
      obtain ⟨t, ht, rfl, htu⟩ := hd.held h' u hu
      exact ⟨_, List.mem_map_of_mem ht, rfl, by simp [Ticket.replace, hh, htu]⟩
  case apart =>
    refine List.pairwise_map.2 (hd.apart.imp fun {t t'} hapart ht ht' => ?_)
    rw [Ticket.isSome_value_replace] at ht ht'
    exact hapart ht ht'
  case generation =>
    intro t' ht'
    obtain ⟨t, ht, rfl⟩ := List.mem_map.1 ht'
    show (d.arena.set h v).generation? t.handle.index = _
    rw [generation?_set hw, hd.generation t ht]
    rfl
  case spent =>
    intro t' ht' hnone
    obtain ⟨t, ht, rfl⟩ := List.mem_map.1 ht'
    apply hd.spent t ht
    rw [← Option.not_isSome_iff_eq_none] at hnone ⊢
    rwa [Ticket.isSome_value_replace] at hnone

theorem Agrees.perform (hd : d.Agrees capacity) (op : Operation α) :
    (d.perform op).Agrees capacity := by
  cases op with
  | insert v =>
    cases hinsert : d.arena.insert v with
    | error w => rwa [Desk.perform, hinsert]
    | ok stored =>
      rw [Desk.perform, hinsert]
      exact hd.insert hinsert
  | remove h =>
    cases hremove : d.arena.remove h with
    | none => rwa [Desk.perform, hremove]
    | some removed =>
      rw [Desk.perform, hremove]
      exact hd.remove hremove
  | set h v =>
    cases hget : d.arena.get? h with
    | none => rwa [Desk.perform, hget]
    | some w =>
      rw [Desk.perform, hget]
      exact hd.set hget v

theorem Agrees.run (hd : d.Agrees capacity) (ops : List (Operation α)) :
    (d.run ops).Agrees capacity := by
  induction ops generalizing d with
  | nil => exact hd
  | cons op ops ih => exact ih (hd.perform op)

/-! ### What tickets are good for -/

/-- An arena does for each ticket what it was issued for. -/
structure Faithful (capacity : Nat) (d : Desk α) : Prop where
  capacity_eq : d.arena.capacity = capacity
  /-- The free list runs through every vacant slot once, and through no other slot. -/
  freeList : ∃ l : List Nat, FreePath d.arena.slots d.arena.freeHead l ∧ l.Nodup ∧
    ∀ i, i ∈ l ↔ ∃ generation next, d.arena.slots[i]? = some (.vacant generation next)
  /-- The free list never leads to a slot that holds a value. -/
  freeHead : ∀ i, d.arena.freeHead = some i →
    ∃ generation next, d.arena.slots[i]? = some (.vacant generation next)
  size_eq : d.arena.size = d.tickets.countP fun t => t.value.isSome
  refused : d.arena.size = capacity → ∀ v, d.arena.insert v = .error v
  stored : d.arena.size ≠ capacity → ∀ v, ∃ h a, d.arena.insert v = .ok (h, a)
  /-- What is stored is told apart. -/
  apart : d.tickets.Pairwise fun t t' =>
    t.value.isSome = true → t'.value.isSome = true → t.handle ≠ t'.handle
  get : ∀ t ∈ d.tickets, ∀ v, t.value = some v → d.arena.get? t.handle = some v
  set : ∀ t ∈ d.tickets, ∀ v, t.value = some v → ∀ w,
    (d.arena.set t.handle w).get? t.handle = some w ∧
      ∀ h, h ≠ t.handle → (d.arena.set t.handle w).get? h = d.arena.get? h
  remove : ∀ t ∈ d.tickets, ∀ v, t.value = some v →
    ∃ a, d.arena.remove t.handle = some (v, a) ∧ a.get? t.handle = none ∧
      ∀ h, h ≠ t.handle → a.get? h = d.arena.get? h
  /-- A ticket whose value is gone finds nothing before the generations begin again. -/
  stale : ∀ t ∈ d.tickets, t.value = none → t.turns < 65536 →
    d.arena.get? t.handle = none ∧ d.arena.remove t.handle = none ∧
      ∀ w, d.arena.set t.handle w = d.arena

/-- A ticket finds something just when a value is in its slot and the generations have gone full
rounds since. -/
theorem Agrees.get?_iff {t : Ticket α} (hd : d.Agrees capacity) (ht : t ∈ d.tickets) :
    (∃ v, d.arena.get? t.handle = some v) ↔ 65536 ∣ t.turns ∧
      ∃ generation v, d.arena.slots[t.handle.index]? = some (.occupied generation v) := by
  have hgeneration := hd.generation t ht
  have hround : t.handle.generation + UInt16.ofNat t.turns = t.handle.generation ↔
      65536 ∣ t.turns := by
    rw [← UInt16.toNat_inj, UInt16.toNat_add, UInt16.toNat_ofNat']
    have hlt := t.handle.generation.toNat_lt
    omega
  constructor
  · rintro ⟨v, hv⟩
    rw [generation?_of_get? hv, Option.some.injEq] at hgeneration
    exact ⟨hround.1 hgeneration.symm, _, v, get?_eq_some.1 hv⟩
  · rintro ⟨hdvd, generation, v, hslot⟩
    rw [generation?, hslot, hround.2 hdvd, Option.map_some, Option.some.injEq] at hgeneration
    refine ⟨v, get?_eq_some.2 ?_⟩
    rw [hslot, ← hgeneration]
    rfl

theorem Agrees.get?_of_spent {t : Ticket α} (hd : d.Agrees capacity) (ht : t ∈ d.tickets)
    (hnone : t.value = none) (hturns : t.turns < 65536) : d.arena.get? t.handle = none := by
  cases hget : d.arena.get? t.handle with
  | none => rfl
  | some w =>
    -- A full round would be needed, and the slot has been emptied at least once.
    have hpos := hd.spent t ht hnone
    have hdvd := ((hd.get?_iff ht).1 ⟨w, hget⟩).1
    have hle := Nat.le_of_dvd hpos hdvd
    omega

theorem Agrees.size_eq (hd : d.Agrees capacity) :
    d.arena.size = d.tickets.countP fun t => t.value.isSome := by
  have hnodup : ((d.tickets.filter fun t => t.value.isSome).map Ticket.handle).Nodup := by
    refine List.pairwise_map.2 (List.pairwise_filter.2 (hd.apart.imp ?_))
    intro t t' hapart ht ht'
    exact hapart ht ht'
  have hfound : ∀ h, h ∈ (d.tickets.filter fun t => t.value.isSome).map Ticket.handle ↔
      ∃ v, d.arena.get? h = some v := by
    intro h
    simp only [List.mem_map, List.mem_filter]
    constructor
    · rintro ⟨t, ⟨ht, hlive⟩, rfl⟩
      obtain ⟨v, hv⟩ := Option.isSome_iff_exists.1 hlive
      exact ⟨v, hd.found t ht v hv⟩
    · rintro ⟨v, hv⟩
      obtain ⟨t, ht, hh, htv⟩ := hd.held h v hv
      exact ⟨t, ⟨ht, by simp [htv]⟩, hh⟩
  rw [← hd.sound.length_eq hnodup hfound, List.length_map, List.countP_eq_length_filter]

theorem Agrees.faithful (hd : d.Agrees capacity) : d.Faithful capacity := by
  obtain ⟨l, hl⟩ := hd.sound.lists
  constructor
  case capacity_eq => exact hd.sound.size_eq
  case freeList =>
    refine ⟨l, hl.path, hl.nodup, fun i => ⟨hl.path.vacant i, ?_⟩⟩
    rintro ⟨generation, next, hslot⟩
    exact hl.all i generation next hslot
  case freeHead => exact fun i => hl.vacant_freeHead
  case size_eq => exact hd.size_eq
  case refused => exact hd.sound.insert_of_full
  case stored =>
    intro hroom v
    cases hinsert : d.arena.insert v with
    | error w => exact absurd (hd.sound.size_of_refused hinsert) hroom
    | ok stored => exact ⟨stored.1, stored.2, rfl⟩
  case apart => exact hd.apart
  case get => exact hd.found
  case set =>
    intro t ht v hv w
    have hget := hd.found t ht v hv
    exact ⟨get?_set_self hget w, fun h hne => get?_set_ne hget w hne⟩
  case remove =>
    intro t ht v hv
    obtain ⟨a, hremove, -⟩ := remove_eq (hd.found t ht v hv)
    exact ⟨a, hremove, get?_remove_self hremove, fun h hne => get?_remove_ne hremove hne⟩
  case stale =>
    intro t ht hnone hturns
    have hget := hd.get?_of_spent ht hnone hturns
    refine ⟨hget, ?_, fun w => ?_⟩
    · rw [Arena.remove, hget]
    · rw [Arena.set, hget]

/-- Whatever is stored in a new arena, written to and taken out, with whatever handles, the arena
does for each ticket what it was issued for. -/
theorem run_faithful (hpos : 0 < capacity) (hmax : capacity ≤ maxCapacity)
    (ops : List (Operation α)) :
    ∃ a : Arena α, withCapacity capacity = .ok a ∧
      Faithful capacity (run { arena := a } ops) :=
  ⟨.empty capacity, withCapacity_eq hpos hmax, ((agrees_empty hpos).run ops).faithful⟩

/-- Two slots, of which the first is emptied twice and the second is written to. -/
def turnover : List (Operation String) :=
  [.insert "first", .insert "second", .insert "refused", .remove ⟨0, 0⟩, .insert "third",
   .set ⟨1, 0⟩ "written", .remove ⟨0, 0⟩, .remove ⟨0, 1⟩]

theorem run_turnover : ∃ a : Arena String, withCapacity 2 = .ok a ∧
    Faithful 2 (run { arena := a } turnover) ∧
    (run { arena := a } turnover).tickets =
      [⟨⟨0, 0⟩, none, 2⟩, ⟨⟨1, 0⟩, some "written", 0⟩, ⟨⟨0, 1⟩, none, 1⟩] := by
  obtain ⟨a, ha, hfaithful⟩ := run_faithful (by decide : 0 < 2) (by decide) turnover
  obtain rfl := Except.ok.inj (ha.symm.trans (by rfl : withCapacity 2 = .ok (.empty 2)))
  exact ⟨_, ha, hfaithful, by rfl⟩

end Desk

end UsbHost.Arena
