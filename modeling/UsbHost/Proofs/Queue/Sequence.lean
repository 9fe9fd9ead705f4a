import UsbHost.Proofs.Queue.Vacancy

/-!
Chains against plain lists. Whatever is done to a new chain, its replies are those of a list that
holds at most as many values as the chain has slots, and all that can be seen of the chain is this
list. Walks along the links end at the last link, so the bound that each of them has is never what
ends it.
-/

namespace UsbHost.Chain

variable {α : Type}

/-- What is done to a chain. -/
inductive Operation (α : Type)
  | pushBack (value : α)
  | insertBefore (value : α) (p : α → Bool)
  | popFront
  | drain (p : α → Bool)

inductive Reply (α : Type)
  | stored
  | refused (value : α)
  | popped (value : Option α)
  | drained (values : List α)
  deriving DecidableEq

def perform (c : Chain α) : Operation α → Reply α × Chain α
  | .pushBack v =>
    match c.pushBack v with
    | .ok c => (.stored, c)
    | .error v => (.refused v, c)
  | .insertBefore v p =>
    match c.insertBefore p v with
    | .ok c => (.stored, c)
    | .error v => (.refused v, c)
  | .popFront =>
    match c.popFront with
    | some (v, c) => (.popped (some v), c)
    | none => (.popped none, c)
  | .drain p => let (values, c) := c.drain p; (.drained values, c)

/-- The same on a list that holds at most `capacity` values. -/
def onList (capacity : Nat) (xs : List α) : Operation α → Reply α × List α
  | .pushBack v => if xs.length < capacity then (.stored, xs ++ [v]) else (.refused v, xs)
  | .insertBefore v p =>
    if xs.length < capacity then
      (.stored, xs.takeWhile (fun x => !p x) ++ v :: xs.dropWhile fun x => !p x)
    else
      (.refused v, xs)
  | .popFront => (.popped xs.head?, xs.tail)
  | .drain p => (.drained (xs.filter p), xs.filter fun x => !p x)

/-- Perform operations one after another, and collect the replies. -/
def play {σ : Type} (perform : σ → Operation α → Reply α × σ) (s : σ) :
    List (Operation α) → List (Reply α) × σ
  | [] => ([], s)
  | op :: ops =>
    let (reply, s) := perform s op
    let (replies, s) := play perform s ops
    (reply :: replies, s)

/-! ### What an operation preserves -/

/-- The chain holds the values `xs`, and its arena is sound. -/
structure Carries (capacity : Nat) (c : Chain α) (xs : List α) : Prop where
  sound : c.arena.Sound capacity
  holds : ∃ l, c.Holds l ∧ l.map Prod.snd = xs

/-- Chain and list give the same reply and go on to hold the same values. -/
structure Agrees (capacity : Nat) (x : Reply α × Chain α) (y : Reply α × List α) : Prop where
  reply_eq : x.1 = y.1
  carries : Carries capacity x.2 y.2

variable {c : Chain α} {xs : List α} {capacity : Nat}

theorem carries_empty (hcapacity : 0 < capacity) :
    Carries capacity { arena := .empty capacity : Chain α } [] where
  sound := Arena.sound_empty hcapacity
  holds := ⟨[], holds_empty capacity, rfl⟩

theorem Carries.pushBack (h : Carries capacity c xs) (v : α) :
    Agrees capacity (c.perform (.pushBack v)) (onList capacity xs (.pushBack v)) := by
  obtain ⟨l, hl, rfl⟩ := h.holds
  rcases hl.pushBack_cases h.sound v with ⟨hroom, c', handle, hpush, hs, hholds⟩ | ⟨hfull, hpush⟩
  · rw [perform, hpush, onList, if_pos (by simpa using hroom)]
    refine ⟨rfl, hs, _, hholds, ?_⟩
    rw [List.map_append]
    rfl
  · rw [perform, hpush, onList, if_neg (by simp [hfull])]
    exact ⟨rfl, h⟩

theorem Carries.insertBefore (h : Carries capacity c xs) (v : α) (p : α → Bool) :
    Agrees capacity (c.perform (.insertBefore v p)) (onList capacity xs (.insertBefore v p)) := by
  obtain ⟨l, hl, rfl⟩ := h.holds
  rcases hl.insertBefore_cases h.sound p v with
    ⟨hroom, c', handle, hinsert, hs, hholds⟩ | ⟨hfull, hinsert⟩
  · rw [perform, hinsert, onList, if_pos (by simpa using hroom)]
    refine ⟨rfl, hs, _, hholds, ?_⟩
    rw [List.map_append, List.map_cons, List.takeWhile_map, List.dropWhile_map]
    rfl
  · rw [perform, hinsert, onList, if_neg (by simp [hfull])]
    exact ⟨rfl, h⟩

theorem Carries.popFront (h : Carries capacity c xs) :
    Agrees capacity (c.perform .popFront) (onList capacity xs .popFront) := by
  obtain ⟨l, hl, rfl⟩ := h.holds
  cases l with
  | nil =>
    have hhead : c.head = none := hl.path
    have hnone : c.popFront = none := by simp [Chain.popFront, hhead]
    rw [perform, hnone]
    exact ⟨rfl, h⟩
  | cons x rest =>
    obtain ⟨c', hpop, hholds⟩ := hl.popFront_cons
    rw [perform, hpop]
    exact ⟨rfl, sound_popFront h.sound hpop, rest, hholds, rfl⟩

theorem Carries.drain (h : Carries capacity c xs) (p : α → Bool) :
    Agrees capacity (c.perform (.drain p)) (onList capacity xs (.drain p)) := by
  obtain ⟨l, hl, rfl⟩ := h.holds
  obtain ⟨hvalues, hholds⟩ := hl.drain p
  refine ⟨congrArg Reply.drained hvalues, sound_drain p h.sound, _, hholds, ?_⟩
  show _ = (l.map Prod.snd).filter fun x => !p x
  rw [List.filter_map]
  rfl

theorem Carries.perform (h : Carries capacity c xs) (op : Operation α) :
    Agrees capacity (c.perform op) (onList capacity xs op) := by
  cases op with
  | pushBack v => exact h.pushBack v
  | insertBefore v p => exact h.insertBefore v p
  | popFront => exact h.popFront
  | drain p => exact h.drain p

theorem Carries.play (h : Carries capacity c xs) (ops : List (Operation α)) :
    (Chain.play Chain.perform c ops).1 = (Chain.play (onList capacity) xs ops).1 ∧
      Carries capacity (Chain.play Chain.perform c ops).2
        (Chain.play (onList capacity) xs ops).2 := by
  induction ops generalizing c xs with
  | nil => exact ⟨rfl, h⟩
  | cons op ops ih =>
    obtain ⟨hreply, hcarries⟩ := h.perform op
    obtain ⟨hreplies, hlast⟩ := ih hcarries
    exact ⟨congrArg₂ List.cons hreply hreplies, hlast⟩

/-! ### What can be seen -/

/-- All that can be seen of a chain of `capacity` slots is the list `xs`. -/
structure Shows (capacity : Nat) (c : Chain α) (xs : List α) : Prop where
  toList_eq : c.toList = xs
  front?_eq : c.front? = xs.head?
  length_eq : c.length = xs.length
  isEmpty_iff : c.isEmpty = true ↔ xs = []
  capacity_eq : c.capacity = capacity
  length_le : xs.length ≤ capacity
  /-- From the head the links lead through `xs` once, and end. -/
  path : ∃ l, Path c.arena c.head none l ∧ (l.map Prod.fst).Nodup ∧ l.map Prod.snd = xs
  /-- A walk that is given more steps goes no further. -/
  valuesFrom_eq : ∀ steps, capacity ≤ steps → valuesFrom c.arena c.head steps = xs
  lastBefore_eq : ∀ p steps, capacity ≤ steps →
    lastBefore c.arena p none c.head steps = lastBefore c.arena p none c.head c.capacity
  drainFrom_eq : ∀ p steps, capacity ≤ steps → drainFrom p c none c.head steps = c.drain p

theorem Carries.shows (h : Carries capacity c xs) : Shows capacity c xs := by
  obtain ⟨l, hl, rfl⟩ := h.holds
  have hcapacity : c.capacity = capacity := h.sound.size_eq
  have hlength := hl.length_le
  rw [hcapacity] at hlength
  constructor
  case toList_eq => exact hl.toList_eq
  case front?_eq => rw [hl.front?_eq, List.head?_map]
  case length_eq => rw [List.length_map, hl.length_eq h.sound]
  case isEmpty_iff =>
    rw [isEmpty, hl.path.head?_eq]
    cases l <;> simp
  case capacity_eq => exact hcapacity
  case length_le => rwa [List.length_map]
  case path => exact ⟨l, hl.path, hl.nodup, rfl⟩
  case valuesFrom_eq =>
    intro steps hsteps
    exact hl.path.valuesFrom_eq (Nat.le_trans hlength hsteps)
  case lastBefore_eq =>
    intro p steps hsteps
    have hwalk : ∀ n, l.length ≤ n → lastBefore c.arena p none c.head n =
        (l.takeWhile fun x => !p x.2).getLast?.map Prod.fst :=
      fun n hn => hl.path.lastBefore_eq p [] hn
    rw [hwalk steps (Nat.le_trans hlength hsteps), hwalk c.capacity hl.length_le]
  case drainFrom_eq =>
    intro p steps hsteps
    apply hl.drainFrom_eq_drain
    rwa [hcapacity]

/-- A chain is a list. Whatever is done to a new chain, the replies are those of the list, and the
chain shows what the list has become. -/
theorem chain_follows_list (hpos : 0 < capacity) (hmax : capacity ≤ Arena.maxCapacity)
    (ops : List (Operation α)) :
    ∃ (c : Chain α) (replies : List (Reply α)) (c' : Chain α) (xs : List α),
      withCapacity capacity = .ok c ∧ play perform c ops = (replies, c') ∧
      play (onList capacity) [] ops = (replies, xs) ∧ Shows capacity c' xs := by
  obtain ⟨hreplies, hcarries⟩ := (carries_empty (α := α) hpos).play ops
  exact ⟨_, _, _, _, withCapacity_eq hpos hmax, rfl, Prod.ext hreplies.symm rfl, hcarries.shows⟩

/-- Insertions at either end and in between, a full chain, and values that are drained from the
front, the middle and the end. -/
def shuffle : List (Operation Nat) :=
  [.pushBack 4, .insertBefore 2 (2 < ·), .insertBefore 3 (3 < ·), .pushBack 5,
   .drain (fun x => x == 2 || x == 5), .insertBefore 6 (6 < ·), .popFront, .pushBack 7,
   .drain (fun x => x == 6), .popFront, .popFront, .popFront, .pushBack 8]

theorem chain_follows_shuffle : ∃ c : Chain Nat, withCapacity 3 = .ok c ∧
    (play perform c shuffle).1 =
      [.stored, .stored, .stored, .refused 5, .drained [2], .stored, .popped (some 3), .stored,
       .drained [6], .popped (some 4), .popped (some 7), .popped none, .stored] ∧
    Shows 3 (play perform c shuffle).2 [8] := by
  obtain ⟨c, replies, c', xs, hc, hchain, hlist, hshows⟩ :=
    chain_follows_list (by decide : 0 < 3) (by decide) shuffle
  have hrun : play (onList 3) [] shuffle =
      ([.stored, .stored, .stored, .refused 5, .drained [2], .stored, .popped (some 3), .stored,
       .drained [6], .popped (some 4), .popped (some 7), .popped none, .stored], [8]) := by
    decide
  obtain ⟨rfl, rfl⟩ := Prod.mk.inj (hlist.symm.trans hrun)
  exact ⟨c, hc, congrArg Prod.fst hchain, by rwa [hchain]⟩

end UsbHost.Chain
