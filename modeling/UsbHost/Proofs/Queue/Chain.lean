import UsbHost.Proofs.Queue.Arena
import UsbHost.Queue.Chain

/-!
Chains as lists. A chain holds a list of links, each with its handle and its value, if following the
links from the head runs through just these, and every value of the arena is among them. Operations
on the chain are operations on the list.
-/

namespace UsbHost.Chain

variable {α : Type}

/-- Following the links from `cursor` on runs through `l` and comes to `stop`. -/
def Path (a : Arena (Link α)) (cursor : Option Arena.Handle) (stop : Option Arena.Handle) :
    List (Arena.Handle × α) → Prop
  | [] => cursor = stop
  | (h, v) :: l => cursor = some h ∧ ∃ next, a.get? h = some ⟨v, next⟩ ∧ Path a next stop l

/-- The links of the chain, first to last. -/
structure Holds (c : Chain α) (l : List (Arena.Handle × α)) : Prop where
  path : Path c.arena c.head none l
  tail_eq : c.tail = l.getLast?.map Prod.fst
  nodup : (l.map Prod.fst).Nodup
  all : ∀ h link, c.arena.get? h = some link → h ∈ l.map Prod.fst

section Path

variable {a a' : Arena (Link α)} {cursor stop : Option Arena.Handle}
  {l l' : List (Arena.Handle × α)}

theorem path_append : Path a cursor stop (l ++ l') ↔
    ∃ middle, Path a cursor middle l ∧ Path a middle stop l' := by
  induction l generalizing cursor with
  | nil =>
    constructor
    · exact fun h => ⟨cursor, rfl, h⟩
    · rintro ⟨middle, rfl, h⟩
      exact h
  | cons x l ih =>
    obtain ⟨h, v⟩ := x
    constructor
    · rintro ⟨hcursor, next, hget, hrest⟩
      obtain ⟨middle, hl, hl'⟩ := ih.1 hrest
      exact ⟨middle, ⟨hcursor, next, hget, hl⟩, hl'⟩
    · rintro ⟨middle, ⟨hcursor, next, hget, hl⟩, hl'⟩
      exact ⟨hcursor, next, hget, ih.2 ⟨middle, hl, hl'⟩⟩

/-- A path lies in its own links only. -/
theorem Path.congr (hpath : Path a cursor stop l)
    (hsame : ∀ h ∈ l.map Prod.fst, a'.get? h = a.get? h) : Path a' cursor stop l := by
  induction l generalizing cursor with
  | nil => exact hpath
  | cons x l ih =>
    obtain ⟨h, v⟩ := x
    obtain ⟨hcursor, next, hget, hrest⟩ := hpath
    rw [List.map_cons, List.forall_mem_cons] at hsame
    exact ⟨hcursor, next, hsame.1.trans hget, ih hrest hsame.2⟩

theorem Path.head?_eq (hpath : Path a cursor none l) : cursor = l.head?.map Prod.fst := by
  cases l with
  | nil => exact hpath
  | cons x l => exact hpath.1

theorem Path.found (hpath : Path a cursor stop l) :
    ∀ h ∈ l.map Prod.fst, ∃ link, a.get? h = some link := by
  induction l generalizing cursor with
  | nil => exact nofun
  | cons x l ih =>
    obtain ⟨-, next, hget, hrest⟩ := hpath
    rw [List.map_cons, List.forall_mem_cons]
    exact ⟨⟨_, hget⟩, ih hrest⟩

theorem Path.valuesFrom_eq (hpath : Path a cursor none l) {steps : Nat}
    (hsteps : l.length ≤ steps) : valuesFrom a cursor steps = l.map Prod.snd := by
  induction l generalizing cursor steps with
  | nil =>
    obtain rfl : cursor = none := hpath
    cases steps <;> rfl
  | cons x l ih =>
    obtain ⟨rfl, next, hget, hrest⟩ := hpath
    cases steps with
    | zero => cases hsteps
    | succ steps =>
      rw [valuesFrom, Option.bind_some, hget]
      exact congrArg _ (ih hrest (Nat.le_of_succ_le_succ hsteps))

/-- A path leads elsewhere when its last link does. -/
theorem Path.redirect {stop' : Option Arena.Handle} (hpath : Path a cursor stop l)
    (hnodup : (l.map Prod.fst).Nodup)
    (hlast : ∀ last ∈ l.getLast?, a'.get? last.1 = some ⟨last.2, stop'⟩)
    (hsame : ∀ h ∈ l.map Prod.fst, (∀ last ∈ l.getLast?, h ≠ last.1) → a'.get? h = a.get? h) :
    Path a' (if l = [] then stop' else cursor) stop' l := by
  rcases List.eq_nil_or_concat l with rfl | ⟨before, ⟨last, u⟩, rfl⟩
  · exact if_pos rfl
  · rw [List.concat_eq_append] at *
    obtain ⟨_, hbefore, rfl, _⟩ := path_append.1 hpath
    rw [List.map_append, List.nodup_append] at hnodup
    rw [if_neg (List.append_ne_nil_of_right_ne_nil _ (List.cons_ne_nil _ _))]
    have hend := hlast (last, u) (List.getLast?_concat ..)
    refine path_append.2 ⟨some last, hbefore.congr fun h hmem => ?_, rfl, _, hend, rfl⟩
    refine hsame h (by rw [List.map_append]; exact List.mem_append_left _ hmem) ?_
    rintro last' hlast' rfl
    rw [List.getLast?_concat, Option.mem_some_iff] at hlast'
    subst hlast'
    exact hnodup.2.2 _ hmem _ (List.mem_singleton_self _) rfl

end Path

variable {c c' : Chain α} {l l' : List (Arena.Handle × α)} {v : α}

theorem Holds.length_le (h : c.Holds l) : l.length ≤ c.capacity := by
  have hlength := Arena.length_le_size h.nodup h.path.found
  rwa [List.length_map] at hlength

theorem Holds.toList_eq (h : c.Holds l) : c.toList = l.map Prod.snd :=
  h.path.valuesFrom_eq h.length_le

theorem holds_empty (capacity : Nat) : Holds { arena := .empty capacity : Chain α } [] where
  path := rfl
  tail_eq := rfl
  nodup := .nil
  all h link hget := by
    rw [Arena.get?_eq_some] at hget
    obtain ⟨hlt, hslot⟩ := Array.getElem?_eq_some_iff.1 hget
    simp [Arena.empty] at hslot

/-! ### Adding a value -/

variable {kept rest : List (Arena.Handle × α)} {handle : Arena.Handle}

/-- What a chain holds whose arena finds `v` behind some links of the chain, and leads on to the
others. -/
theorem Holds.splice (h : c.Holds (kept ++ rest))
    (hnew : handle ∉ (kept ++ rest).map Prod.fst)
    (hhead : c'.head = if kept = [] then some handle else c.head)
    (htail : c'.tail = if rest = [] then some handle else c.tail)
    (hself : c'.arena.get? handle = some ⟨v, rest.head?.map Prod.fst⟩)
    (hlast : ∀ last ∈ kept.getLast?, c'.arena.get? last.1 = some ⟨last.2, some handle⟩)
    (hother : ∀ h', h' ≠ handle → (∀ last ∈ kept.getLast?, h' ≠ last.1) →
      c'.arena.get? h' = c.arena.get? h') : c'.Holds (kept ++ (handle, v) :: rest) := by
  have hnodup := h.nodup
  rw [List.map_append, List.nodup_append] at hnodup
  rw [List.map_append, List.mem_append, not_or] at hnew
  obtain ⟨middle, hkept, hrest⟩ := path_append.1 h.path
  have hnext := hrest.head?_eq
  refine ⟨?_, ?_, ?_, ?_⟩
  · have hbehind : Path c'.arena (rest.head?.map Prod.fst) none rest := by
      rw [← hnext]
      refine hrest.congr fun h' hmem => hother h' ?_ ?_
      · rintro rfl
        exact hnew.2 hmem
      · rintro last hlast' rfl
        exact hnodup.2.2 _ (List.mem_map_of_mem (List.mem_of_getLast? hlast')) _ hmem rfl
    refine path_append.2 ⟨some handle, ?_, rfl, _, hself, hbehind⟩
    rw [hhead]
    refine hkept.redirect hnodup.1 hlast fun h' hmem hne => hother h' ?_ hne
    rintro rfl
    exact hnew.1 hmem
  · rw [htail, List.getLast?_append]
    cases rest with
    | nil => rfl
    | cons x rest =>
      rw [h.tail_eq, List.getLast?_append, List.getLast?_cons_cons, if_neg (List.cons_ne_nil _ _)]
  · rw [List.map_append, List.map_cons, List.nodup_append, List.nodup_cons]
    refine ⟨hnodup.1, ⟨hnew.2, hnodup.2.1⟩, fun h' hmem h'' hmem' => ?_⟩
    rcases List.mem_cons.1 hmem' with rfl | hmem'
    · rintro rfl
      exact hnew.1 hmem
    · exact hnodup.2.2 h' hmem h'' hmem'
  · intro h' link hget
    rw [List.map_append, List.map_cons, List.mem_append, List.mem_cons]
    by_cases hh' : h' = handle
    · exact .inr (.inl hh')
    · by_cases hends : ∃ last ∈ kept.getLast?, h' = last.1
      · obtain ⟨last, hmem, rfl⟩ := hends
        exact .inl (List.mem_map_of_mem (List.mem_of_getLast? hmem))
      · rw [hother h' hh' fun last hmem heq => hends ⟨last, hmem, heq⟩] at hget
        have hmem := h.all h' link hget
        rw [List.map_append, List.mem_append] at hmem
        exact hmem.imp_right .inr

/-- A new value comes between the links before it and those behind it. -/
theorem Holds.insertAfter (h : c.Holds (kept ++ rest))
    (hinsert : c.insertAfter (kept.getLast?.map Prod.fst) v = .ok c') :
    ∃ handle, c'.Holds (kept ++ (handle, v) :: rest) := by
  unfold Chain.insertAfter at hinsert
  split at hinsert
  · cases hinsert
  rename_i handle arena hstore
  refine ⟨handle, ?_⟩
  have hnew : handle ∉ (kept ++ rest).map Prod.fst := by
    intro hmem
    obtain ⟨link, hget⟩ := h.path.found handle hmem
    rw [Arena.get?_of_insert hstore rfl] at hget
    cases hget
  have hself := Arena.get?_insert_self hstore
  obtain ⟨middle, hkept, hrest⟩ := path_append.1 h.path
  obtain rfl := hrest.head?_eq
  rcases List.eq_nil_or_concat kept with rfl | ⟨before, ⟨last, u⟩, rfl⟩
  · have hhead : c.head = rest.head?.map Prod.fst := hkept
    simp only [List.getLast?_nil, Option.map_none, Option.elim_none, hhead, Option.isNone_none,
      if_true] at hinsert
    cases hinsert
    refine h.splice hnew rfl ?_ ?_ nofun fun h' hne _ => ?_
    · cases rest <;> rfl
    · exact Arena.get?_set_self hself _
    · simp [hself, hne, Arena.get?_insert_ne hstore hne]
  · rw [List.concat_eq_append] at *
    obtain ⟨middle, -, rfl, next, hget, rfl⟩ := path_append.1 hkept
    have hne : last ≠ handle := by
      rintro rfl
      rw [Arena.get?_of_insert hstore rfl] at hget
      cases hget
    have hlast : arena.get? last = some ⟨u, rest.head?.map Prod.fst⟩ := by
      rw [Arena.get?_insert_ne hstore hne, hget]
    have hself' : (arena.set last ⟨u, some handle⟩).get? handle = some ⟨v, none⟩ := by
      simp [hlast, hne.symm, hself]
    simp only [List.getLast?_concat, Option.map_some, Option.elim_some, hlast, Option.bind_some,
      Option.isNone_some, Bool.false_eq_true, if_false] at hinsert
    cases hinsert
    refine h.splice hnew ?_ ?_ ?_ ?_ fun h' hne' hnotlast => ?_
    · rw [if_neg (List.append_ne_nil_of_right_ne_nil _ (List.cons_ne_nil _ _))]
    · cases rest <;> rfl
    · exact Arena.get?_set_self hself' _
    · intro last' hlast'
      rw [List.getLast?_concat, Option.mem_some_iff] at hlast'
      subst hlast'
      simp [hself', hne, hlast]
    · have hne'' : h' ≠ last := hnotlast (last, u) (List.getLast?_concat ..)
      simp [hself', hne', hlast, hne'', Arena.get?_insert_ne hstore hne']

/-- A new value comes last. -/
theorem Holds.pushBack (h : c.Holds l) (hpush : c.pushBack v = .ok c') :
    ∃ handle, c'.Holds (l ++ [(handle, v)]) := by
  rw [Chain.pushBack, h.tail_eq] at hpush
  have hall : c.Holds (l ++ []) := by rwa [List.append_nil]
  exact hall.insertAfter hpush

/-- A chain that is full hands the very value back. -/
theorem eq_of_insertAfter_error {previous : Option Arena.Handle} {v' : α}
    (h : c.insertAfter previous v = .error v') : v' = v := by
  unfold Chain.insertAfter Arena.insert at h
  split at h
  · rename_i hinsert
    split at hinsert
    · cases hinsert
      cases h
      rfl
    · split at hinsert
      · cases hinsert
      · cases hinsert
        cases h
        rfl
  · cases h

/-- A walk along the links stops at the last one before `p`. -/
theorem Path.lastBefore_eq {a : Arena (Link α)} {cursor : Option Arena.Handle} (p : α → Bool)
    (kept : List (Arena.Handle × α)) (hpath : Path a cursor none rest) {steps : Nat}
    (hsteps : rest.length ≤ steps) :
    lastBefore a p (kept.getLast?.map Prod.fst) cursor steps =
      (kept ++ rest.takeWhile fun x => !p x.2).getLast?.map Prod.fst := by
  induction rest generalizing kept cursor steps with
  | nil =>
    obtain rfl : cursor = none := hpath
    rw [List.takeWhile_nil, List.append_nil]
    cases steps <;> rfl
  | cons x rest ih =>
    obtain ⟨handle, v⟩ := x
    obtain ⟨rfl, next, hget, hrest⟩ := hpath
    cases steps with
    | zero => cases hsteps
    | succ steps =>
      simp only [lastBefore, hget]
      split
      · rename_i hp
        rw [List.takeWhile_cons_of_neg (by simp [hp]), List.append_nil]
      · rename_i hp
        rw [List.takeWhile_cons_of_pos (by simp [hp]), List.append_cons,
          ← ih _ hrest (Nat.le_of_succ_le_succ hsteps), List.getLast?_concat]
        rfl

/-- What goes in before the first value that satisfies `p` goes behind the values before this. -/
theorem Holds.insertBefore_eq (h : c.Holds l) (p : α → Bool) (v : α) :
    c.insertBefore p v =
      c.insertAfter ((l.takeWhile fun x => !p x.2).getLast?.map Prod.fst) v := by
  have hlast := h.path.lastBefore_eq p [] h.length_le
  rw [List.nil_append, List.getLast?_nil, Option.map_none] at hlast
  rw [Chain.insertBefore, hlast]

/-! ### Taking values out -/

/-- What a chain holds whose arena has lost one link, and leads past it. -/
theorem Holds.cut (h : c.Holds (kept ++ (handle, v) :: rest))
    (hhead : c'.head = if kept = [] then rest.head?.map Prod.fst else c.head)
    (htail : c'.tail = (kept ++ rest).getLast?.map Prod.fst)
    (hgone : c'.arena.get? handle = none)
    (hlast : ∀ last ∈ kept.getLast?,
      c'.arena.get? last.1 = some ⟨last.2, rest.head?.map Prod.fst⟩)
    (hother : ∀ h', h' ≠ handle → (∀ last ∈ kept.getLast?, h' ≠ last.1) →
      c'.arena.get? h' = c.arena.get? h') : c'.Holds (kept ++ rest) := by
  have hnodup := h.nodup
  rw [List.map_append, List.map_cons, List.nodup_append, List.nodup_cons] at hnodup
  obtain ⟨hkept, ⟨hnotrest, hrest⟩, hapart⟩ := hnodup
  obtain ⟨_, hbefore, rfl, next, -, hpath⟩ := path_append.1 h.path
  have hnext := hpath.head?_eq
  refine ⟨?_, htail, ?_, ?_⟩
  · have hbehind : Path c'.arena (rest.head?.map Prod.fst) none rest := by
      rw [← hnext]
      refine hpath.congr fun h' hmem => hother h' ?_ ?_
      · rintro rfl
        exact hnotrest hmem
      · rintro last hlast' rfl
        exact hapart _ (List.mem_map_of_mem (List.mem_of_getLast? hlast')) _
          (List.mem_cons_of_mem _ hmem) rfl
    refine path_append.2 ⟨_, ?_, hbehind⟩
    rw [hhead]
    refine hbefore.redirect hkept hlast fun h' hmem hne => hother h' ?_ hne
    rintro rfl
    exact hapart _ hmem _ List.mem_cons_self rfl
  · rw [List.map_append, List.nodup_append]
    exact ⟨hkept, hrest, fun h' hmem h'' hmem' => hapart h' hmem h'' (List.mem_cons_of_mem _ hmem')⟩
  · intro h' link hget
    have hne : h' ≠ handle := by
      rintro rfl
      rw [hgone] at hget
      cases hget
    by_cases hends : ∃ last ∈ kept.getLast?, h' = last.1
    · obtain ⟨last, hmem, rfl⟩ := hends
      exact List.mem_map_of_mem (List.mem_append_left _ (List.mem_of_getLast? hmem))
    · rw [hother h' hne fun last hmem heq => hends ⟨last, hmem, heq⟩] at hget
      have hmem := h.all h' link hget
      rw [List.map_append, List.map_cons, List.mem_append, List.mem_cons] at hmem
      rw [List.map_append, List.mem_append]
      exact hmem.imp_right fun hmem => hmem.resolve_left hne

/-- A link is taken out between those before it and those behind it. -/
theorem Holds.unlink (h : c.Holds (kept ++ (handle, v) :: rest)) :
    c.arena.get? handle = some ⟨v, rest.head?.map Prod.fst⟩ ∧
    (c.unlink (kept.getLast?.map Prod.fst) handle (rest.head?.map Prod.fst)).Holds
      (kept ++ rest) := by
  obtain ⟨_, hbefore, rfl, next, hget, hpath⟩ := path_append.1 h.path
  obtain rfl := hpath.head?_eq
  refine ⟨hget, ?_⟩
  have htail : (if (rest.head?.map Prod.fst).isNone then kept.getLast?.map Prod.fst else c.tail) =
      (kept ++ rest).getLast?.map Prod.fst := by
    rw [h.tail_eq]
    cases rest with
    | nil =>
      rw [List.append_nil]
      rfl
    | cons x rest =>
      rw [List.getLast?_append, List.getLast?_append, List.getLast?_cons_cons]
      rfl
  rcases List.eq_nil_or_concat kept with rfl | ⟨before, ⟨p, u⟩, rfl⟩
  · obtain ⟨arena, hremove, -⟩ := Arena.remove_eq hget
    refine h.cut ?_ ?_ ?_ nofun fun h' hne _ => ?_
    · rfl
    · exact htail
    · simp only [Chain.unlink, List.getLast?_nil, Option.map_none, hremove, Option.elim_some]
      exact Arena.get?_remove_self hremove
    · simp only [Chain.unlink, List.getLast?_nil, Option.map_none, hremove, Option.elim_some]
      exact Arena.get?_remove_ne hremove hne
  · rw [List.concat_eq_append] at *
    have hnodup := h.nodup
    obtain ⟨_, -, rfl, next', hlast, -⟩ := path_append.1 hbefore
    have hne : handle ≠ p := by
      rintro rfl
      rw [List.map_append, List.map_append, List.nodup_append] at hnodup
      exact hnodup.2.2 _ (List.mem_append_right _ (List.mem_singleton_self _)) _
        List.mem_cons_self rfl
    have hget' : (c.arena.set p ⟨u, rest.head?.map Prod.fst⟩).get? handle =
        some ⟨v, rest.head?.map Prod.fst⟩ := by
      simp [hlast, hne, hget]
    obtain ⟨arena, hremove, -⟩ := Arena.remove_eq hget'
    have harena : (c.unlink (some p) handle (rest.head?.map Prod.fst)).arena = arena := by
      simp only [Chain.unlink, hlast, Option.elim_some, hremove]
    rw [List.getLast?_concat, Option.map_some]
    refine h.cut ?_ ?_ ?_ ?_ fun h' hne' hnotlast => ?_
    · rw [if_neg (List.append_ne_nil_of_right_ne_nil _ (List.cons_ne_nil _ _))]
      rfl
    · rw [List.getLast?_concat] at htail
      exact htail
    · rw [harena]
      exact Arena.get?_remove_self hremove
    · intro last' hlast'
      rw [List.getLast?_concat, Option.mem_some_iff] at hlast'
      subst hlast'
      simp [harena, Arena.get?_remove_ne hremove hne.symm, hlast]
    · have hne'' : h' ≠ p := hnotlast (p, u) (List.getLast?_concat ..)
      simp [harena, Arena.get?_remove_ne hremove hne', hlast, hne'']

theorem Holds.front?_eq (h : c.Holds l) : c.front? = l.head?.map Prod.snd := by
  cases l with
  | nil =>
    have hhead : c.head = none := h.path
    rw [front?, hhead]
    rfl
  | cons x rest =>
    obtain ⟨hhead, next, hget, -⟩ := h.path
    rw [front?, hhead, Option.bind_some, hget]
    rfl

/-- The first value can be taken. -/
theorem Holds.popFront_cons (h : c.Holds ((handle, v) :: rest)) :
    ∃ c', c.popFront = some (v, c') ∧ c'.Holds rest := by
  have hall : c.Holds ([] ++ (handle, v) :: rest) := h
  obtain ⟨hget, hrest⟩ := hall.unlink
  have hhead : c.head = some handle := h.path.1
  obtain ⟨arena, hremove, -⟩ := Arena.remove_eq hget
  have hpop : c.popFront = some (v, ⟨arena, rest.head?.map Prod.fst,
      if (rest.head?.map Prod.fst).isNone then none else c.tail⟩) := by
    simp only [Chain.popFront, hhead, Option.bind_eq_bind, Option.bind_some, hremove,
      Option.pure_def]
  refine ⟨_, hpop, ?_⟩
  simpa only [Chain.unlink, List.getLast?_nil, Option.map_none, hremove, Option.elim_some,
    Option.isNone_none, if_true, List.nil_append] using hrest

/-- The first value is the one that is taken. -/
theorem Holds.popFront (h : c.Holds l) (hpop : c.popFront = some (v, c')) :
    ∃ handle rest, l = (handle, v) :: rest ∧ c'.Holds rest := by
  cases l with
  | nil =>
    have hhead : c.head = none := h.path
    simp [Chain.popFront, hhead] at hpop
  | cons x rest =>
    obtain ⟨handle, u⟩ := x
    obtain ⟨c₁, hpop', hrest⟩ := h.popFront_cons
    rw [hpop'] at hpop
    cases hpop
    exact ⟨handle, rest, rfl, hrest⟩

/-- Walking along the links takes out what satisfies `p`, and leaves the rest in order. The walk
ends by itself, however many steps it is given beyond the length. -/
theorem Holds.drainFrom (p : α → Bool) (h : c.Holds (kept ++ rest)) :
    ∃ c', (∀ steps, rest.length ≤ steps →
        Chain.drainFrom p c (kept.getLast?.map Prod.fst) (rest.head?.map Prod.fst) steps =
          ((rest.map Prod.snd).filter p, c')) ∧
      c'.Holds (kept ++ rest.filter fun x => !p x.2) := by
  induction rest generalizing c kept with
  | nil =>
    refine ⟨c, ?_, h⟩
    intro steps _
    cases steps <;> rfl
  | cons x rest ih =>
    obtain ⟨handle, v⟩ := x
    obtain ⟨hget, hrest⟩ := h.unlink
    cases hp : p v with
    | true =>
      obtain ⟨c', hdrain, hholds⟩ := ih hrest
      refine ⟨c', ?_, ?_⟩
      · intro steps hsteps
        obtain ⟨steps, rfl⟩ := Nat.exists_eq_succ_of_ne_zero (Nat.ne_zero_of_lt hsteps)
        simp only [Chain.drainFrom, List.head?_cons, Option.map_some, hget, hp, if_true,
          hdrain steps (Nat.le_of_succ_le_succ hsteps)]
        rw [List.map_cons, List.filter_cons_of_pos hp]
      · rw [List.filter_cons_of_neg (by simp [hp])]
        exact hholds
    | false =>
      rw [List.append_cons] at h
      obtain ⟨c', hdrain, hholds⟩ := ih h
      refine ⟨c', ?_, ?_⟩
      · intro steps hsteps
        obtain ⟨steps, rfl⟩ := Nat.exists_eq_succ_of_ne_zero (Nat.ne_zero_of_lt hsteps)
        have hbehind := hdrain steps (Nat.le_of_succ_le_succ hsteps)
        rw [List.getLast?_concat] at hbehind
        simp only [Chain.drainFrom, List.head?_cons, Option.map_some, hget, hp,
          Bool.false_eq_true, if_false]
        rw [List.map_cons, List.filter_cons_of_neg (by simp [hp])]
        exact hbehind
      · rw [List.filter_cons_of_pos (by simp [hp]), List.append_cons]
        exact hholds

theorem Holds.drain (h : c.Holds l) (p : α → Bool) :
    (c.drain p).1 = (l.map Prod.snd).filter p ∧
      (c.drain p).2.Holds (l.filter fun x => !p x.2) := by
  have hall : c.Holds ([] ++ l) := h
  obtain ⟨c', hdrain, hholds⟩ := hall.drainFrom p
  rw [← h.path.head?_eq] at hdrain
  rw [Chain.drain]
  exact hdrain c.capacity h.length_le ▸ ⟨rfl, hholds⟩

theorem Holds.drainFrom_eq_drain (h : c.Holds l) (p : α → Bool) {steps : Nat}
    (hsteps : c.capacity ≤ steps) : Chain.drainFrom p c none c.head steps = c.drain p := by
  have hall : c.Holds ([] ++ l) := h
  obtain ⟨c', hdrain, -⟩ := hall.drainFrom p
  rw [← h.path.head?_eq] at hdrain
  have hlength := h.length_le
  exact (hdrain steps (by omega)).trans (hdrain c.capacity hlength).symm

end UsbHost.Chain
