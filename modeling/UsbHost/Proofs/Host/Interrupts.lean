import UsbHost.Proofs.Host.Events

/-!
Handling of events. Calls of the interrupt handler follow one another, while the controller posts
events before, between and during them. Each posted event is handed on once and in order, however
many a call may handle and wherever a turn of the ring ends; and a call that has handled any tells
the controller once how far it has come.
-/

namespace UsbHost

variable {σ ρ : Type}

namespace Host

variable {env : Env σ ρ} {j : EventJournal σ} {base : UInt64} {count taken : Nat}

/-! ### Handling up to a limit -/

/-- The events that `handleUpTo` hands on when it starts in `w`, first to last. If handing one on
ends in a fault, it is the last. -/
def handedOn (env : Env σ ρ) (listening : Bool) : (limit : Nat) → World σ ρ → List Event
  | 0, _ => []
  | limit + 1, w =>
    match nextEvent? w with
    | .ok (some (t, _)) w₁ =>
      .ofTrb t :: match dispatch env listening (.ofTrb t) w₁ with
        | .ok () w₂ => handedOn env listening limit w₂
        | .error _ _ => []
    | _ => []

theorem handedOn_of_ok {listening : Bool} {limit : Nat} {w w₁ w₂ : World σ ρ} {t : Trb}
    {address : UInt64} (hnext : nextEvent? w = .ok (some (t, address)) w₁)
    (hdispatch : dispatch env listening (.ofTrb t) w₁ = .ok () w₂) :
    handedOn env listening (limit + 1) w = .ofTrb t :: handedOn env listening limit w₂ := by
  simp only [handedOn, hnext, hdispatch]

theorem handedOn_of_error {listening : Bool} {limit : Nat} {w w₁ w₂ : World σ ρ} {t : Trb}
    {address : UInt64} {fault : Fault} (hnext : nextEvent? w = .ok (some (t, address)) w₁)
    (hdispatch : dispatch env listening (.ofTrb t) w₁ = .error fault w₂) :
    handedOn env listening (limit + 1) w = [.ofTrb t] := by
  simp only [handedOn, hnext, hdispatch]

theorem handedOn_of_none {listening : Bool} {limit : Nat} {w w₁ : World σ ρ}
    (hnext : nextEvent? w = .ok none w₁) : handedOn env listening (limit + 1) w = [] := by
  simp only [handedOn, hnext]

/-- From `w` to `w'` one event after another is taken off the ring and handed on, by the operations
of the handler. Handing on the last one may end in a fault. -/
inductive HandsOn (env : Env σ ρ) (listening : Bool) : World σ ρ → List Event → World σ ρ → Prop
  | nil (w : World σ ρ) : HandsOn env listening w [] w
  | cons {w w₁ w₂ w' : World σ ρ} {t : Trb} {address : UInt64} {es : List Event}
      (hnext : nextEvent? w = .ok (some (t, address)) w₁)
      (hdispatch : dispatch env listening (.ofTrb t) w₁ = .ok () w₂)
      (h : HandsOn env listening w₂ es w') : HandsOn env listening w (.ofTrb t :: es) w'
  | faulted {w w₁ w₂ : World σ ρ} {t : Trb} {address : UInt64} {fault : Fault}
      (hnext : nextEvent? w = .ok (some (t, address)) w₁)
      (hdispatch : dispatch env listening (.ofTrb t) w₁ = .error fault w₂) :
      HandsOn env listening w [.ofTrb t] w₂

/-- Looking for an event changes nothing, unless there is one. -/
theorem nextEvent?_ends (w : World σ ρ) :
    HostM.Ends nextEvent? w (· = w) fun next w' => next = none → w' = w := by
  have hcontroller : (HostM.controller : HostM σ ρ _) w = .ok w.controller w := rfl
  refine HostM.ends_bind_of_ok hcontroller ?_
  dsimp only
  split
  · exact HostM.ends_of_ok rfl fun _ => rfl
  · cases hconsume : w.controller.events.ring.consume with
    | error fault => exact HostM.ends_of_error rfl rfl
    | ok taken => exact HostM.ends_of_ok rfl nofun

/-- What `handedOn` lists is what the handler has handed on when it comes to its end. -/
theorem handsOn_handleUpTo (env : Env σ ρ) (listening : Bool) (dequeue : Option UInt64)
    (limit : Nat) (w : World σ ρ) :
    HostM.Ends (handleUpTo env listening dequeue limit) w
      (HandsOn env listening w (handedOn env listening limit w))
      fun _ => HandsOn env listening w (handedOn env listening limit w) := by
  induction limit generalizing w dequeue with
  | zero => exact HostM.ends_of_ok rfl (.nil w)
  | succ limit ih =>
    cases hnext : nextEvent? w with
    | error fault w₁ =>
      obtain rfl := (nextEvent?_ends w).of_error hnext
      refine HostM.ends_of_error (HostM.bind_of_error hnext) ?_
      simp only [handedOn, hnext]
      exact .nil w₁
    | ok next w₁ =>
      refine HostM.ends_bind_of_ok hnext ?_
      cases next with
      | none =>
        obtain rfl := (nextEvent?_ends w).of_ok hnext rfl
        rw [handedOn_of_none hnext]
        exact HostM.ends_of_ok rfl (.nil w₁)
      | some next =>
        obtain ⟨t, address⟩ := next
        cases hdispatch : dispatch env listening (.ofTrb t) w₁ with
        | ok u w₂ =>
          rw [handedOn_of_ok hnext hdispatch]
          exact HostM.ends_bind_of_ok hdispatch ((ih (some address) w₂).mono
            (fun _ => .cons hnext hdispatch) fun _ _ => .cons hnext hdispatch)
        | error fault w₂ =>
          rw [handedOn_of_error hnext hdispatch]
          exact HostM.ends_of_error (HostM.bind_of_error hdispatch) (.faulted hnext hdispatch)

/-- The address behind the last of `taken` events. -/
def pointerAfter (base : UInt64) (count taken : Nat) : UInt64 :=
  base + UInt64.ofNat (taken % count * Trb.byteSize)

theorem nextEvent?_none {w : World σ ρ} (hw : w.Serves j base count taken)
    (hnone : (w.posted j).length ≤ taken) : nextEvent? w = .ok none w := by
  have hpeek : w.controller.events.ring.peek? = none := by
    rw [hw.follows.peek?_eq, List.getElem?_eq_none hnone]
    rfl
  have hcontroller : (HostM.controller : HostM σ ρ _) w = .ok w.controller w := rfl
  unfold nextEvent?
  rw [HostM.bind_of_ok hcontroller]
  simp only [hpeek]
  rfl

/-- Taking an event off gives the oldest one that has not been taken. -/
theorem nextEvent?_some {w : World σ ρ} (hw : w.Serves j base count taken)
    (hsome : taken < (w.posted j).length) : ∃ t w₁,
      nextEvent? w = .ok (some (t, pointerAfter base count (taken + 1))) w₁ ∧
      w₁.Serves j base count (taken + 1) ∧ Event.ofTrb t = .ofTrb (w.posted j)[taken] ∧
      w₁.posted j = w.posted j ∧ w₁.pointers j = w.pointers j := by
  have hpeek := hw.follows.peek?_eq
  rw [List.getElem?_eq_getElem hsome, Option.map_some] at hpeek
  have hfits : Ring.Fits w.controller.events.ring.base w.controller.events.ring.trbs.size := by
    rw [hw.base_eq, hw.size_eq]
    exact hw.fits
  have hconsume := hw.follows.consume_eq hfits
  have hcontroller : (HostM.controller : HostM σ ρ _) w = .ok w.controller w := rfl
  refine ⟨(w.posted j)[taken].withCycle
      (Ring.lapCycle (taken / w.controller.events.ring.trbs.size)),
    { w with controller.events.ring := w.controller.events.ring.advance }, ?_, ?_,
    Event.ofTrb_withCycle _ _, rfl, rfl⟩
  · unfold nextEvent?
    rw [HostM.bind_of_ok hcontroller]
    simp only [hpeek, hconsume, hw.base_eq, hw.size_eq]
    rfl
  · obtain ⟨hbase, htrbs⟩ := w.controller.events.ring.advance_frame
    exact ⟨hbase.trans hw.base_eq, (congrArg Array.size htrbs).trans hw.size_eq, hw.fits,
      hw.follows.advance hsome⟩

/-- Between `w` and `w'` exactly the events of `es` have been taken off and handed on, and the
controller has been told the dequeue pointers `told`. -/
structure Drains (j : EventJournal σ) (base : UInt64) (count taken : Nat) (w : World σ ρ)
    (es : List Event) (told : List UInt64) (w' : World σ ρ) : Prop where
  serves : w'.Serves j base count (taken + es.length)
  events_eq : (((w'.posted j).drop taken).take es.length).map Event.ofTrb = es
  posted_grows : w.posted j <+: w'.posted j
  pointers_eq : w'.pointers j = w.pointers j ++ told

theorem Drains.nil {w : World σ ρ} (hw : w.Serves j base count taken) :
    Drains j base count taken w [] [] w :=
  ⟨hw, rfl, List.prefix_rfl, (List.append_nil _).symm⟩

/-- One event is taken off and handed on, and then others are. -/
theorem Drains.cons {w w₁ w₂ w' : World σ ρ} {t : Trb} {es : List Event} {told : List UInt64}
    (hsome : taken < (w.posted j).length) (hevent : Event.ofTrb t = .ofTrb (w.posted j)[taken])
    (hposted : w₁.posted j = w.posted j) (hpointers : w₁.pointers j = w.pointers j)
    (hfeeds : w₁.Feeds j (taken + 1) w₂)
    (h : Drains j base count (taken + 1) w₂ es told w') :
    Drains j base count taken w (.ofTrb t :: es) told w' := by
  obtain ⟨hposted', hpointers'⟩ := hfeeds.frame
  have holdest : w.posted j <+: w'.posted j := hposted ▸ hposted'.trans h.posted_grows
  have hlt : taken < (w'.posted j).length := Nat.lt_of_lt_of_le hsome holdest.length_le
  refine ⟨?_, ?_, holdest, ?_⟩
  · have hserves := h.serves
    rwa [Nat.add_right_comm, Nat.add_assoc] at hserves
  · rw [List.drop_eq_getElem_cons hlt, List.length_cons, List.take_succ_cons, List.map_cons,
      h.events_eq, hevent, holdest.getElem hsome]
  · rw [h.pointers_eq, hpointers', hpointers]

/-- The dequeue pointer is written once all events have been handed on. -/
theorem Drains.write {w w' : World σ ρ} {es : List Event} (h : Drains j base count taken w es [] w')
    {platform : Platform σ} (hnotes : j.Notes platform) (address : UInt64) :
    Drains j base count taken w es [address]
      { w' with bus.platform := platform.writeEventDequeue address w'.bus.platform } where
  serves := by
    refine ⟨h.serves.base_eq, h.serves.size_eq, h.serves.fits, ?_⟩
    have hfollows := h.serves.follows
    rwa [← hnotes.source_eq address, World.posted, ← hnotes.posted_eq address] at hfollows
  events_eq := by
    have hevents := h.events_eq
    rwa [World.posted, ← hnotes.posted_eq address] at hevents
  posted_grows := by
    rw [World.posted, World.posted]
    exact (hnotes.posted_eq address w'.bus.platform).symm ▸ h.posted_grows
  pointers_eq := by
    have hpointers := h.pointers_eq
    rw [List.append_nil] at hpointers
    rw [← hpointers]
    exact hnotes.pointers_eq address w'.bus.platform

/-- If those handed on before were the oldest ones, all of them are. -/
theorem Drains.oldest {w w' : World σ ρ} {before es : List Event} {told : List UInt64}
    (h : Drains j base count before.length w es told w')
    (hbefore : before <+: (w.posted j).map Event.ofTrb) :
    before ++ es <+: (w'.posted j).map Event.ofTrb := by
  have hafter := hbefore.trans (h.posted_grows.map Event.ofTrb)
  rw [List.prefix_iff_eq_take, List.length_append, List.take_add,
    ← List.prefix_iff_eq_take.1 hafter, ← List.map_drop, ← List.map_take, h.events_eq]

/-- Handling takes off and hands on events until it has reached its limit or there are none left.
It comes to a stop before that only if handing one of them on ends in a fault. -/
theorem handleUpTo_ends (henv : env.Feeds j base count) (listening : Bool)
    (dequeue : Option UInt64) (limit : Nat) {w : World σ ρ}
    (hw : w.Serves j base count taken) :
    HostM.Ends (handleUpTo env listening dequeue limit) w
      (fun w' => Drains j base count taken w (handedOn env listening limit w) [] w' ∧
        ∃ event ∈ handedOn env listening limit w, ∃ w₁ fault,
          dispatch env listening event w₁ = .error fault w')
      (fun result w' => Drains j base count taken w (handedOn env listening limit w) [] w' ∧
        (handedOn env listening limit w).length =
          min limit ((w'.posted j).length - taken) ∧
        result = if handedOn env listening limit w = [] then dequeue else
          some (pointerAfter base count (taken + (handedOn env listening limit w).length))) := by
  induction limit generalizing w taken dequeue with
  | zero => exact HostM.ends_of_ok rfl ⟨.nil hw, (Nat.zero_min _).symm, rfl⟩
  | succ limit ih =>
    rcases Nat.lt_or_ge taken (w.posted j).length with hsome | hnone
    · obtain ⟨t, w₁, hnext, hserves, hevent, hposted, hpointers⟩ := nextEvent?_some hw hsome
      have hfeeds := feeds_dispatch henv (taken + 1) listening (.ofTrb t) w₁
      refine HostM.ends_bind_of_ok hnext ?_
      cases hdispatch : dispatch env listening (.ofTrb t) w₁ with
      | ok u w₂ =>
        have hfed := hfeeds.of_ok hdispatch hserves
        have hlist : handedOn env listening (limit + 1) w =
            .ofTrb t :: handedOn env listening limit w₂ := handedOn_of_ok hnext hdispatch
        refine HostM.ends_bind_of_ok hdispatch ?_
        refine (ih (some _) (hfed.serves hserves)).mono ?_ ?_
        · rintro w' ⟨hdrains, event, hmem, hfault⟩
          rw [hlist]
          exact ⟨hdrains.cons hsome hevent hposted hpointers hfed, event,
            List.mem_cons_of_mem _ hmem, hfault⟩
        · rintro result w' ⟨hdrains, hlength, hresult⟩
          have hmore := hdrains.serves.follows.taken_le
          rw [hlist, List.length_cons]
          refine ⟨hdrains.cons hsome hevent hposted hpointers hfed, by omega, ?_⟩
          rw [hresult, if_neg (List.cons_ne_nil _ _)]
          split
          · rename_i hnil
            rw [hnil]
            rfl
          · rw [Nat.add_assoc, Nat.add_comm 1]
      | error fault w₂ =>
        have hfed := hfeeds.of_error hdispatch hserves
        have hlist : handedOn env listening (limit + 1) w = [.ofTrb t] :=
          handedOn_of_error hnext hdispatch
        refine HostM.ends_of_error (HostM.bind_of_error hdispatch) ?_
        rw [hlist]
        exact ⟨.cons hsome hevent hposted hpointers hfed (.nil (hfed.serves hserves)), _,
          List.mem_singleton_self _, w₁, fault, hdispatch⟩
    · have hnext := nextEvent?_none hw hnone
      have hlist : handedOn env listening (limit + 1) w = [] := handedOn_of_none hnext
      refine HostM.ends_bind_of_ok hnext (HostM.ends_of_ok rfl ?_)
      rw [hlist, Nat.sub_eq_zero_of_le hnone, Nat.min_zero]
      exact ⟨.nil hw, rfl, rfl⟩

/-! ### Calls of the handler -/

/-- The events that one call of the handler hands on when it starts in `w`, first to last. -/
def handedOnByCall (env : Env σ ρ) (w : World σ ρ) : List Event :=
  handedOn env w.controller.rootHub w.controller.events.maxEvents w

/-- What `handedOnByCall` lists is what the call has handed on; all that is left to do behind it is
to tell the controller how far it has come. -/
theorem handsOn_handleInterrupt (env : Env σ ρ) (w : World σ ρ) :
    HostM.Ends (handleInterrupt env) w
      (HandsOn env w.controller.rootHub w (handedOnByCall env w))
      fun result w' => ∃ w₁, HandsOn env w.controller.rootHub w (handedOnByCall env w) w₁ ∧
        w' = result.elim w₁ fun address =>
          { w₁ with bus.platform := env.writeEventDequeue address w₁.bus.platform } := by
  have hcontroller : (HostM.controller : HostM σ ρ _) w = .ok w.controller w := rfl
  refine HostM.ends_bind_of_ok hcontroller ?_
  refine (handsOn_handleUpTo env w.controller.rootHub none _ w).bind fun result w₁ hhandsOn => ?_
  cases result with
  | none => exact HostM.ends_of_ok rfl ⟨w₁, hhandsOn, rfl⟩
  | some address =>
    have hwrite : (HostM.onPlatform (env.writeEventDequeue address) : HostM σ ρ Unit) w₁ = .ok ()
        { w₁ with bus.platform := env.writeEventDequeue address w₁.bus.platform } := rfl
    exact HostM.ends_bind_of_ok hwrite (HostM.ends_of_ok rfl ⟨w₁, hhandsOn, rfl⟩)

/-- A call that has handled events tells the controller, once, the address behind the last one. -/
theorem handleInterrupt_ends (henv : env.Feeds j base count) {w : World σ ρ}
    (hw : w.Serves j base count taken) :
    HostM.Ends (handleInterrupt env) w
      (fun w' => Drains j base count taken w (handedOnByCall env w) [] w' ∧
        ∃ event ∈ handedOnByCall env w, ∃ w₁ fault,
          dispatch env w.controller.rootHub event w₁ = .error fault w')
      (fun result w' =>
        Drains j base count taken w (handedOnByCall env w) result.toList w' ∧
        (handedOnByCall env w).length =
          min w.controller.events.maxEvents ((w'.posted j).length - taken) ∧
        result = if handedOnByCall env w = [] then none else
          some (pointerAfter base count (taken + (handedOnByCall env w).length))) := by
  have hcontroller : (HostM.controller : HostM σ ρ _) w = .ok w.controller w := rfl
  refine HostM.ends_bind_of_ok hcontroller ?_
  refine (handleUpTo_ends henv w.controller.rootHub none _ hw).bind ?_
  rintro result w₁ ⟨hdrains, hlength, hresult⟩
  cases result with
  | none => exact HostM.ends_of_ok rfl ⟨hdrains, hlength, hresult⟩
  | some address =>
    have hwrite : (HostM.onPlatform (env.writeEventDequeue address) : HostM σ ρ Unit) w₁ = .ok ()
        { w₁ with bus.platform := env.writeEventDequeue address w₁.bus.platform } := rfl
    refine HostM.ends_bind_of_ok hwrite (HostM.ends_of_ok rfl ?_)
    refine ⟨hdrains.write henv.notes address, ?_, hresult⟩
    have hposted := henv.notes.posted_eq address w₁.bus.platform
    exact hlength.trans (congrArg (fun posted => min _ (posted.length - taken)) hposted.symm)

/-! ### Runs -/

/-- The worlds of a host with an event ring of `count` TRBs at `base`, and the events handed on so
far, oldest first. The controller posts events and calls handle them, in any order. -/
inductive Handling (j : EventJournal σ) (base : UInt64) (count : Nat) :
    World σ ρ → List Event → Prop
  | start {w : World σ ρ} (hring : w.controller.events.ring = .create count base)
      (hsource : j.source w.bus.platform = {}) (hposted : w.posted j = []) :
      Handling j base count w []
  | meanwhile {w w' : World σ ρ} {es : List Event} (h : Handling j base count w es)
      (hfeeds : w.Feeds j es.length w') : Handling j base count w' es
  | call {w : World σ ρ} {es : List Event} (h : Handling j base count w es) (env : Env σ ρ)
      (henv : env.Feeds j base count) :
      Handling j base count (w.after (handleInterrupt env)) (es ++ handedOnByCall env w)

/-- As many events have been taken off as have been handed on, and they are the oldest. -/
theorem Handling.serves (hcount : 0 < count) (hfits : Ring.Fits base count) {w : World σ ρ}
    {es : List Event} (h : Handling j base count w es) :
    w.Serves j base count es.length ∧ es <+: (w.posted j).map Event.ofTrb := by
  induction h with
  | start hring hsource hposted =>
    refine ⟨⟨?_, ?_, hfits, ?_⟩, List.nil_prefix⟩
    · rw [hring]
      rfl
    · rw [hring]
      exact Array.size_replicate
    · rw [hring, hsource, hposted]
      exact EventRing.follows_create hcount base
  | meanwhile _ hfeeds ih =>
    exact ⟨hfeeds.serves ih.1, ih.2.trans (hfeeds.frame.1.map _)⟩
  | @call w es h env henv ih =>
    have hends : HostM.Ends (handleInterrupt env) w
        (fun w' => ∃ told, Drains j base count es.length w (handedOnByCall env w) told w')
        fun _ w' => ∃ told, Drains j base count es.length w (handedOnByCall env w) told w' :=
      (handleInterrupt_ends henv ih.1).mono (fun _ h => ⟨_, h.1⟩) fun _ _ h => ⟨_, h.1⟩
    obtain ⟨told, hdrains⟩ := World.after_of_ends hends
    exact ⟨by rw [List.length_append]; exact hdrains.serves, hdrains.oldest ih.2⟩

/-- However the controller posts its events, whatever the size of its ring and however many a call
may handle: the events handed on are the oldest ones posted, in order; some are pending exactly if
not all have been handed on; and the next call hands on as many as it may and there are, and writes
the dequeue pointer behind the last of them, once, or writes nothing if there are none. A call does
not return only if handing an event on ends in a fault. The events of a call are those that its own
operations take off the ring and hand on (`handsOn_handleInterrupt`). -/
theorem events_handed_on_in_order {layout : Dma.Layout}
    (hlayout : (Ring.layout count).run = .ok (.ok layout)) (hfits : Ring.Fits base count)
    {w : World σ ρ} {es : List Event} (h : Handling j base count w es) :
    es <+: (w.posted j).map Event.ofTrb ∧
    (w.controller.events.hasPending = true ↔ es.length < (w.posted j).length) ∧
    ∀ env : Env σ ρ, env.Feeds j base count →
      HostM.Ends (handleInterrupt env) w
        (fun w' => es ++ handedOnByCall env w <+: (w'.posted j).map Event.ofTrb ∧
          ∃ event ∈ handedOnByCall env w, ∃ w₁ fault,
            dispatch env w.controller.rootHub event w₁ = .error fault w')
        (fun result w' => es ++ handedOnByCall env w <+: (w'.posted j).map Event.ofTrb ∧
          (handedOnByCall env w).length =
            min w.controller.events.maxEvents ((w'.posted j).length - es.length) ∧
          (result = if handedOnByCall env w = [] then none else
            some (base + UInt64.ofNat
              ((es.length + (handedOnByCall env w).length) % count * Trb.byteSize))) ∧
          w'.pointers j = w.pointers j ++ result.toList) := by
  have hcount : 0 < count := Nat.lt_of_lt_of_le (by decide) (Ring.layout_bounds hlayout).1
  obtain ⟨hserves, holdest⟩ := h.serves hcount hfits
  refine ⟨holdest, hserves.hasPending_iff, fun env henv => ?_⟩
  refine (handleInterrupt_ends henv hserves).mono ?_ ?_
  · rintro w' ⟨hdrains, hfault⟩
    exact ⟨hdrains.oldest holdest, hfault⟩
  · rintro result w' ⟨hdrains, hlength, hresult⟩
    exact ⟨hdrains.oldest holdest, hlength, hresult, hdrains.pointers_eq⟩

end Host

/-- A controller that posts events and does nothing else. -/
structure Sender where
  source : EventSource := {}
  posted : List Trb := []
  pointers : List UInt64 := []

namespace Sender

open Host

def journal : EventJournal Sender := ⟨source, posted, pointers⟩

/-- Nothing happens while events are handed on. -/
def env : Env Sender Unit where
  now _ := 0
  busAddress _ s := (0, s)
  doorbell _ _ s := s
  setCommandRing _ _ s := s
  setEventRing _ _ _ s := s
  writeEventDequeue address s := { s with pointers := s.pointers ++ [address] }
  setContextArray _ _ s := s
  yieldNow := pure ()
  complete _ _ := pure ()
  portChanged _ := pure ()
  patience := 0

theorem feeds : env.Feeds journal 0x1000 Config.minRingSize where
  notes := ⟨fun _ _ => rfl, fun _ _ => rfl, fun _ _ => rfl⟩
  complete _ _ _ := .pure ()
  portChanged _ _ := .pure ()

/-- A host that handles two events at a time. -/
def idle : World Sender Unit where
  bus := { platform := {} }
  controller := { (default : Controller) with
    events :=
      { ring := .create Config.minRingSize 0x1000
        segments := default
        segmentsAddress := 0x2000
        maxEvents := 2 }
    rootHub := true }

/-- The status of a port has changed, and the controller posts it. -/
def tell (port : UInt64) (w : World Sender Unit) : World Sender Unit :=
  let t : Trb := ⟨port <<< 24, 0, Trb.Kind.portStatusChange.controlBits⟩
  let (source, ring) := w.bus.platform.source.post w.controller.events.ring t
  { w with
    bus.platform := { w.bus.platform with
      source := source
      posted := w.bus.platform.posted ++ [t] }
    controller.events.ring := ring }

theorem handling_tell {w : World Sender Unit} {es : List Event}
    (h : Handling journal 0x1000 Config.minRingSize w es) (port : UInt64)
    (hroom : (w.posted journal).length < es.length + w.controller.events.ring.trbs.size) :
    Handling journal 0x1000 Config.minRingSize (tell port w) es :=
  h.meanwhile (.post _ hroom rfl rfl rfl rfl)

/-- Three events have been posted and two of them handled. -/
def behind : World Sender Unit := (tell 3 (tell 2 (tell 1 idle))).after (handleInterrupt env)

theorem handling_behind : Handling journal 0x1000 Config.minRingSize behind [.port 1, .port 2] := by
  have hthree : Handling journal 0x1000 Config.minRingSize (tell 3 (tell 2 (tell 1 idle))) [] :=
    handling_tell (handling_tell (handling_tell (.start rfl rfl rfl) 1 (by decide)) 2
      (by decide)) 3 (by decide)
  have hevents : handedOnByCall env (tell 3 (tell 2 (tell 1 idle))) = [.port 1, .port 2] := by
    decide +kernel
  exact hevents ▸ hthree.call env feeds

/-- The next call hands on the third event and goes on to the fourth place of the ring. -/
theorem events_handed_on_when_behind :
    (Ring.layout Config.minRingSize).run = .ok (.ok ⟨256, 256⟩) ∧
    Ring.Fits 0x1000 Config.minRingSize ∧
    Handling journal 0x1000 Config.minRingSize behind [.port 1, .port 2] ∧
    [.port 1, .port 2] <+: (behind.posted journal).map Event.ofTrb ∧
    behind.controller.events.hasPending = true ∧
    handedOnByCall env behind = [.port 3] ∧
    HostM.Ends (handleInterrupt env) behind (fun _ => False)
      (fun result w' => result = some (0x1000 + 3 * 16) ∧
        w'.pointers journal = [0x1000 + 2 * 16, 0x1000 + 3 * 16]) := by
  have hfits : Ring.Fits 0x1000 Config.minRingSize := by decide
  obtain ⟨holdest, hpending, hcall⟩ :=
    events_handed_on_in_order Ring.layout_minRingSize hfits handling_behind
  have hevents : handedOnByCall env behind = [.port 3] := by decide +kernel
  have hreturns : ∀ w : World Sender Unit,
      dispatch env behind.controller.rootHub (.port 3) w = .ok () w := by
    intro w
    unfold dispatch
    split <;> rfl
  have hpointers : behind.pointers journal = [0x1000 + 2 * 16] := by decide +kernel
  have hnext := hcall env feeds
  rw [hevents] at hnext
  refine ⟨Ring.layout_minRingSize, hfits, handling_behind, holdest,
    hpending.2 (by decide +kernel), hevents, hnext.mono ?_ ?_⟩
  · rintro w' ⟨-, event, hmem, w₁, fault, hfault⟩
    rw [List.mem_singleton.1 hmem, hreturns] at hfault
    cases hfault
  · rintro result w' ⟨-, -, rfl, htold⟩
    rw [hpointers] at htold
    exact ⟨rfl, htold⟩

end Sender

end UsbHost
