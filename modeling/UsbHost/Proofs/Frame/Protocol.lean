import Mathlib.Data.List.DropRight
import UsbHost.Proofs.Frame.Steps

/-!
The split protocol of interrupt, control and bulk transfers. Whoever drives a channel may make the
calls of a scheduler in any order; calls out of order are faults. What the scheduler admits is
written down in a log, call by call. In every log a start split comes only after the outcome of the
one before has been decided, complete splits come only between the acknowledgement and the decision,
and there are no more of them than the scheduler has allowed for at the first one.
-/

namespace UsbHost.Frame.Scheduler

/-! ### Logs -/

/-- A call that has been made, and the scheduler before and after. -/
structure Entry where
  before : Scheduler
  call : Call
  more : Bool
  after : Scheduler

/-- Make calls one after another, and write them down. -/
def log (s : Scheduler) : List Call → Except Fault (List Entry)
  | [] => .ok []
  | call :: calls => do
    let (more, s') ← s.perform call
    return ⟨s, call, more, s'⟩ :: (← s'.log calls)

namespace Entry

def isStart (x : Entry) : Bool := x.call == .start

/-- The start split that is underway has been acknowledged. -/
def Acknowledges (x : Entry) : Prop :=
  ∃ status, x.call = .finish status ∧ x.before.phase = .startSplit ∧ status.contains .ack = true

/-- The outcome of the split has been decided. -/
def Decides (x : Entry) : Prop :=
  (∃ status, x.call = .finish status) ∧ x.after.phase.isDecided = true

/-- A complete split has finished. -/
def isCompletion (x : Entry) : Bool :=
  x.call matches .finish _ && x.before.phase.isCompleting

end Entry

/-- What the log of a scheduler with retries looks like. A split is the part of the log from a start
split up to the next one, if there is one. -/
structure Orderly (entries : List Entry) : Prop where
  decided_between : ∀ before first split second later,
    entries = before ++ first :: split ++ second :: later → first.isStart = true →
    (∀ x ∈ split, x.isStart = false) → second.isStart = true → ∃ x ∈ split, x.Decides
  acknowledged_before : ∀ before x later, entries = before ++ x :: later → x.call = .complete →
    x.more = true → ∃ earlier first split, before = earlier ++ first :: split ∧
      first.isStart = true ∧ (∀ y ∈ split, y.isStart = false) ∧ (∃ y ∈ split, y.Acknowledges) ∧
      ∀ y ∈ split, ¬ y.Decides
  completions_le : ∀ before first split later, entries = before ++ first :: split ++ later →
    first.isStart = true → (∀ x ∈ split, x.isStart = false) →
    split.countP Entry.isCompletion ≤ 4 ∧
    ∀ p waiting x rest, split = waiting ++ x :: rest → (∀ y ∈ waiting, y.call ≠ .complete) →
      x.call = .complete → x.before = periodic p → p.microframe = some 5 →
      split.countP Entry.isCompletion ≤ 3

/-! ### The split that is underway -/

/-- The part of a log since the last start split. -/
def split (entries : List Entry) : List Entry := entries.rtakeWhile fun x => !x.isStart

theorem split_concat_start {entries : List Entry} {x : Entry} (hx : x.isStart = true) :
    split (entries ++ [x]) = [] :=
  List.rtakeWhile_concat_neg _ _ x (by simp [hx])

theorem split_concat {entries : List Entry} {x : Entry} (hx : x.isStart = false) :
    split (entries ++ [x]) = split entries ++ [x] :=
  List.rtakeWhile_concat_pos _ _ x (by simp [hx])

theorem split_append {earlier rest : List Entry} {first : Entry} (hfirst : first.isStart = true)
    (hrest : ∀ x ∈ rest, x.isStart = false) : split (earlier ++ first :: rest) = rest := by
  induction rest using List.reverseRecOn with
  | nil => exact split_concat_start hfirst
  | append_singleton rest x ih =>
    rw [← List.cons_append, ← List.append_assoc, split_concat (hrest x (by simp)),
      ih fun y hy => hrest y (List.mem_append_left _ hy)]

/-- A log with a start split ends in the part since the last one. -/
theorem exists_append_split {entries : List Entry} (h : ∃ x ∈ entries, x.isStart = true) :
    ∃ earlier first, entries = earlier ++ first :: split entries ∧ first.isStart = true ∧
      ∀ y ∈ split entries, y.isStart = false := by
  induction entries using List.reverseRecOn with
  | nil =>
    obtain ⟨_, hx, -⟩ := h
    cases hx
  | append_singleton entries x ih =>
    cases hx : x.isStart with
    | true =>
      rw [split_concat_start hx]
      exact ⟨entries, x, rfl, hx, fun _ hy => absurd hy List.not_mem_nil⟩
    | false =>
      have hbefore : ∃ y ∈ entries, y.isStart = true := by
        obtain ⟨y, hy, hstart⟩ := h
        rcases List.mem_append.1 hy with hy | hy
        · exact ⟨y, hy, hstart⟩
        · rw [List.mem_singleton.1 hy, hx] at hstart
          cases hstart
      obtain ⟨earlier, first, heq, hfirst, hrest⟩ := ih hbefore
      rw [split_concat hx]
      refine ⟨earlier, first, ?_, hfirst, fun y hy => ?_⟩
      · rw [← List.cons_append, ← List.append_assoc, ← heq]
      · rcases List.mem_append.1 hy with hy | hy
        · exact hrest y hy
        · rwa [List.mem_singleton.1 hy]

/-- Nothing of a complete split. -/
structure Entry.Quiet (x : Entry) : Prop where
  undecided : ¬ x.Decides
  call_ne : x.call ≠ .complete
  uncounted : x.isCompletion = false

/-- Complete splits have begun, and there is room for `left` more of them to finish. -/
def Spends (split : List Entry) (left : Nat) : Prop :=
  ∃ x, split.find? (fun y => y.call == .complete) = some x ∧
    split.countP Entry.isCompletion + left = x.before.allowance

/-- What the log says about the split that is underway, by the phase of the scheduler. -/
inductive Stands (split : List Entry) (s : Scheduler) : Prop
  | started (hphase : s.phase = .startSplit) (hquiet : ∀ x ∈ split, x.Quiet)
  | acknowledged (hphase : s.phase = .startSplitComplete) (hquiet : ∀ x ∈ split, x.Quiet)
      (hack : ∃ x ∈ split, x.Acknowledges)
  | completing (hphase : s.phase.isCompleting = true) (hundecided : ∀ x ∈ split, ¬ x.Decides)
      (hack : ∃ x ∈ split, x.Acknowledges) (hspends : Spends split (s.tries + 1))
  | ended (hphase : s.phase.isDecided = true) (hdecided : ∃ x ∈ split, x.Decides)
      (hspends : split.countP Entry.isCompletion = 0 ∨ ∃ left, Spends split left)

section Stands

variable {rest : List Entry} {s s' : Scheduler} {call : Call} {more : Bool} {x : Entry}

theorem Spends.concat {left : Nat} (h : Spends rest left) (hx : x.isCompletion = false) :
    Spends (rest ++ [x]) left := by
  obtain ⟨y, hfind, hcount⟩ := h
  refine ⟨y, ?_, ?_⟩
  · rw [List.find?_append, hfind, Option.some_or]
  · rw [List.countP_append, List.countP_singleton, hx]
    exact hcount

theorem Spends.concat_completion {left : Nat} (h : Spends rest (left + 1))
    (hx : x.isCompletion = true) : Spends (rest ++ [x]) left := by
  obtain ⟨y, hfind, hcount⟩ := h
  refine ⟨y, ?_, ?_⟩
  · rw [List.find?_append, hfind, Option.some_or]
  · rw [List.countP_append, List.countP_singleton, hx, if_pos rfl]
    omega

theorem countP_of_quiet (h : ∀ y ∈ rest, y.Quiet) : rest.countP Entry.isCompletion = 0 :=
  List.countP_eq_zero.2 fun y hy => by simp [(h y hy).uncounted]

/-- The first complete split of a split. -/
theorem spends_first (h : ∀ y ∈ rest, y.Quiet) {left : Nat} (hcall : x.call = .complete)
    (hleft : left = x.before.allowance) : Spends (rest ++ [x]) left := by
  have hnone : rest.find? (fun y => y.call == .complete) = none :=
    List.find?_eq_none.2 fun y hy => by simp [(h y hy).call_ne]
  refine ⟨x, ?_, ?_⟩
  · simp [List.find?_append, hnone, hcall]
  · rw [List.countP_append, countP_of_quiet h, List.countP_singleton, Entry.isCompletion, hcall]
    simpa using hleft

theorem forall_concat {p : Entry → Prop} (h : ∀ y ∈ rest, p y) (hx : p x) :
    ∀ y ∈ rest ++ [x], p y :=
  List.forall_mem_append.2 ⟨h, List.forall_mem_singleton.2 hx⟩

theorem exists_concat {p : Entry → Prop} (h : ∃ y ∈ rest, p y) : ∃ y ∈ rest ++ [x], p y :=
  h.imp fun _ hy => ⟨List.mem_append_left _ hy.1, hy.2⟩

theorem exists_concat_self {p : Entry → Prop} (hx : p x) : ∃ y ∈ rest ++ [x], p y :=
  ⟨x, by simp, hx⟩

/-- Finishing a start split is no part of a complete split. -/
theorem quiet_of_startSplit {status : ChannelStatus} (hphase : s.phase = .startSplit)
    (hphase' : s'.phase = .startSplitComplete) : Entry.Quiet ⟨s, .finish status, false, s'⟩ where
  undecided h := by
    have hdecided := h.2
    simp [hphase', Phase.isDecided] at hdecided
  call_ne := nofun
  uncounted := by simp [Entry.isCompletion, hphase, Phase.isCompleting]

/-- An entry that leaves the phase alone and is none of the calls that the protocol is about. -/
theorem Stands.concat_aside (h : Stands rest s) (hphase : s'.phase = s.phase)
    (htries : s'.tries = s.tries) (hcall : x.call ≠ .complete)
    (hfinish : ∀ status, x.call ≠ .finish status) : Stands (rest ++ [x]) s' := by
  have hundecided : ¬ x.Decides := fun hx => hx.1.elim hfinish
  have hcount : x.isCompletion = false := by
    rw [Entry.isCompletion]
    split
    · exact absurd ‹_› (hfinish _)
    · rfl
  cases h with
  | started hs hquiet =>
    exact .started (hphase.trans hs) (forall_concat hquiet ⟨hundecided, hcall, hcount⟩)
  | acknowledged hs hquiet hack =>
    exact .acknowledged (hphase.trans hs) (forall_concat hquiet ⟨hundecided, hcall, hcount⟩)
      (exists_concat hack)
  | completing hs hrest hack hspends =>
    refine .completing (by rw [hphase, hs]) (forall_concat hrest hundecided)
      (exists_concat hack) ?_
    rw [htries]
    exact hspends.concat hcount
  | ended hs hdecided hspends =>
    refine .ended (by rw [hphase, hs]) (exists_concat hdecided) (hspends.imp ?_ ?_)
    · intro hzero
      rw [List.countP_append, hzero, List.countP_singleton, hcount]
      rfl
    · exact fun hleft => hleft.imp fun _ hspends => hspends.concat hcount

/-- The outcome of a complete split. -/
theorem Stands.concat_finish {status : ChannelStatus} (h : Stands rest s)
    (hphase : s.phase.isCompleting = true)
    (hafter : s'.phase.isDecided = true ∨
      s'.phase = .completeSplitRetry ∧ s'.tries + 1 = s.tries) :
    Stands (rest ++ [⟨s, .finish status, false, s'⟩]) s' := by
  have hcount : Entry.isCompletion ⟨s, .finish status, false, s'⟩ = true := by
    simpa [Entry.isCompletion] using hphase
  cases h with
  | completing _ hundecided hack hspends =>
    rcases hafter with hdecided | ⟨hretry, htries⟩
    · exact .ended hdecided (exists_concat_self ⟨⟨_, rfl⟩, hdecided⟩)
        (.inr ⟨_, hspends.concat_completion hcount⟩)
    · refine .completing (by rw [hretry]; rfl) (forall_concat hundecided fun hx => ?_)
        (exists_concat hack) ?_
      · have hdecided := hx.2
        simp [hretry, Phase.isDecided] at hdecided
      · rw [htries]
        exact hspends.concat_completion hcount
  | started hother | acknowledged hother =>
    rw [hother] at hphase
    cases hphase
  | ended hother => exact absurd hother (Phase.not_isDecided hphase)

theorem Stands.step (h : Stands rest s) (ht : Transition s s' call more) (hcall : call ≠ .start) :
    Stands (rest ++ [⟨s, call, more, s'⟩]) s' := by
  cases ht with
  | started => exact absurd rfl hcall
  | acknowledged hphase hack hphase' =>
    cases h with
    | started _ hquiet =>
      exact .acknowledged hphase' (forall_concat hquiet (quiet_of_startSplit hphase hphase'))
        (exists_concat_self ⟨_, rfl, hphase, hack⟩)
    | acknowledged hother | completing hother | ended hother =>
      rw [hphase] at hother
      cases hother
  | refused hphase hphase' =>
    cases h with
    | started _ hquiet =>
      have hdecided : s'.phase.isDecided = true := by rw [hphase']; rfl
      refine .ended hdecided (exists_concat_self ⟨⟨_, rfl⟩, hdecided⟩) (.inl ?_)
      rw [List.countP_append, countP_of_quiet hquiet, List.countP_singleton, Entry.isCompletion]
      simp [hphase, Phase.isCompleting]
    | acknowledged hother | completing hother | ended hother =>
      rw [hphase] at hother
      cases hother
  | completing hphase hphase' htries =>
    cases h with
    | acknowledged _ hquiet hack =>
      refine .completing (by rw [hphase']; rfl)
        (forall_concat (fun y hy => (hquiet y hy).undecided) fun hx => ?_)
        (exists_concat hack) (spends_first hquiet rfl htries)
      obtain ⟨⟨_, hfinish⟩, -⟩ := hx
      cases hfinish
    | started hother | completing hother | ended hother =>
      rw [hphase] at hother
      cases hother
  | repeated hphase hphase' htries =>
    cases h with
    | completing _ hundecided hack hspends =>
      refine .completing (by rw [hphase']; rfl) (forall_concat hundecided fun hx => ?_)
        (exists_concat hack) ?_
      · obtain ⟨⟨_, hfinish⟩, -⟩ := hx
        cases hfinish
      · rw [htries]
        exact hspends.concat rfl
    | started hother | acknowledged hother | ended hother =>
      rw [hphase] at hother
      cases hother
  | ended hphase hsame =>
    cases h with
    | ended _ hdecided hspends =>
      refine .ended (by rw [hsame, hphase]) (exists_concat hdecided) (hspends.imp ?_ ?_)
      · intro hzero
        rw [List.countP_append, hzero]
        rfl
      · exact fun hleft => hleft.imp fun _ hspends => hspends.concat rfl
    | started hother | acknowledged hother =>
      rw [hother] at hphase
      cases hphase
    | completing hother => exact absurd hphase (Phase.not_isDecided hother)
  | transferred hphase _ hphase' =>
    exact h.concat_finish hphase (.inl (by rw [hphase']; rfl))
  | retried hphase _ hphase' htries => exact h.concat_finish hphase (.inr ⟨hphase', htries⟩)
  | failed hphase _ hphase' => exact h.concat_finish hphase (.inl (by rw [hphase']; rfl))
  | aside _ hcomplete hfinish hphase htries => exact h.concat_aside hphase htries hcomplete hfinish

end Stands

/-! ### Whole logs -/

/-- What holds of a scheduler and of the log that has led to it. -/
structure Tracked (entries : List Entry) (s : Scheduler) : Prop where
  hasRetries : s.hasRetries = true
  stands : (s.phase = .start ∧ ∀ x ∈ entries, x.isStart = false) ∨
    (∃ x ∈ entries, x.isStart = true) ∧ Stands (split entries) s

section Tracked

variable {entries : List Entry} {s s' : Scheduler} {call : Call} {more : Bool} {x : Entry}

theorem Tracked.step (h : Tracked entries s) (hstep : s.perform call = .ok (more, s')) :
    Tracked (entries ++ [⟨s, call, more, s'⟩]) s' ∧ Transition s s' call more := by
  obtain ⟨hafter, htransition⟩ := transition_of_perform h.hasRetries hstep
  refine ⟨⟨hafter, ?_⟩, htransition⟩
  by_cases hcall : call = .start
  · subst hcall
    cases htransition with
    | started _ hphase =>
      refine .inr ⟨exists_concat_self rfl, ?_⟩
      rw [split_concat_start rfl]
      exact .started hphase (by simp)
    | aside hother => exact absurd rfl hother
  · have hother : Entry.isStart ⟨s, call, more, s'⟩ = false := by simp [Entry.isStart, hcall]
    rcases h.stands with ⟨hphase, hnone⟩ | ⟨hstart, hstands⟩
    · -- Before the first start split, nothing but the clock and the backoff may be set.
      have hphase' : s'.phase = .start := by
        cases htransition with
        | aside _ _ _ hsame => exact hsame.trans hphase
        | started => exact absurd rfl hcall
        | acknowledged hbefore | refused hbefore | completing hbefore | repeated hbefore
        | ended hbefore | transferred hbefore | retried hbefore | failed hbefore =>
          rw [hphase] at hbefore
          cases hbefore
      exact .inl ⟨hphase', forall_concat hnone hother⟩
    · refine .inr ⟨exists_concat hstart, ?_⟩
      rw [split_concat hother]
      exact hstands.step htransition hcall

theorem log_cons {calls : List Call} (h : s.log calls = .ok (x :: entries)) :
    x.before = s ∧ s.perform x.call = .ok (x.more, x.after) ∧
      ∃ rest, x.after.log rest = .ok entries := by
  cases calls with
  | nil => cases h
  | cons call calls =>
    obtain ⟨⟨more, s'⟩, hstep, h⟩ := Fault.bind_eq_ok.1 h
    obtain ⟨later, hlater, h⟩ := Fault.bind_eq_ok.1 h
    cases h
    exact ⟨rfl, hstep, calls, hlater⟩

/-- Every part of a log leads to a scheduler that goes on with the rest. -/
theorem tracked_of_log {earlier before later : List Entry} {calls : List Call}
    (hs : Tracked earlier s) (h : s.log calls = .ok (before ++ later)) :
    ∃ s' rest, Tracked (earlier ++ before) s' ∧ s'.log rest = .ok later := by
  induction before generalizing s earlier calls with
  | nil => exact ⟨s, calls, by rwa [List.append_nil], h⟩
  | cons x before ih =>
    obtain ⟨rfl, hstep, rest, hrest⟩ := log_cons h
    obtain ⟨s', rest', htracked, hlater⟩ := ih (hs.step hstep).1 hrest
    exact ⟨s', rest', by rwa [List.append_assoc] at htracked, hlater⟩

theorem tracked_nil (hs : s.hasRetries = true) (hstart : s.phase = .start) : Tracked [] s :=
  ⟨hs, .inl ⟨hstart, by simp⟩⟩

/-- Every entry is a step, from a scheduler that the log before it has led to. -/
theorem step_of_log {before later : List Entry} {calls : List Call} (hs : s.hasRetries = true)
    (hstart : s.phase = .start) (h : s.log calls = .ok (before ++ x :: later)) :
    Tracked before x.before ∧ Transition x.before x.after x.call x.more := by
  obtain ⟨s', rest, htracked, hlater⟩ := tracked_of_log (tracked_nil hs hstart) h
  obtain ⟨rfl, hstep, -⟩ := log_cons hlater
  exact ⟨htracked, (htracked.step hstep).2⟩

theorem Tracked.stands_split {earlier rest : List Entry} {first : Entry}
    (h : Tracked (earlier ++ first :: rest) s) (hfirst : first.isStart = true)
    (hrest : ∀ y ∈ rest, y.isStart = false) : Stands rest s := by
  rcases h.stands with ⟨-, hnone⟩ | ⟨-, hstands⟩
  · rw [hnone first (by simp)] at hfirst
    cases hfirst
  · rwa [split_append hfirst hrest] at hstands

/-- A start split is admitted only once the outcome of the one before has been decided. -/
theorem Stands.exists_decides {rest : List Entry}
    (h : Stands rest s) (ht : Transition s s' .start more) : ∃ y ∈ rest, y.Decides := by
  cases ht with
  | aside hother => exact absurd rfl hother
  | started hbefore =>
    cases h with
    | ended _ hdecided => exact hdecided
    | started hother | acknowledged hother =>
      rw [hother] at hbefore
      rcases hbefore with hbefore | hbefore <;> cases hbefore
    | completing hother =>
      rcases hbefore with hbefore | hbefore
      · rw [hbefore] at hother
        cases hother
      · exact absurd hbefore (Phase.not_isDecided hother)

/-- A complete split is admitted only between the acknowledgement and the decision. -/
theorem Stands.underway {rest : List Entry} (h : Stands rest s)
    (ht : Transition s s' .complete true) :
    (∃ y ∈ rest, y.Acknowledges) ∧ ∀ y ∈ rest, ¬ y.Decides := by
  cases ht with
  | completing hphase =>
    cases h with
    | acknowledged _ hquiet hack => exact ⟨hack, fun y hy => (hquiet y hy).undecided⟩
    | started hother | completing hother | ended hother =>
      rw [hphase] at hother
      cases hother
  | repeated hphase =>
    cases h with
    | completing _ hundecided hack => exact ⟨hack, hundecided⟩
    | started hother | acknowledged hother | ended hother =>
      rw [hphase] at hother
      cases hother

theorem allowance_le (s : Scheduler) : s.allowance ≤ 4 := by
  cases s with
  | periodic s => rw [allowance]; split <;> omega
  | isochronous s | nonPeriodic s | unsplit s => exact le_rfl

theorem allowance_of_microframe {s : Scheduler} {p : Periodic} (hs : s = periodic p)
    (h : p.microframe = some 5) : s.allowance = 3 := by
  rw [hs, allowance, Periodic.slot, h]
  rfl

theorem Spends.countP_le {rest : List Entry} {left : Nat} (h : Spends rest left) :
    rest.countP Entry.isCompletion ≤ 4 ∧
    ∀ p waiting x later, rest = waiting ++ x :: later → (∀ y ∈ waiting, y.call ≠ .complete) →
      x.call = .complete → x.before = periodic p → p.microframe = some 5 →
      rest.countP Entry.isCompletion ≤ 3 := by
  obtain ⟨first, hfind, hcount⟩ := h
  refine ⟨by have := first.before.allowance_le; omega, ?_⟩
  rintro p waiting x later rfl hwaiting hcall hbefore hmicroframe
  have hnone : waiting.find? (fun y => y.call == .complete) = none :=
    List.find?_eq_none.2 fun y hy => by simp [hwaiting y hy]
  obtain rfl : x = first := by simpa [List.find?_append, hnone, hcall] using hfind
  have hthree := allowance_of_microframe hbefore hmicroframe
  omega

theorem Stands.countP_le {rest : List Entry} (h : Stands rest s) :
    rest.countP Entry.isCompletion ≤ 4 ∧
    ∀ p waiting x later, rest = waiting ++ x :: later → (∀ y ∈ waiting, y.call ≠ .complete) →
      x.call = .complete → x.before = periodic p → p.microframe = some 5 →
      rest.countP Entry.isCompletion ≤ 3 := by
  have hcount : rest.countP Entry.isCompletion = 0 ∨ ∃ left, Spends rest left := by
    cases h with
    | started _ hquiet | acknowledged _ hquiet => exact .inl (countP_of_quiet hquiet)
    | completing _ _ _ hspends => exact .inr ⟨_, hspends⟩
    | ended _ _ hspends => exact hspends
  rcases hcount with hzero | ⟨left, hspends⟩
  · exact ⟨by omega, fun _ _ _ _ _ _ _ _ _ => by omega⟩
  · exact hspends.countP_le

theorem orderly_of_log {calls : List Call} (hs : s.hasRetries = true) (hstart : s.phase = .start)
    (h : s.log calls = .ok entries) : Orderly entries where
  decided_between := by
    rintro before first split second later rfl hfirst hsplit hsecond
    obtain ⟨htracked, ht⟩ := step_of_log hs hstart h
    have hcall : second.call = .start := by simpa [Entry.isStart] using hsecond
    rw [hcall] at ht
    exact (htracked.stands_split hfirst hsplit).exists_decides ht
  acknowledged_before := by
    rintro before x later rfl hcall hmore
    obtain ⟨htracked, ht⟩ := step_of_log hs hstart h
    rw [hcall, hmore] at ht
    rcases htracked.stands with ⟨hphase, -⟩ | ⟨hstarted, hstands⟩
    · cases ht with
      | completing hother | repeated hother =>
        rw [hphase] at hother
        cases hother
    · obtain ⟨earlier, first, hbefore, hfirst, hrest⟩ := exists_append_split hstarted
      obtain ⟨hack, hundecided⟩ := hstands.underway ht
      exact ⟨earlier, first, Scheduler.split before, hbefore, hfirst, hrest, hack, hundecided⟩
  completions_le := by
    rintro before first split later rfl hfirst hsplit
    obtain ⟨s', -, htracked, -⟩ := tracked_of_log (tracked_nil hs hstart) h
    exact (htracked.stands_split hfirst hsplit).countP_le

end Tracked

/-! ### The channel loop -/

/-- Make complete splits, with one outcome after another, until the scheduler wants no more of them,
but give up after `limit` questions. It tells how many outcomes there have been. -/
def completeAll : Nat → (Nat → ChannelStatus) → Scheduler →
    Except Fault (Option (Nat × Scheduler))
  | 0, _, _ => .ok none
  | limit + 1, statuses, s => do
    let (more, s) ← s.completeSplit
    if more then
      let s ← s.finish (statuses 0)
      let ended ← completeAll limit (fun n => statuses (n + 1)) s
      return ended.map fun (count, s) => (count + 1, s)
    else
      return some (0, s)

/-- How a split ends, told from the last outcome of its complete splits. -/
structure Ended (last : ChannelStatus) (s : Scheduler) : Prop where
  complete_iff : s.phase = .completeSplitComplete ↔ last.contains .transferComplete = true
  failed : last.contains .transferComplete = false → s.hasFailed = true

/-- The next question of the loop starts a complete split, and there is room for `left` of them. -/
structure Admits (s : Scheduler) (left : Nat) : Prop where
  hasRetries : s.hasRetries = true
  phase : s.phase = .startSplitComplete ∧ s.allowance = left ∨
    s.phase = .completeSplitRetry ∧ s.tries + 1 = left

section Loop

variable {s : Scheduler}

theorem exists_completeSplit (hs : s.hasRetries = true)
    (h : s.phase = .startSplitComplete ∨ s.phase = .completeSplitRetry) :
    ∃ s', s.completeSplit = .ok (true, s') := by
  cases s with
  | isochronous _ | unsplit _ => cases hs
  | periodic s =>
    rcases h with h | h <;> rw [phase] at h <;>
      exact ⟨_, by rw [completeSplit, Periodic.completeSplit, h]; rfl⟩
  | nonPeriodic s =>
    rcases h with h | h <;> rw [phase] at h <;>
      exact ⟨_, by rw [completeSplit, NonPeriodic.completeSplit, h]; rfl⟩

theorem completeSplit_of_isDecided (hs : s.hasRetries = true) (h : s.phase.isDecided = true) :
    s.completeSplit = .ok (false, s) := by
  have hphase : s.phase = .completeSplitComplete ∨ s.phase = .completeSplitFailed := by
    cases hp : s.phase <;> simp_all [Phase.isDecided]
  cases s with
  | isochronous _ | unsplit _ => cases hs
  | periodic s =>
    rcases hphase with h | h <;> rw [phase] at h <;>
      rw [completeSplit, Periodic.completeSplit, h] <;> rfl
  | nonPeriodic s =>
    rcases hphase with h | h <;> rw [phase] at h <;>
      rw [completeSplit, NonPeriodic.completeSplit, h] <;> rfl

theorem finish_of_isCompleting (hs : s.hasRetries = true) (h : s.phase.isCompleting = true)
    (status : ChannelStatus) : s.finish status = .ok (s.conclude status) := by
  have hphase : s.phase = .completeSplit ∨ s.phase = .completeSplitRetry := by
    cases hp : s.phase <;> simp_all [Phase.isCompleting]
  cases s with
  | isochronous _ | unsplit _ => cases hs
  | periodic s =>
    rcases hphase with h | h <;> rw [phase] at h <;> rw [finish, Periodic.finish, h] <;> rfl
  | nonPeriodic s =>
    rcases hphase with h | h <;> rw [phase] at h <;> rw [finish, NonPeriodic.finish, h] <;> rfl

/-- One round of the loop: a complete split goes out, and its outcome comes in. -/
theorem Admits.round {left : Nat} (h : s.Admits left) (status : ChannelStatus) :
    ∃ s₁ s₂, s.completeSplit = .ok (true, s₁) ∧ s₁.finish status = .ok s₂ ∧
      s₂.hasRetries = true ∧ s₁.tries + 1 = left ∧ Concludes s₁ s₂ status := by
  obtain ⟨s₁, hcomplete⟩ := exists_completeSplit h.hasRetries (h.phase.imp And.left And.left)
  have hperform : s.perform .complete = .ok (true, s₁) := hcomplete
  obtain ⟨hs₁, ht⟩ := transition_of_perform h.hasRetries hperform
  have hready : s₁.phase.isCompleting = true ∧ s₁.tries + 1 = left := by
    rcases h.phase with ⟨hphase, hleft⟩ | ⟨hphase, hleft⟩
    · cases ht with
      | completing _ hphase' htries => exact ⟨by rw [hphase']; rfl, htries.trans hleft⟩
      | repeated hother =>
        rw [hphase] at hother
        cases hother
    · cases ht with
      | repeated _ hphase' htries => exact ⟨by rw [hphase']; rfl, by rw [htries, hleft]⟩
      | completing hother =>
        rw [hphase] at hother
        cases hother
  have hfinish := finish_of_isCompleting hs₁ hready.1 status
  exact ⟨s₁, _, hcomplete, hfinish, hasRetries_conclude hs₁ status, hready.2,
    concludes_conclude hs₁ status⟩

theorem completeAll_succ {limit : Nat} {statuses : Nat → ChannelStatus} {s₁ s₂ : Scheduler}
    (hcomplete : s.completeSplit = .ok (true, s₁)) (hfinish : s₁.finish (statuses 0) = .ok s₂)
    {count : Nat} {s' : Scheduler}
    (hrest : completeAll limit (fun n => statuses (n + 1)) s₂ = .ok (some (count, s'))) :
    completeAll (limit + 1) statuses s = .ok (some (count + 1, s')) := by
  rw [completeAll, hcomplete]
  simp only [bind, Except.bind, if_true, hfinish, hrest]
  rfl

theorem completeAll_of_isDecided {limit : Nat} (statuses : Nat → ChannelStatus)
    (hs : s.hasRetries = true) (h : s.phase.isDecided = true) :
    completeAll (limit + 1) statuses s = .ok (some (0, s)) := by
  rw [completeAll, completeSplit_of_isDecided hs h]
  rfl

theorem Admits.completeAll {limit left : Nat} (h : s.Admits left) (hlimit : left < limit)
    (statuses : Nat → ChannelStatus) :
    ∃ n < left, ∃ s', completeAll limit statuses s = .ok (some (n + 1, s')) ∧
      Ended (statuses n) s' := by
  induction limit generalizing s left statuses with
  | zero => omega
  | succ limit ih =>
    obtain ⟨s₁, s₂, hcomplete, hfinish, hs₂, hleft, hconcludes⟩ := h.round (statuses 0)
    obtain ⟨limit, rfl⟩ : ∃ m, limit = m + 1 := ⟨limit - 1, by omega⟩
    cases hstatus : (statuses 0).contains .transferComplete with
    | true =>
      have hphase := hconcludes.transferred hstatus
      refine ⟨0, by omega, s₂, completeAll_succ hcomplete hfinish
        (completeAll_of_isDecided _ hs₂ (by rw [hphase]; rfl)), ?_⟩
      exact ⟨iff_of_true hphase hstatus, fun hother => by rw [hstatus] at hother; cases hother⟩
    | false =>
      rcases hconcludes.missed hstatus with ⟨hphase, htries⟩ | hphase
      · obtain ⟨n, hn, s', hrest, hended⟩ :=
          ih ⟨hs₂, .inr ⟨hphase, htries⟩⟩ (by omega) fun n => statuses (n + 1)
        exact ⟨n + 1, by omega, s', completeAll_succ hcomplete hfinish hrest, hended⟩
      · refine ⟨0, by omega, s₂, completeAll_succ hcomplete hfinish
          (completeAll_of_isDecided _ hs₂ (by rw [hphase]; rfl)), ?_⟩
        exact ⟨by simp [hphase, hstatus], fun _ => by simp [hasFailed, hphase]⟩

end Loop

/-- The split protocol is followed and bounded. Whatever calls are made on a new scheduler with
retries, its log is orderly. From an acknowledged start split, the channel loop ends after at most
four outcomes, or three behind a start split in microframe 5, and its result is told from the last
of them. -/
theorem split_protocol (s : Scheduler) (hs : s.hasRetries = true) (hstart : s.phase = .start) :
    (∀ calls entries, s.log calls = .ok entries → Orderly entries) ∧
    ∀ s' : Scheduler, s'.hasRetries = true → s'.phase = .startSplitComplete →
      ∀ statuses limit, 4 < limit → ∃ n last,
        completeAll limit statuses s' = .ok (some (n + 1, last)) ∧ n + 1 ≤ 4 ∧
        (∀ p, s' = periodic p → p.microframe = some 5 → n + 1 ≤ 3) ∧ Ended (statuses n) last := by
  refine ⟨fun calls entries h => orderly_of_log hs hstart h, ?_⟩
  intro s' hs' hphase statuses limit hlimit
  have hfour := s'.allowance_le
  have hadmits : s'.Admits s'.allowance := ⟨hs', .inl ⟨hphase, rfl⟩⟩
  obtain ⟨n, hn, last, hloop, hended⟩ := hadmits.completeAll (by omega : _ < limit) statuses
  refine ⟨n, last, hloop, by omega, fun p hp hmicroframe => ?_, hended⟩
  have hthree := allowance_of_microframe hp hmicroframe
  omega

/-- A start split in microframe 5, and a hub that is not done in time. -/
def lateCalls : List Call :=
  [.start, .frame 4, .finish .ack, .complete, .finish .nyet, .complete, .finish .nyet, .complete,
   .finish .nyet, .complete, .start]

theorem split_protocol_lateCalls :
    (∃ entries, (periodic {}).log lateCalls = .ok entries ∧
      entries.map (fun x => (x.more, x.after.phase)) =
        [(false, .startSplit), (false, .startSplit), (false, .startSplitComplete),
         (true, .completeSplit), (false, .completeSplitRetry), (true, .completeSplitRetry),
         (false, .completeSplitRetry), (true, .completeSplitRetry), (false, .completeSplitFailed),
         (false, .completeSplitFailed), (false, .startSplit)] ∧
      Orderly entries) ∧
    ∃ n last, completeAll 5 (fun _ => .nyet)
        (periodic { phase := .startSplitComplete, microframe := some 5 }) =
          .ok (some (n + 1, last)) ∧
      n + 1 ≤ 3 ∧ last.hasFailed = true := by
  have h := split_protocol (periodic {}) rfl rfl
  refine ⟨⟨_, rfl, rfl, h.1 lateCalls _ rfl⟩, ?_⟩
  obtain ⟨n, last, hloop, -, hthree, hended⟩ :=
    h.2 (periodic { phase := .startSplitComplete, microframe := some 5 }) rfl rfl
      (fun _ => .nyet) 5 (by decide)
  exact ⟨n, last, hloop, hthree _ rfl rfl, hended.failed (by decide)⟩

end UsbHost.Frame.Scheduler
