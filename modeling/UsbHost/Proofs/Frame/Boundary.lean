import UsbHost.Proofs.Frame.Progress
import UsbHost.Proofs.Frame.Protocol

/-!
Boundaries of isochronous splits. A start split belongs on a boundary of eight microframes, that of
an IN transfer in the middle between two of them. A split that ends in the delay phase leaves behind
what it has set for its later transactions. So from that phase a start split finds its boundary if
it has been put off first, but nothing in the scheduler sees to it that it is.
-/

namespace UsbHost.Frame

/-- On a boundary of eight microframes, or for an IN transfer in the middle behind it. -/
def OnBoundary (directionIn : Bool) (frame : UInt16) : Prop :=
  frame.toNat % 8 = if directionIn then 4 else 0

instance (directionIn : Bool) (frame : UInt16) : Decidable (OnBoundary directionIn frame) :=
  inferInstanceAs (Decidable (_ = _))

theorem onBoundary_align (directionIn : Bool) (frame : Nat) :
    OnBoundary directionIn (Isochronous.align directionIn (numberOf frame)) := by
  rw [OnBoundary, align_numberOf, toNat_numberOf]
  split <;> omega

namespace Isochronous

variable {s t : Isochronous}

/-! The direction of a transfer never changes. -/

theorem directionIn_startSplit (h : s.startSplit = .ok t) : t.directionIn = s.directionIn := by
  unfold startSplit at h
  split at h <;> cases h <;> rfl

theorem directionIn_completeSplit {more : Bool} (h : s.completeSplit = .ok (more, t)) :
    t.directionIn = s.directionIn := by
  unfold completeSplit at h
  split at h <;> cases h <;> rfl

theorem directionIn_finish {status : ChannelStatus} (h : s.finish status = .ok t) :
    t.directionIn = s.directionIn := by
  unfold finish at h
  repeat' split at h
  all_goals cases h
  all_goals rfl

theorem directionIn_delay {offset : UInt16} (h : s.delay offset = .ok t) :
    t.directionIn = s.directionIn := by
  unfold delay at h
  split at h
  case isTrue =>
    cases h
    rfl
  case isFalse => cases h

end Isochronous

namespace Scheduler

/-! ### What a log says about delays -/

/-- The next transaction has been put off since the last one has ended. -/
def Deferred (entries : List Entry) : Prop :=
  ∃ earlier x rest, entries = earlier ++ x :: rest ∧ (∃ offset, x.call = .delay offset) ∧
    ∀ y ∈ rest, ∀ status, y.call ≠ .finish status

/-- The split that is underway has begun in the delay phase without having been put off. -/
def Premature (entries : List Entry) : Prop :=
  ∃ earlier first rest, entries = earlier ++ first :: rest ∧ first.isStart = true ∧
    (∀ y ∈ rest, y.isStart = false) ∧ first.before.phase = .periodicDelay ∧ ¬ Deferred earlier

section Logs

variable {entries : List Entry} {x : Entry}

theorem Deferred.of_concat (h : Deferred (entries ++ [x])) (hx : ∀ offset, x.call ≠ .delay offset) :
    Deferred entries ∧ ∀ status, x.call ≠ .finish status := by
  obtain ⟨earlier, y, rest, heq, ⟨offset, hy⟩, hrest⟩ := h
  rcases List.eq_nil_or_concat rest with rfl | ⟨rest, z, rfl⟩
  · obtain ⟨-, hlast⟩ := List.append_inj' heq rfl
    rw [← List.singleton_inj.1 hlast] at hy
    exact absurd hy (hx offset)
  · rw [List.concat_eq_append, ← List.cons_append, ← List.append_assoc] at heq
    obtain ⟨rfl, hlast⟩ := List.append_inj' heq rfl
    obtain rfl : x = z := List.singleton_inj.1 hlast
    exact ⟨⟨earlier, y, rest, rfl, ⟨offset, hy⟩, fun y hy => hrest y (by simp [hy])⟩,
      hrest x (by simp)⟩

theorem Premature.concat (h : Premature entries) (hx : x.isStart = false) :
    Premature (entries ++ [x]) := by
  obtain ⟨earlier, first, rest, rfl, hfirst, hrest, hphase, hearlier⟩ := h
  exact ⟨earlier, first, rest ++ [x], by simp, hfirst, forall_concat hrest hx, hphase, hearlier⟩

end Logs

/-! ### Where the next transaction goes -/

/-- What holds of an isochronous split and of the log that has led to it. -/
structure Settled (entries : List Entry) (s : Isochronous) : Prop where
  starting : s.phase = .startSplit → s.aligned = true ∨ Premature entries
  waiting : s.phase = .periodicDelay → s.aligned = true ∨ ¬ Deferred entries
  continuing : s.phase = .startSplitContinued → s.aligned = false ∧ s.offset = 1
  completing : s.phase = .completeSplit → s.aligned = false ∧ s.offset = 2
  loose : s.phase ≠ .start → s.aligned = false → s.offset = 1 ∨ s.offset = 2

section Steps

variable {entries : List Entry} {s t : Isochronous} {s' : Scheduler} {call : Call} {more : Bool}
  {x : Entry}

/-- A call that leaves the split where it is. -/
theorem Settled.concat_aside (h : Settled entries s) (hphase : t.phase = s.phase)
    (haligned : t.aligned = s.aligned) (hoffset : t.offset = s.offset) (hstart : x.call ≠ .start)
    (hdelay : ∀ offset, x.call ≠ .delay offset) : Settled (entries ++ [x]) t := by
  have hother : x.isStart = false := by simp [Entry.isStart, hstart]
  have hdeferred : Deferred (entries ++ [x]) → Deferred entries := fun h => (h.of_concat hdelay).1
  obtain ⟨hstarting, hwaiting, hcontinuing, hcompleting, hloose⟩ := h
  rw [← hphase, ← haligned] at hstarting hwaiting hcontinuing hcompleting hloose
  rw [← hoffset] at hcontinuing hcompleting hloose
  exact ⟨fun hs => (hstarting hs).imp_right fun hearly => hearly.concat hother,
    fun hs => (hwaiting hs).imp_right (mt hdeferred), hcontinuing, hcompleting, hloose⟩

theorem Settled.start (h : Settled entries s) (hstart : s.startSplit = .ok t)
    (hx : x.isStart = true) (hbefore : x.before = isochronous s) :
    Settled (entries ++ [x]) t := by
  unfold Isochronous.startSplit at hstart
  split at hstart
  case h_1 | h_2 =>
    cases hstart
    exact ⟨fun _ => .inl rfl, nofun, nofun, nofun, fun _ => nofun⟩
  case h_3 =>
    cases hstart
    exact ⟨nofun, nofun, fun _ => ⟨rfl, rfl⟩, nofun, fun _ _ => .inl rfl⟩
  case h_4 hphase =>
    cases hstart
    refine ⟨fun _ => ?_, nofun, nofun, nofun, fun _ => h.loose (by simp [hphase])⟩
    -- Nothing is set here: either the delay has set the boundary, or nobody has.
    refine (h.waiting hphase).imp_right fun hnot => ?_
    exact ⟨entries, x, [], rfl, hx, by simp, by rw [hbefore]; exact hphase, hnot⟩
  case h_5 => cases hstart

theorem Settled.complete (h : Settled entries s) (hcomplete : s.completeSplit = .ok (more, t))
    (hx : x.call = .complete) : Settled (entries ++ [x]) t := by
  unfold Isochronous.completeSplit at hcomplete
  split at hcomplete
  case h_1 =>
    cases hcomplete
    exact ⟨nofun, nofun, nofun, fun _ => ⟨rfl, rfl⟩, fun _ _ => .inr rfl⟩
  case h_2 | h_3 =>
    cases hcomplete
    exact h.concat_aside rfl rfl rfl (by simp [hx]) (by simp [hx])
  case h_4 => cases hcomplete

theorem Settled.finish {status : ChannelStatus} (h : Settled entries s)
    (hfinish : s.finish status = .ok t) (hx : x.call = .finish status) :
    Settled (entries ++ [x]) t := by
  have hnot : ¬ Deferred (entries ++ [x]) := fun hdeferred =>
    (hdeferred.of_concat (by simp [hx])).2 status hx
  unfold Isochronous.finish at hfinish
  split at hfinish
  case h_1 hphase | h_2 hphase | h_3 hphase =>
    have hloose := h.loose (by simp [hphase])
    split at hfinish
    · cases hfinish
      exact ⟨nofun, nofun, nofun, nofun, fun _ => hloose⟩
    · cases hfinish
      exact ⟨nofun, fun _ => .inr hnot, nofun, nofun, fun _ => hloose⟩
  case h_4 => cases hfinish

theorem Settled.delay {offset : UInt16} (hdelay : s.delay offset = .ok t) : Settled entries t := by
  unfold Isochronous.delay at hdelay
  split at hdelay
  case isTrue hphase =>
    cases hdelay
    exact ⟨fun _ => .inl rfl, fun _ => .inl rfl, by simp [hphase], by simp [hphase], fun _ => nofun⟩
  case isFalse => cases hdelay

theorem Settled.step (h : Settled entries s)
    (hstep : (isochronous s).perform call = .ok (more, s')) :
    ∃ t, s' = isochronous t ∧ t.directionIn = s.directionIn ∧
      Settled (entries ++ [⟨isochronous s, call, more, s'⟩]) t := by
  cases performs_of_perform hstep with
  | startIsochronous hbegun =>
    exact ⟨_, rfl, s.directionIn_startSplit hbegun, h.start hbegun rfl rfl⟩
  | completeIsochronous hcomplete =>
    exact ⟨_, rfl, s.directionIn_completeSplit hcomplete, h.complete hcomplete rfl⟩
  | finishIsochronous hdone => exact ⟨_, rfl, s.directionIn_finish hdone, h.finish hdone rfl⟩
  | frameIsochronous s current =>
    exact ⟨_, rfl, rfl, h.concat_aside rfl rfl rfl nofun (fun _ => nofun)⟩
  | delayIsochronous hput => exact ⟨_, rfl, s.directionIn_delay hput, .delay hput⟩

/-- Every part of a log leads to a split that goes on with the rest. -/
theorem settled_of_log {earlier before later : List Entry} {calls : List Call}
    (hs : Settled earlier s) (h : (isochronous s).log calls = .ok (before ++ later)) :
    ∃ t rest, t.directionIn = s.directionIn ∧ Settled (earlier ++ before) t ∧
      (isochronous t).log rest = .ok later := by
  induction before generalizing s earlier calls with
  | nil => exact ⟨s, calls, rfl, by rwa [List.append_nil], h⟩
  | cons x before ih =>
    obtain ⟨hbefore, hstep, rest, hrest⟩ := log_cons h
    obtain ⟨t, hafter, hdirection, ht⟩ := hs.step hstep
    rw [hafter] at hrest
    obtain ⟨u, rest', hdirection', hu, hlater⟩ := ih ht hrest
    refine ⟨u, rest', hdirection'.trans hdirection, ?_, hlater⟩
    have hentry : x = ⟨isochronous s, x.call, x.more, x.after⟩ := by rw [← hbefore]
    rwa [← hentry, List.append_assoc] at hu

theorem settled_nil (directionIn : Bool) : Settled [] { directionIn } where
  starting := nofun
  waiting := nofun
  continuing := nofun
  completing := nofun
  loose h := absurd rfl h

/-- The frame that a split gives, by what has been set in it. -/
theorem Settled.frameNumber (h : Settled entries s) (current : UInt16) :
    (s.phase = .startSplit → OnBoundary s.directionIn (s.frameNumber current).1 ∨
      Premature entries ∧
        ((s.frameNumber current).1 = add current 1 ∨ (s.frameNumber current).1 = add current 2)) ∧
    (s.phase = .startSplitContinued → (s.frameNumber current).1 = add current 1) ∧
    (s.phase = .completeSplit → (s.frameNumber current).1 = add current 2) := by
  have hloose : s.aligned = false → (s.frameNumber current).1 = add current s.offset :=
    fun haligned => by rw [Isochronous.frameNumber, haligned, if_neg Bool.false_ne_true]
  refine ⟨fun hphase => ?_, fun hphase => ?_, fun hphase => ?_⟩
  · cases haligned : s.aligned with
    | true =>
      left
      rw [Isochronous.frameNumber, haligned, if_pos rfl, add_eq_numberOf]
      exact onBoundary_align _ _
    | false =>
      have hearly := (h.starting hphase).resolve_left (by simp [haligned])
      rw [hloose haligned]
      exact .inr ⟨hearly, (h.loose (by simp [hphase]) haligned).imp (congrArg _) (congrArg _)⟩
  · obtain ⟨haligned, hoffset⟩ := h.continuing hphase
    rw [hloose haligned, hoffset]
  · obtain ⟨haligned, hoffset⟩ := h.completing hphase
    rw [hloose haligned, hoffset]

/-- Whatever calls are made on a new isochronous scheduler, a further start split goes out in the
next frame and a complete split in the one after the next. A start split goes out on its boundary,
unless it has begun in the delay phase without having been put off; then it may go out like a
further transaction of the split before. -/
theorem isochronous_boundary {directionIn : Bool} {calls : List Call} {before later : List Entry}
    {current : UInt16}
    (hlog : (isochronous { directionIn }).log calls = .ok (before ++ x :: later))
    (hcall : x.call = .frame current) :
    ∃ frame, x.before.frameNumber current = .ok (frame, x.after) ∧
      (x.before.phase = .startSplit → OnBoundary directionIn frame ∨
        Premature before ∧ (frame = add current 1 ∨ frame = add current 2)) ∧
      (x.before.phase = .startSplitContinued → frame = add current 1) ∧
      (x.before.phase = .completeSplit → frame = add current 2) := by
  obtain ⟨t, rest, hdirection, ht, hlater⟩ := settled_of_log (settled_nil directionIn) hlog
  obtain ⟨hbefore, hstep, -⟩ := log_cons hlater
  rw [hcall] at hstep
  have hafter : isochronous (t.frameNumber current).2 = x.after :=
    congrArg Prod.snd (Except.ok.inj hstep)
  obtain ⟨hstarting, hcontinuing, hcompleting⟩ := ht.frameNumber current
  refine ⟨(t.frameNumber current).1, ?_, ?_, ?_, ?_⟩
  · rw [hbefore, ← hafter]
    rfl
  all_goals rw [hbefore]
  · rw [hdirection] at hstarting
    exact hstarting
  · exact hcontinuing
  · exact hcompleting

/-- A complete split of an IN transfer has come too early. The transfer is put off by 32 frames and
begins again. -/
def renewed : List Entry :=
  let start := isochronous ⟨true, .startSplit, 8, true, 0⟩
  let acknowledged := isochronous ⟨true, .startSplitComplete, 8, true, 0⟩
  let completing := isochronous ⟨true, .completeSplit, 2, false, 0⟩
  let early := isochronous ⟨true, .periodicDelay, 2, false, 0⟩
  let deferred := isochronous ⟨true, .periodicDelay, 32, true, 0⟩
  [⟨isochronous ⟨true, .start, 0, false, 0⟩, .start, false, start⟩,
    ⟨start, .finish .ack, false, acknowledged⟩, ⟨acknowledged, .complete, true, completing⟩,
    ⟨completing, .finish .nyet, false, early⟩, ⟨early, .delay 32, false, deferred⟩,
    ⟨deferred, .start, false, isochronous ⟨true, .startSplit, 32, true, 0⟩⟩]

/-- The start split is put to a frame. -/
def asked : Entry :=
  ⟨isochronous ⟨true, .startSplit, 32, true, 0⟩, .frame 40, false,
    isochronous ⟨true, .startSplit, 32, true, 76⟩⟩

theorem isochronous_boundary_renewed :
    (isochronous ⟨true, .start, 0, false, 0⟩).log [.start, .finish .ack, .complete, .finish .nyet,
      .delay 32, .start, .frame 40] = .ok (renewed ++ [asked]) ∧ asked.call = .frame 40 ∧
    ∃ frame, asked.before.frameNumber 40 = .ok (frame, asked.after) ∧
      (OnBoundary true frame ∨ Premature renewed ∧ (frame = add 40 1 ∨ frame = add 40 2)) :=
  have hlog : (isochronous ⟨true, .start, 0, false, 0⟩).log [.start, .finish .ack, .complete,
      .finish .nyet, .delay 32, .start, .frame 40] = .ok (renewed ++ [asked]) := rfl
  have hcall : asked.call = .frame 40 := rfl
  have ⟨frame, hframe, hstarting, _⟩ := isochronous_boundary hlog hcall
  ⟨hlog, hcall, frame, hframe, hstarting rfl⟩

/-- A start split that has not been put off goes out two frames later, off its boundary. -/
theorem hasty_start_split_leaves_boundary :
    ∃ s s', select { split := true, isochronous := true } =
        some (isochronous { directionIn := false }) ∧
      (isochronous { directionIn := false }).run hasty = .ok s ∧ s.phase = .startSplit ∧
      10 ≤ maxNumber ∧ s.frameNumber 10 = .ok (12, s') ∧ ¬ OnBoundary false 12 :=
  ⟨_, _, rfl, rfl, rfl, by decide, rfl, by decide⟩

end Steps

end Scheduler

end UsbHost.Frame
