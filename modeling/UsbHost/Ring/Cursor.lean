import UsbHost.Ring.Producer

/-!
The controller's side of a producer ring. A cursor reads the TRB at its position as long as the
cycle bit equals its own cycle state; a Link TRB moves it to the link's target and may flip that
state. Software and controller share nothing else, so the two agree on what has been enqueued
exactly as far as the cycle bits tell.
-/

namespace UsbHost.Ring

structure Cursor where
  /-- Bus address of the TRB to read next. -/
  position : UInt64
  cycle : Bool
  deriving DecidableEq, Inhabited

namespace Cursor

/-- The TRB at the cursor, if it is fresh. -/
def fetch? (c : Cursor) (r : ProducerRing) : Option Trb := do
  let t := r.trbAt (← r.indexOf? c.position)
  guard (t.cycle = c.cycle)
  return t

/-- The position behind `t`, which has just been read. -/
def pass (c : Cursor) (t : Trb) : Cursor :=
  if t.kind? = some .link then
    ⟨t.parameter, if t.flags.contains .toggleCycle then !c.cycle else c.cycle⟩
  else
    { c with position := c.position + UInt64.ofNat Trb.byteSize }

/-- Read one TRB. The first component is absent when a Link TRB was followed. -/
def step? (c : Cursor) (r : ProducerRing) : Option (Option Trb × Cursor) := do
  let t ← c.fetch? r
  return (if t.kind? = some .link then none else some t, c.pass t)

end Cursor

end UsbHost.Ring
