import UsbHost.Fault

/-!
Frame numbers. The frame counter has fourteen bits and wraps, so "later" means less than half the
range ahead.
-/

namespace UsbHost.Frame

/-- The highest frame number; the next one is 0. -/
def maxNumber : UInt16 := 0x3fff

def microframesPerFrame : Nat := 8

/-- `a` comes after `b`: it is ahead of `b` by less than half the range. -/
def isLater (a b : UInt16) : Bool := a != b && (a - b) &&& maxNumber < maxNumber >>> 1

/-- The frame `offset` frames after `frame`. -/
def add (frame offset : UInt16) : UInt16 := (frame + offset) &&& maxNumber

def isOdd (frame : UInt16) : Bool := frame &&& 1 != 0

/-- Sum of two frame counts, as long as it is a machine word. -/
def plus (a b : UInt16) : Except Fault UInt16 :=
  if a.toNat + b.toNat < UInt16.size then .ok (a + b) else .error .overflow

end UsbHost.Frame
