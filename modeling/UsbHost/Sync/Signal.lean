/-!
One-shot signals: raised by an event handler, consumed by one waiting task.
-/

namespace UsbHost

structure Signal where
  raised : Bool := false
  deriving DecidableEq, Inhabited

namespace Signal

def raise (_ : Signal) : Signal := ⟨true⟩

def clear (_ : Signal) : Signal := ⟨false⟩

/-- Consume the signal if it is raised. -/
def take (s : Signal) : Bool × Signal := (s.raised, ⟨false⟩)

end Signal

end UsbHost
