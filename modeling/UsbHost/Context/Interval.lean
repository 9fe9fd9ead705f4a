import UsbHost.Speed

/-!
Service intervals. An endpoint context holds the exponent `n` of an interval of `2 ^ n`
microframes of 125 us; an endpoint descriptor counts whole frames of 1 ms at low and full speed,
and already holds an exponent, plus one, above.
-/

namespace UsbHost.Context

/-- Exponent for a descriptor's interval. Frames are rounded up to the next power of two of
microframes, from 2^3 to 2^11. -/
def intervalExponent (interval : UInt8) (speed : Speed) : UInt8 :=
  if speed.usesMicroframes then
    max 1 (min 16 interval) - 1
  else
    let covers (n : Nat) : Bool := 1000 * interval.toNat ≤ 125 <<< n
    UInt8.ofNat (((List.range' 3 8).find? covers).getD 11)

end UsbHost.Context
