/-!
Identities of devices. Slot numbers are used again after a device has gone; the identity of a
device is not, so what a queue still holds of a detached device cannot be taken for its
successor's.
-/

namespace UsbHost

structure DeviceId where
  number : UInt32
  deriving DecidableEq, Inhabited

def DeviceId.name (d : DeviceId) : String := "dev" ++ toString d.number

end UsbHost
