/-!
TRB types with the numbers that the type field of a control word holds. Numbers that are not
listed belong to no type the driver knows.
-/

namespace UsbHost.Trb

inductive Kind
  | normal
  | setupStage
  | dataStage
  | statusStage
  | isoch
  | link
  | eventData
  | noOp
  | enableSlot
  | disableSlot
  | addressDevice
  | configureEndpoint
  | evaluateContext
  | resetEndpoint
  | stopEndpoint
  | setTrDequeue
  | resetDevice
  | noOpCommand
  | transferEvent
  | commandCompletion
  | portStatusChange
  | bandwidthRequest
  | doorbell
  | hostController
  | deviceNotification
  | mfindexWrap
  deriving DecidableEq, Inhabited

namespace Kind

def code : Kind → UInt8
  | normal => 1
  | setupStage => 2
  | dataStage => 3
  | statusStage => 4
  | isoch => 5
  | link => 6
  | eventData => 7
  | noOp => 8
  | enableSlot => 9
  | disableSlot => 10
  | addressDevice => 11
  | configureEndpoint => 12
  | evaluateContext => 13
  | resetEndpoint => 14
  | stopEndpoint => 15
  | setTrDequeue => 16
  | resetDevice => 17
  | noOpCommand => 23
  | transferEvent => 32
  | commandCompletion => 33
  | portStatusChange => 34
  | bandwidthRequest => 35
  | doorbell => 36
  | hostController => 37
  | deviceNotification => 38
  | mfindexWrap => 39

/-- The word that diagnostics use for a type. -/
def name : Kind → String
  | normal => "Normal"
  | setupStage => "SetupStage"
  | dataStage => "DataStage"
  | statusStage => "StatusStage"
  | isoch => "Isoch"
  | link => "Link"
  | eventData => "EventData"
  | noOp => "NoOp"
  | enableSlot => "EnableSlot"
  | disableSlot => "DisableSlot"
  | addressDevice => "AddressDevice"
  | configureEndpoint => "ConfigureEndpoint"
  | evaluateContext => "EvaluateContext"
  | resetEndpoint => "ResetEndpoint"
  | stopEndpoint => "StopEndpoint"
  | setTrDequeue => "SetTrDequeue"
  | resetDevice => "ResetDevice"
  | noOpCommand => "NoOpCommand"
  | transferEvent => "TransferEvent"
  | commandCompletion => "CommandCompletion"
  | portStatusChange => "PortStatusChange"
  | bandwidthRequest => "BandwidthRequest"
  | doorbell => "Doorbell"
  | hostController => "HostController"
  | deviceNotification => "DeviceNotification"
  | mfindexWrap => "MfindexWrap"

/-- All types in the order of their numbers. -/
def all : List Kind :=
  [normal, setupStage, dataStage, statusStage, isoch, link, eventData, noOp, enableSlot,
   disableSlot, addressDevice, configureEndpoint, evaluateContext, resetEndpoint, stopEndpoint,
   setTrDequeue, resetDevice, noOpCommand, transferEvent, commandCompletion, portStatusChange,
   bandwidthRequest, doorbell, hostController, deviceNotification, mfindexWrap]

def ofCode? (raw : UInt8) : Option Kind := all.find? fun kind => kind.code == raw

@[simp] theorem ofCode?_code (kind : Kind) : ofCode? kind.code = some kind := by
  cases kind <;> rfl

/-- The type number at its place in a control word. -/
def controlBits (kind : Kind) : UInt32 := kind.code.toUInt32 <<< 10

end Kind

end UsbHost.Trb
