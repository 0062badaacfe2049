import S4Bridge.Device.UsbDevice
import S4Bridge.Protocol.Generic

/-!
# Feedback from MIDI (`core_midi_bridge.cpp`, `main.cpp`)

CoreMIDI hands `read_proc` one packet list at a time; `read_proc` calls the callback of `run_bridge`
with the bytes of each packet, and the callback writes the payload `encode_output` finds in them to
the device. What a write meets is an input (`WriteEnv`): another thread may close the device between
the callback's check and the write. The writes attempted are kept in order.
-/

namespace Bridge

open Device Protocol

/-- What a write meets, should there be one. -/
structure WriteEnv where
  /-- The main thread has closed the device since the check. -/
  closed : Bool
  transfer : Transferred
  deriving DecidableEq, Repr

/-- The protocol object, which the callback shares with the main loop, and the payloads
`write_output` was called with. -/
structure FeedbackState where
  protocol : S4GenericProtocol
  attempts : List (List UInt8)

variable (errorName : Int → String) (options : UsbOptions) (device : UsbDevice)

/-- The callback of `run_bridge`: how it ends, with its own handler of what `write_output` throws. -/
def feedback (s : FeedbackState) (message : List UInt8) (env : WriteEnv) :
    FeedbackState × Except String Unit :=
  if device.disconnected || device.handle.isNone then (s, .ok ())
  else
    match encodeOutput s.protocol message with
    | (protocol, none) => ({ s with protocol }, .ok ())
    | (protocol, some payload) =>
      let current := if env.closed then { device with handle := none } else device
      match (writeOutput errorName options current payload env.transfer).2 with
      | .ok () => (⟨protocol, s.attempts ++ [payload]⟩, .ok ())
      | .error _ => (⟨protocol, s.attempts ++ [payload]⟩, .ok ())

/-- The loop of `read_proc` over the packets, up to the first exception. -/
def readPackets : FeedbackState → List (List UInt8 × WriteEnv) → FeedbackState × Except String Unit
  | s, [] => (s, .ok ())
  | s, (packet, env) :: rest =>
    match feedback errorName options device s packet env with
    | (s, .error what) => (s, .error what)
    | (s, .ok ()) => readPackets s rest

/-- `read_proc`, which catches what the callback throws. -/
def readProc (s : FeedbackState) (packetList : List (List UInt8 × WriteEnv)) :
    FeedbackState × Except String Unit :=
  if packetList.isEmpty then (s, .ok ())
  else
    match readPackets errorName options device s packetList with
    | (s, .ok ()) => (s, .ok ())
    | (s, .error _) => (s, .ok ())

/-- One packet list after the other; what leaves `read_proc` would end the process. -/
def readProcs : FeedbackState → List (List (List UInt8 × WriteEnv)) →
    FeedbackState × Except String Unit
  | s, [] => (s, .ok ())
  | s, packetList :: rest =>
    match readProc errorName options device s packetList with
    | (s, .error what) => (s, .error what)
    | (s, .ok ()) => readProcs s rest

end Bridge
