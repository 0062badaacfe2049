import Mathlib.Data.List.Basic

/-!
# Publishing MIDI messages (`core_midi_bridge.cpp`)

`send` publishes one message on the virtual source. CoreMIDI itself is outside this repository: how
its two calls go (`MIDIPacketListAdd`, `MIDIReceived`) is an input.
-/

namespace Bridge

/-- How the CoreMIDI calls of one `send` go. -/
inductive MidiOutcome
  | noErr
  /-- `MIDIPacketListAdd` returns null. -/
  | packetListFull
  /-- `MIDIReceived` returns an error. -/
  | notReceived
  deriving DecidableEq, Repr

/-- The data bytes after a channel voice status are cut to seven bits. -/
def sanitize (message : List UInt8) : List UInt8 :=
  match message with
  | [] => []
  | status :: data =>
    if status &&& 0x80 ≠ 0 ∧ status < 0xF0 then status :: data.map (· &&& 0x7F) else message

/-- `CoreMidiBridge::send`: the bytes published, or the exception. -/
def send (message : List UInt8) (outcome : MidiOutcome) : Except String (Option (List UInt8)) :=
  if message.isEmpty then .ok none
  else
    let sanitized := sanitize message
    match outcome with
    | .packetListFull => .error "Failed to build CoreMIDI packet list"
    | .notReceived => .error "Failed to publish MIDI packet"
    | .noErr => .ok (some sanitized)

end Bridge
