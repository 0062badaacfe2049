import S4Bridge.Protocol.Generic
import S4Bridge.Bridge.Send

/-!
# The main loop of the bridge (`run_bridge` in `main.cpp`)

One iteration reads a packet, reconnects if the device is gone, publishes the packet as a raw-USB
SysEx frame if it changed, and publishes the messages `decodeInput` makes of it. `bridge` is the loop
as a machine: its inputs are what the iterations meet (`Iteration`), its outputs what they publish.
A run is over once it has an `Ending`; a signal ends it between two iterations.

Left out: the debug output, which is text nothing reads back.
-/

namespace Bridge

open Protocol

/-- The options the loop reads. -/
structure AppOptions where
  midiBaseChannel : UInt8
  inputDeadzone : UInt8
  inputDecodeMode : InputDecodeMode
  rawSysex : Bool
  deriving DecidableEq, Repr

/-! ## Raw-USB frames -/

/-- The nibbles of each byte, the high one first. -/
def nibbles (packet : List UInt8) : List UInt8 :=
  packet.flatMap fun (b : UInt8) => [(b >>> 4) &&& 0x0F, b &&& 0x0F]

/-- `F0 7D 53 34 02 <hi_nibble lo_nibble ...> F7` -/
def rawSysexFrame (packet : List UInt8) : List UInt8 :=
  [0xF0, 0x7D, 0x53, 0x34, 0x02] ++ nibbles packet ++ [0xF7]

/-! ## One iteration -/

/-- What `read_input` returns or throws; with `disconnected` the device says so afterwards. -/
inductive ReadInput
  | packet (bytes : List UInt8)
  | disconnected
  | threw (what : String)
  deriving DecidableEq, Repr

/-- What one iteration meets. -/
structure Iteration where
  read : ReadInput
  /-- The result of `connect()`, if it is called. -/
  connected : Bool
  sysexOutcome : MidiOutcome
  /-- How the `k`-th control change is sent. -/
  ccOutcome : Nat → MidiOutcome

/-- The packet read, empty if there is none. -/
def Iteration.packet (it : Iteration) : List UInt8 :=
  match it.read with
  | .packet bytes => bytes
  | _ => []

inductive Ending
  /-- `connect()` gave up. -/
  | stopped
  | threw (what : String)
  deriving DecidableEq, Repr

structure RunBridge where
  protocol : S4GenericProtocol
  previousRawSysexPacket : List UInt8
  ending : Option Ending

/-- What one iteration publishes, the frame first. -/
structure Published where
  frame : Option (List UInt8)
  ccs : List (List UInt8)
  deriving DecidableEq, Repr

def Published.nothing : Published := ⟨none, []⟩

def Published.messages (out : Published) : List (List UInt8) := out.frame.toList ++ out.ccs

/-- The messages sent one after the other, up to the first exception. -/
def sendAll : List MidiMessage → (Nat → MidiOutcome) → List (List UInt8) × Option String
  | [], _ => ([], none)
  | message :: rest, outcome =>
    match send message.bytes (outcome 0) with
    | .error what => ([], some what)
    | .ok sent =>
      let (more, failure) := sendAll rest fun k => outcome (k + 1)
      (sent.toList ++ more, failure)

variable (T : Tables) (options : AppOptions)

/-- The raw-USB part of an iteration: `previous_raw_sysex_packet` afterwards, and the frame
published. -/
def publishRawSysex (previous packet : List UInt8) (outcome : MidiOutcome) :
    List UInt8 × Option (List UInt8) :=
  if options.rawSysex && packet ≠ previous then
    match send (rawSysexFrame packet) outcome with
    | .ok sent => (packet, sent)
    | .error _ => (previous, none)
  else (previous, none)

def iterate (s : RunBridge) (it : Iteration) : RunBridge × Published :=
  if s.ending.isSome then (s, .nothing)
  else
    match it.read with
    | .threw what => ({ s with ending := some (.threw what) }, .nothing)
    | .disconnected =>
      if it.connected then (s, .nothing) else ({ s with ending := some .stopped }, .nothing)
    | .packet packet =>
      if packet.isEmpty then (s, .nothing)
      else
        let (previous, frame) :=
          publishRawSysex options s.previousRawSysexPacket packet it.sysexOutcome
        let (protocol, messages) := decodeInput T s.protocol packet
        let (ccs, failure) := sendAll messages it.ccOutcome
        (⟨protocol, previous, failure.map .threw⟩, ⟨frame, ccs⟩)

/-- The loop. -/
def bridge : Machine RunBridge Iteration Published := ⟨iterate T options⟩

/-- The state after the first `connect()`. -/
def RunBridge.start : RunBridge :=
  ⟨.new options.midiBaseChannel options.inputDeadzone options.inputDecodeMode, [], none⟩

end Bridge
