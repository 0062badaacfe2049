import S4Bridge.Lib.Ledger
import S4Bridge.Lib.Pump
import S4Bridge.Probe.Run

/-!
# The program (`main` in `main.cpp`, the life of a `CoreMidiBridge` in `core_midi_bridge.cpp`)

`main` parses the command line and runs the probe or the bridge; an exception is printed with the usage,
and the exit code is then 1. The bridge makes a `CoreMidiBridge` once it is connected, and destroys it
when it is left, before the device. A constructor that throws leaves its members as they are: no
destructor runs for them.

A `ProgramRun` is a run as far as it has come; it has no exit code while the probe or the bridge goes on.
-/

namespace Program

open Device Startup Bridge Args Probe Protocol

/-! ## The CoreMIDI objects -/

inductive MidiObject
  | client | source | destination
  deriving DecidableEq, Repr

/-- The strings and objects that were made, by their names, and the members that hold the objects. -/
structure CoreMidi where
  strings : List (Ledger.Entry String) := []
  objects : MidiObject → List (Ledger.Entry String) := fun _ => []
  members : MidiObject → Option Nat := fun _ => none

/-- What `MIDIClientCreate`, `MIDISourceCreate` and `MIDIDestinationCreate` return. -/
structure CreateEnv where
  clientStatus : Int
  sourceStatus : Int
  destinationStatus : Int
  deriving DecidableEq, Repr

/-- One of the three calls. Its string is released whatever it returns. -/
def create (object : MidiObject) (name : String) (status : Int) (what : String) (midi : CoreMidi) :
    Effect CoreMidi String :=
  let id := midi.strings.length
  let midi := { midi with strings := Ledger.acquire midi.strings name }
  if status ≠ 0 then .raise { midi with strings := Ledger.release midi.strings id } what
  else
    let made := { midi with
      objects := Function.update midi.objects object (Ledger.acquire (midi.objects object) name)
      members := Function.update midi.members object (some (midi.objects object).length) }
    .ok { made with strings := Ledger.release made.strings id }

/-- The constructor. -/
def CoreMidi.new (sourceName destinationName : String) (env : CreateEnv) : Effect CoreMidi String :=
  ((create .client "s4_mk1_usb2midi" env.clientStatus "Failed to create CoreMIDI client" {}).andThen
    (create .source sourceName env.sourceStatus "Failed to create CoreMIDI virtual source")).andThen
    (create .destination destinationName env.destinationStatus
      "Failed to create CoreMIDI virtual destination")

def dispose (object : MidiObject) (midi : CoreMidi) : CoreMidi :=
  match midi.members object with
  | none => midi
  | some id => { midi with
      objects := Function.update midi.objects object (Ledger.release (midi.objects object) id) }

/-- The destructor. -/
def CoreMidi.delete (midi : CoreMidi) : CoreMidi :=
  dispose .client (dispose .destination (dispose .source midi))

/-! ## The program -/

/-- What a run of the program meets. -/
structure ProgramInput where
  argv : List String
  probe : ProbeInput
  packets : List StreamInput
  /-- The result of `libusb_init` in `run_bridge`. -/
  contextRc : Rc
  attempts : List ConnectAttempt
  midi : CreateEnv
  turns : List LoopInput

structure ProgramRun where
  world : History Host
  midi : CoreMidi
  code : Option Nat
  /-- The text printed before the usage. -/
  failure : Option String

variable (errorName : Int → String)

/-- How `main` goes on. -/
def finish (world : History Host) (midi : CoreMidi) : Option Exit → ProgramRun
  | none => ⟨world, midi, none, none⟩
  | some (.returned code) => ⟨world, midi, some code, none⟩
  | some (.threw what) => ⟨world, midi, some 1, some what⟩

def Phase.exit : Bridge.Phase → Option Exit
  | .exited exit => some exit
  | _ => none

/-- How the constructor of `CoreMidiBridge` ends. -/
def constructed (made : Effect CoreMidi String) : Except String Unit :=
  match made.raised with
  | none => .ok ()
  | some what => .error what

/-- What has become of the `CoreMidiBridge`: it is made when the first `connect` has connected, and
destroyed, if it was constructed, when `run_bridge` is left. -/
def midiOf (connected : Option ConnectExit) (made : Effect CoreMidi String) (exit : Option Exit) :
    CoreMidi :=
  if connected = some .connected then
    if made.raised.isNone && exit.isSome then made.state.delete else made.state
  else {}

/-- `run_bridge`, with its `CoreMidiBridge`. -/
def runBridge (options : Args.AppOptions) (x : ProgramInput) : ProgramRun :=
  let made := CoreMidi.new "S4 MK1 USB2MIDI" "S4 MK1 USB2MIDI Feedback" x.midi
  let first := runBridgeStart errorName options.loop options.usb
    ⟨x.contextRc, x.attempts, constructed made⟩
  let last := (hotswap errorName .shipped options.loop options.usb).final first x.turns
  let exit := Phase.exit last.phase
  let connected :=
    if x.contextRc.val < 0 then none else (connect errorName options.usb (.start {}) x.attempts).2
  finish last.world (midiOf connected made exit) exit

def main (x : ProgramInput) : ProgramRun :=
  match parseArgs x.argv with
  | .error what => finish (.start {}) {} (some (.threw what))
  | .ok options =>
    match options.mode with
    | .probe =>
      let (s, exit) := runProbe errorName options x.probe x.packets
      finish s.world {} exit
    | .bridge => runBridge errorName options x

end Program
