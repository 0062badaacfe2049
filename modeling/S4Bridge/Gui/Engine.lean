import S4Bridge.Lib.Ledger
import S4Bridge.Lib.Pump
import S4Bridge.Gui.ByteMap

/-!
# The tester's MIDI ports (`MidiEngine` in `midi_dev_tester.py`)

The ports mido has opened for the engine are in two ledgers, with how often each was closed. Opening
a port and sending on one may raise an `Exception`, of any type `ε`; closing a port does not. Every
call holds the engine's lock, so it is one step.
-/

namespace Gui

structure OutputPort where
  name : String
  /-- The messages that reached the port. -/
  sent : List Message := []
  deriving DecidableEq, Repr

def OutputPort.send (port : OutputPort) (msg : Message) : OutputPort :=
  { port with sent := port.sent ++ [msg] }

structure MidiEngine where
  inPort : Option Nat := none
  outPort : Option Nat := none
  /-- The input ports opened, by name. -/
  inputs : List (Ledger.Entry String) := []
  outputs : List (Ledger.Entry OutputPort) := []
  deriving DecidableEq, Repr

namespace MidiEngine

variable {ε : Type*} (engine : MidiEngine)

def connected : Bool := engine.inPort.isSome && engine.outPort.isSome

def closeInput : MidiEngine :=
  match engine.inPort with
  | none => engine
  | some i => { engine with inPort := none, inputs := Ledger.release engine.inputs i }

def closeOutput : MidiEngine :=
  match engine.outPort with
  | none => engine
  | some j => { engine with outPort := none, outputs := Ledger.release engine.outputs j }

def disconnectLocked : MidiEngine := engine.closeInput.closeOutput

def openOutput (outName : String) : MidiEngine :=
  { engine with
    outPort := some engine.outputs.length
    outputs := Ledger.acquire engine.outputs { name := outName } }

def openInput (inName : String) : MidiEngine :=
  { engine with
    inPort := some engine.inputs.length
    inputs := Ledger.acquire engine.inputs inName }

/-- `connect`, with what `open_output` and `open_input` raise. -/
def connect (inName outName : String) (outputRaises inputRaises : Option ε) :
    Effect MidiEngine ε :=
  let engine := engine.disconnectLocked
  match outputRaises with
  | some e => .raise engine e
  | none =>
    let engine := engine.openOutput outName
    match inputRaises with
    | some e => .raise engine.disconnectLocked e
    | none => .ok (engine.openInput inName)

def disconnect : Effect MidiEngine ε := .ok engine.disconnectLocked

/-- `send`, with what the port's own `send` raises. -/
def send (msg : Message) (raises : Option ε) : Effect MidiEngine ε :=
  match engine.outPort with
  | none => .ok engine
  | some j => ⟨{ engine with outputs := Ledger.update engine.outputs j (·.send msg) }, raises⟩

end MidiEngine

/-- The calls, with what mido raises in them. -/
inductive EngineCall (ε : Type*)
  | connect (inName outName : String) (outputRaises inputRaises : Option ε)
  | disconnect
  | send (msg : Message) (raises : Option ε)
  deriving DecidableEq, Repr

def MidiEngine.call {ε : Type*} (engine : MidiEngine) : EngineCall ε → Effect MidiEngine ε
  | .connect inName outName outputRaises inputRaises =>
    engine.connect inName outName outputRaises inputRaises
  | .disconnect => engine.disconnect
  | .send msg raises => engine.send msg raises

/-- The engine as a machine; a call answers with what it raises. -/
def engineMachine (ε : Type*) : Machine MidiEngine (EngineCall ε) (Option ε) :=
  ⟨fun engine call => ((engine.call call).state, (engine.call call).raised)⟩

end Gui
