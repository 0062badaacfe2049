import Mathlib.Data.List.Infix
import S4Bridge.Gui.Engine
import S4Bridge.Gui.Rules

/-!
# The ports' part of the tester (`midi_dev_tester.py`)

The comboboxes with the ports' names, the button that connects and disconnects, the status line, and
what is sent: by the rules, as messages come in, and by hand. `portsMachine` is this part of the
application around its `MidiEngine`; a call answers with the message box it shows, if any.

Listing the ports does not raise. Python's `strip` and `lower` are parameters: any functions on texts;
so is how an exception of mido reads.
-/

namespace Gui

def defaultInHint : String := "S4 MK1 USB2MIDI"

def defaultOutHint : String := "S4 MK1 USB2MIDI Feedback"

/-- What the part uses of Python and mido. -/
structure PyText (ε : Type*) where
  int : PyInt
  strip : String → String
  lower : String → String
  /-- `str` of an exception. -/
  str : ε → String

structure MessageBox where
  title : String
  message : String
  deriving DecidableEq, Repr

structure PortsPanel where
  engine : MidiEngine := {}
  /-- The names in the comboboxes. -/
  inCombo : List String := []
  outCombo : List String := []
  inVar : String := ""
  outVar : String := ""
  connectBtn : String := "Connect"
  statusVar : String := "Disconnected"
  /-- The window is there. -/
  alive : Bool := true
  deriving DecidableEq, Repr

namespace PortsPanel

variable {ε : Type*} (py : PyText ε) (panel : PortsPanel)

/-! ## Choosing ports -/

/-- The first name with the hint in it, or the first name. -/
def pickDefaultPort (names : List String) (hint : String) : Option String :=
  (names.find? fun name => decide ((py.lower hint).toList <:+: (py.lower name).toList)).or names.head?

/-- What a variable holds once there are names: it is set if it was empty. -/
def preferred (names : List String) (hint var : String) : String :=
  if var = "" then (pickDefaultPort py names hint).getD var else var

def refreshPorts (inputs outputs : List String) : PortsPanel :=
  { panel with
    inCombo := inputs
    outCombo := outputs
    inVar := preferred py inputs defaultInHint panel.inVar
    outVar := preferred py outputs defaultOutHint panel.outVar }

/-! ## Connecting -/

def toggleConnection (outputRaises inputRaises : Option ε) : PortsPanel × Option MessageBox :=
  if panel.engine.connected then
    ({ panel with
        engine := panel.engine.disconnectLocked
        statusVar := "Disconnected"
        connectBtn := "Connect" }, none)
  else
    let inName := py.strip panel.inVar
    let outName := py.strip panel.outVar
    if inName = "" ∨ outName = "" then
      (panel, some ⟨"MIDI", "Select both input and output ports."⟩)
    else
      let connected := panel.engine.connect inName outName outputRaises inputRaises
      let panel := { panel with engine := connected.state }
      match connected.raised with
      | some exc => (panel, some ⟨"MIDI", "Failed to connect: " ++ py.str exc⟩)
      | none =>
        ({ panel with
            statusVar := "Connected: IN=" ++ inName ++ "  OUT=" ++ outName
            connectBtn := "Disconnect" }, none)

/-! ## Sending -/

/-- `engine.send`; Tk reports what it raises, and nothing else comes of it. -/
def send (msg : Message) (raises : Option ε) : PortsPanel :=
  { panel with engine := (panel.engine.send msg raises).state }

/-- What `_apply_rules` sends for a rule that matches a message with the value `inValue`. -/
def applyRule (rule : MappingRule) (inValue : Int) (raises : Option ε) : PortsPanel :=
  if !rule.enabled then panel
  else
    match rule.outMsg inValue with
    | none => panel
    | some msg => panel.send msg raises

/-- The fields under "Manual Outgoing Test"; the kind's is a read-only combobox. -/
structure Manual where
  kindVar : Kind
  chVar : String
  idxVar : String
  valVar : String
  deriving DecidableEq, Repr

/-- The message in the fields. -/
def Manual.message (manual : Manual) : Except PyError (Option Message) := do
  let ch ← readInt py.int manual.chVar 1 16 "Manual channel"
  let idx ← readInt py.int manual.idxVar 0 127 "Manual index"
  let val ← readInt py.int manual.valVar 0 127 "Manual value"
  return buildOutMsg manual.kindVar ch idx val

def PyError.text : PyError → String
  | .valueError message => message
  | .tclError => ""

def sendManual (manual : Manual) (raises : Option ε) : PortsPanel × Option MessageBox :=
  match manual.message py with
  | .error exc => (panel, some ⟨"Manual", PyError.text exc⟩)
  | .ok none => (panel, some ⟨"Manual", "Invalid outgoing message"⟩)
  | .ok (some msg) => (panel.send msg raises, none)

end PortsPanel

/-! ## Runs -/

/-- mido's `bytes` of a message whose type the tester knows. -/
def Message.bytes : Message → Option (List UInt8)
  | .controlChange channel control value =>
    some [0xB0 ||| UInt8.ofNat channel, dataByte control, dataByte value]
  | .noteOn channel note velocity =>
    some [0x90 ||| UInt8.ofNat channel, dataByte note, dataByte velocity]
  | .noteOff channel note velocity =>
    some [0x80 ||| UInt8.ofNat channel, dataByte note, dataByte velocity]
  | .sysex data => some (0xF0 :: data.map dataByte ++ [0xF7])
  | .other _ => none

inductive PortsCall (ε : Type*)
  /-- "Refresh", with what mido lists; also made when the application starts. -/
  | refresh (inputs outputs : List String)
  /-- A name is chosen in a combobox, by its position. -/
  | chooseInput (idx : Nat)
  | chooseOutput (idx : Nat)
  | toggle (outputRaises inputRaises : Option ε)
  | applyRule (rule : MappingRule) (inValue : Int) (raises : Option ε)
  | sendManual (manual : PortsPanel.Manual) (raises : Option ε)
  /-- `_on_close` -/
  | close
  deriving DecidableEq, Repr

/-- Nothing is called once the window is gone. -/
def PortsPanel.call {ε : Type*} (py : PyText ε) (panel : PortsPanel) (call : PortsCall ε) :
    PortsPanel × Option MessageBox :=
  if !panel.alive then (panel, none)
  else
    match call with
    | .refresh inputs outputs => (panel.refreshPorts py inputs outputs, none)
    | .chooseInput idx => ({ panel with inVar := panel.inCombo.getD idx panel.inVar }, none)
    | .chooseOutput idx => ({ panel with outVar := panel.outCombo.getD idx panel.outVar }, none)
    | .toggle outputRaises inputRaises => panel.toggleConnection py outputRaises inputRaises
    | .applyRule rule inValue raises => (panel.applyRule rule inValue raises, none)
    | .sendManual manual raises => panel.sendManual py manual raises
    | .close =>
      ({ panel with engine := panel.engine.disconnectLocked, alive := false }, none)

def portsMachine {ε : Type*} (py : PyText ε) :
    Machine PortsPanel (PortsCall ε) (Option MessageBox) :=
  ⟨PortsPanel.call py⟩

end Gui
