import S4Bridge.Gui.Rules

/-!
# The tester application (`midi_dev_tester.py`)

`MidiDevTesterApp` with the event queue, the log, the counters, the rules, the output port and the byte
map. `handleEvent` handles one queued message; a Tk callback that raises is not run again unless it
has set its timer, so the pump (`eventPump`) lives as long as no message makes `handleEvent` raise.
The other calls are the buttons and fields of the window and of the byte map.

An `IntVar` whose field does not hold a number raises when it is read: `baseChannelVar` is then
`none`. The output port takes every message. The button that clears the log is left out, and the
stamp of a row is its time.
-/

namespace Gui

/-! ## The byte map's window -/

/-- The window, with the cell the bit panel shows. -/
structure MapWindow extends ByteMapWindow where
  selectedIdx : Option Nat
  deriving DecidableEq, Repr

namespace MapWindow

/-- A window as it opens. -/
def new : MapWindow := ⟨.new .both, none⟩

variable (baseChVar : Option Int)

/-- The panel's labels show the base channel. -/
def updateBitPanel (win : MapWindow) : Effect MapWindow PyError :=
  if baseChVar.isNone then .raise win .tclError else .ok win

def updateByte (win : MapWindow) (idx : Int) (value : Nat) (source : Source) :
    Effect MapWindow PyError :=
  if win.srcVar = .ccOnly ∧ source ≠ .cc then .ok win
  else if win.srcVar = .sysexOnly ∧ source ≠ .sysex then .ok win
  else if idx < 0 ∨ idx ≥ maxBytes then .ok win
  else
    let win :=
      { win with data := win.data.setIfInBounds idx.toNat (UInt8.ofNat (value &&& 0xFF)) }
    if win.selectedIdx = some idx.toNat then updateBitPanel baseChVar win else .ok win

def updatePacket (win : MapWindow) (data : List UInt8) (source : Source) :
    Effect MapWindow PyError :=
  Effect.each
    (fun (val, idx) win =>
      if win.data[idx]? ≠ some val then updateByte baseChVar win idx val.toNat source else .ok win)
    (data.take maxBytes).zipIdx win

/-- A cell is clicked. -/
def select (win : MapWindow) (idx : Nat) : Effect MapWindow PyError :=
  updateBitPanel baseChVar { win with selectedIdx := some idx }

end MapWindow

/-! ## The application -/

def Kind.text : Kind → String
  | .cc => "cc"
  | .noteOn => "note_on"
  | .noteOff => "note_off"

/-- mido's name of a message's type. -/
def Message.type : Message → String
  | .controlChange .. => "control_change"
  | .noteOn .. => "note_on"
  | .noteOff .. => "note_off"
  | .sysex _ => "sysex"
  | .other type => type

/-- A message in the event queue, with its time. -/
structure Item where
  msg : Message
  ts : Nat
  deriving DecidableEq, Repr

/-- A row of the log; a column without a value shows "-". -/
structure LogRow where
  ts : Nat
  kind : String
  channel : Option Int
  index : Option Int
  value : Option Int
  raw : Message
  deriving DecidableEq, Repr

structure App where
  /-- The newest row first. -/
  logTree : List LogRow := []
  counts : AList (fun _ : Key => Nat) := ∅
  counterTree : Treeview (Key × Nat) := {}
  panel : RulePanel := {}
  /-- What was sent on the output port, if one is open. -/
  outPort : Option (List Message) := none
  byteMapWin : Option MapWindow := none
  baseChannelVar : Option Int := some 1

namespace App

variable (app : App)

/-! ### Handling a message -/

def insertLog (row : LogRow) : App :=
  let children := row :: app.logTree
  { app with logTree := if children.length > 1200 then children.take 1000 else children }

def bumpCounter (key : Key) : Effect App PyError :=
  let counts := Grouping.increment app.counts key
  let rowId := key.1.text ++ ":" ++ toString key.2.1 ++ ":" ++ toString key.2.2
  let values := (key, Grouping.count counts key)
  let tree :=
    if rowId ∈ app.counterTree.getChildren then app.counterTree.item rowId values
    else app.counterTree.insertEnd rowId values
  tree.lift fun counterTree => { app with counts, counterTree }

/-- `MidiEngine.send` -/
def send (msg : Message) : App :=
  match app.outPort with
  | none => app
  | some sent => { app with outPort := some (sent ++ [msg]) }

def applyRules (key : Key) (inValue : Int) : App :=
  ((app.panel.ruleByKey.lookup key).getD []).foldl
    (fun app rule =>
      if !rule.enabled then app
      else
        match rule.outMsg inValue with
        | none => app
        | some msg => app.send msg)
    app

def routeCcToByteMap (channel : Int) (controller value : Nat) : Effect App PyError :=
  match app.byteMapWin with
  | none => .ok app
  | some win =>
    if !win.alive then .ok app
    else
      match app.baseChannelVar with
      | none => .raise app .tclError
      | some baseCh =>
        let chOffset := (channel - baseCh) % 16 -- `& 0x0F` of a Python int
        let byteIdx := chOffset * 128 + controller
        let reconstructed := (value &&& 0x7F) <<< 1
        (win.updateByte app.baseChannelVar byteIdx reconstructed .cc).lift
          fun win => { app with byteMapWin := some win }

def routeSysexToByteMap (msg : Message) : Effect App PyError :=
  match app.byteMapWin with
  | none => .ok app
  | some win =>
    if !win.alive then .ok app
    else
      match msg with
      | .sysex data =>
        if data.length < 5 ∨ data[0]? ≠ some 0x7D ∨ data[1]? ≠ some 0x53 ∨ data[2]? ≠ some 0x34 ∨
            data[3]? ≠ some 0x02 then .ok app
        else
          let nibbles := data.drop 4
          if nibbles.length % 2 ≠ 0 then .ok app
          else
            match pyBytes (joinNibbles nibbles) with
            | .error e => .raise app e
            | .ok raw =>
              (win.updatePacket app.baseChannelVar raw .sysex).lift
                fun win => { app with byteMapWin := some win }
      | _ => .ok app

def handleEvent (item : Item) : Effect App PyError :=
  match parseMsg item.msg with
  | none =>
    (app.insertLog ⟨item.ts, item.msg.type, none, none, none, item.msg⟩).routeSysexToByteMap item.msg
  | some (kind, channel, index, value) =>
    let app := app.insertLog ⟨item.ts, kind.text, some channel, some index, some value, item.msg⟩
    (app.bumpCounter (kind, channel, index)).andThen fun app =>
      let app := app.applyRules (kind, channel, index) value
      if kind = .cc then app.routeCcToByteMap channel index value else .ok app

/-! ### The other calls -/

/-- What is done with the byte map while its window is there. -/
def onWindow (f : MapWindow → Effect MapWindow PyError) : Effect App PyError :=
  match app.byteMapWin with
  | none => .ok app
  | some win =>
    if win.alive then (f win).lift fun win => { app with byteMapWin := some win } else .ok app

def openByteMap : App :=
  match app.byteMapWin with
  | none => { app with byteMapWin := some .new }
  | some win => if win.alive then app else { app with byteMapWin := some .new }

end App

/-- The buttons and fields. -/
inductive Call
  | addRule (editor : Editor)
  | deleteSelected (selection : List String)
  | duplicateSelected (selection : List String)
  /-- The ports are opened or closed. -/
  | setPort (connected : Bool)
  | openByteMap
  | closeByteMap
  | setSource (src : SourceFilter)
  | selectCell (idx : Nat)
  /-- What the base channel's field holds, if a number. -/
  | setBaseChannel (baseCh : Option Int)
  deriving DecidableEq, Repr

variable (pyInt : PyInt)

def App.call (app : App) : Call → Effect App PyError
  | .addRule editor =>
    (app.panel.addRuleFromEditor pyInt editor).lift fun panel => { app with panel }
  | .deleteSelected selection =>
    (app.panel.deleteSelectedRule pyInt selection).lift fun panel => { app with panel }
  | .duplicateSelected selection =>
    (app.panel.duplicateSelectedRule pyInt selection).lift fun panel => { app with panel }
  | .setPort connected => .ok { app with outPort := if connected then some [] else none }
  | .openByteMap => .ok app.openByteMap
  | .closeByteMap => app.onWindow fun win => .ok { win with alive := false }
  | .setSource src => app.onWindow fun win => .ok { win with srcVar := src }
  | .selectCell idx => app.onWindow fun win => win.select app.baseChannelVar idx
  | .setBaseChannel baseCh => .ok { app with baseChannelVar := baseCh }

/-- The application when its window is shown. -/
def App.start : App := { panel := (RulePanel.loadDemoRules {}).state }

/-- `_midi_callback` puts messages into the queue, the timer runs `_drain_event_queue`. What a button
raises Tk reports, and nothing else comes of it. -/
def eventPump : Pump.EventPump App Item PyError Call where
  handle := App.handleEvent
  call app call := (app.call pyInt call).state
  batch := 200

/-- The application with an empty queue and the timer set. -/
def App.armed (app : App) : Pump.State App Item := ⟨app, [], .armed⟩

end Gui
