import S4Bridge.Bridge.Connect
import S4Bridge.Bridge.Feedback
import S4Bridge.Bridge.Loop

/-!
# The whole bridge (`run_bridge` in `main.cpp`)

`runBridgeStart` is `run_bridge` up to its main loop, `hotswapStep` one turn of the loop: it looks at
`running`, reads from the device and connects again if the device is gone; what it does with a packet
is `iterate`. Leaving `run_bridge`, by return or exception, destroys the device object. `hotswap` is
the loop as a machine; its outputs tell what each turn read and published.
-/

namespace Bridge

open Device Protocol Startup

/-- What a turn of the main loop meets. -/
structure LoopInput where
  /-- A signal has come since the loop last looked at `running`. -/
  signalled : Bool
  /-- The packet lists CoreMIDI has delivered since. -/
  feedback : List (List (List UInt8 × WriteEnv))
  transfer : Transferred
  attempts : List ConnectAttempt
  sysexOutcome : MidiOutcome
  ccOutcome : Nat → MidiOutcome

/-- How `run_bridge` is left. -/
inductive Exit
  | returned (code : Nat)
  | threw (what : String)
  deriving DecidableEq, Repr

inductive Phase
  | looping
  /-- In a `connect` that has not returned. -/
  | connecting
  | exited (exit : Exit)
  deriving DecidableEq, Repr

structure BridgeRun where
  world : History Host
  loop : RunBridge
  phase : Phase

/-- A call of `read_input`: the state it was made in, its transfer, and the packet it led to. -/
structure ReadCall where
  host : Host
  transfer : Transferred
  handed : List UInt8
  deriving DecidableEq, Repr

structure LoopOutput where
  read : Option ReadCall
  published : Published
  deriving DecidableEq, Repr

def LoopOutput.nothing : LoopOutput := ⟨none, .nothing⟩

variable (errorName : Int → String) (T : Tables) (options : AppOptions) (usb : UsbOptions)

/-- `~UsbDevice` -/
def leave (w : History Host) (loop : RunBridge) (exit : Exit) : BridgeRun :=
  ⟨w.step (·.closeHandle), loop, .exited exit⟩

/-- How `read_input` ends, as the loop sees it. -/
def readResult (device : UsbDevice) (result : Except String (List UInt8)) : ReadInput :=
  match result with
  | .error what => .threw what
  | .ok bytes => if device.disconnected then .disconnected else .packet bytes

/-- A turn once it is known what was read and, if the device was gone, how `connect` returned. -/
def finishTurn (w : History Host) (loop : RunBridge) (call : List UInt8 → ReadCall)
    (it : Iteration) : BridgeRun × LoopOutput :=
  let (loop, published) := iterate T options loop it
  let out : LoopOutput := ⟨some (call it.packet), published⟩
  match loop.ending with
  | none => (⟨w, loop, .looping⟩, out)
  | some .stopped => (leave w loop (.returned 0), out)
  | some (.threw what) => (leave w loop (.threw what), out)

/-- A turn from `read_input` on. -/
def readTurn (w : History Host) (loop : RunBridge) (x : LoopInput) : BridgeRun × LoopOutput :=
  let (device, result) := readInput errorName usb w.now.device x.transfer
  let call := ReadCall.mk w.now x.transfer
  let w := w.step (·.setDevice device)
  match readResult device result with
  | .disconnected =>
    match connect errorName usb w x.attempts with
    | (w, none) | (w, some .initRunning) => (⟨w, loop, .connecting⟩, ⟨some (call []), .nothing⟩)
    | (w, some how) =>
      finishTurn T options w loop call
        ⟨.disconnected, how = .connected, x.sysexOutcome, x.ccOutcome⟩
  | read => finishTurn T options w loop call ⟨read, true, x.sysexOutcome, x.ccOutcome⟩

def hotswapStep (s : BridgeRun) (x : LoopInput) : BridgeRun × LoopOutput :=
  match s.phase with
  | .looping =>
    let w := lookAtRunning s.world x.signalled
    if !w.now.running then (leave w s.loop (.returned 0), .nothing)
    else
      match readProcs errorName usb w.now.device ⟨s.loop.protocol, []⟩ x.feedback with
      | (_, .error what) => (leave w s.loop (.threw what), .nothing)
      | (fed, .ok ()) =>
        readTurn errorName T options usb w { s.loop with protocol := fed.protocol } x
  | _ => (s, .nothing)

/-- The main loop. -/
def hotswap : Machine BridgeRun LoopInput LoopOutput := ⟨hotswapStep errorName T options usb⟩

/-- What `run_bridge` meets before its main loop. -/
structure StartInput where
  /-- The result of `libusb_init`. -/
  contextRc : Rc
  attempts : List ConnectAttempt
  /-- How the constructor of `CoreMidiBridge` ends. -/
  midi : Except String Unit

def runBridgeStart (x : StartInput) : BridgeRun :=
  let loop := RunBridge.start options
  if x.contextRc.val < 0 then
    -- the constructor of `UsbDevice` throws
    ⟨.start {}, loop,
      .exited (.threw (checkMessage errorName "Failed to initialize libusb" x.contextRc))⟩
  else
    match connect errorName usb (.start {}) x.attempts with
    | (w, none) | (w, some .initRunning) => ⟨w, loop, .connecting⟩
    | (w, some .connected) =>
      match x.midi with
      | .ok () => ⟨w, loop, .looping⟩
      | .error what => leave w loop (.threw what)
    | (w, some _) => leave w loop (.returned 1)

end Bridge
