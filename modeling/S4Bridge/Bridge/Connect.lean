import Mathlib.Data.List.Infix
import S4Bridge.Lib.Retry
import S4Bridge.Device.UsbDevice

/-!
# Connecting (`connect` in `run_bridge`, `main.cpp`)

One turn of `connect` looks at `running` and then closes, opens and initializes the device. An
exception is tried again a second later, unless its text contains "Multiple". A signal may clear
`running` at any time; it shows when the loop next looks, which nothing else does meanwhile.
-/

namespace Bridge

open Device Startup

/-- What one turn of the loop meets. -/
structure ConnectAttempt where
  /-- A signal has come since the loop last looked at `running`. -/
  signalled : Bool
  openEnv : OpenEnv
  initEnv : Nat → CallEnv

inductive ConnectExit
  | connected
  /-- More than one device. -/
  | hardError (what : String)
  /-- `running` is false. -/
  | stopped
  /-- `s4_mk1_init` does not return. -/
  | initRunning
  deriving DecidableEq, Repr

variable (errorName : Int → String) (options : UsbOptions)

/-- `s4_mk1_init` on the device as it is open now. -/
def initDevice (w : History Host) (env : Nat → CallEnv) : History Host × Outcome :=
  let dev : Startup.Device := ⟨some 0, w.now.device.handle⟩
  let (u, outcome) := s4Mk1Init errorName dev (.start w.now.usb) env
  (w.lift w.now.setUsb u, outcome)

/-- The body of the `try`. -/
def attempt (w : History Host) (a : ConnectAttempt) : History Host × Outcome :=
  match openDevice errorName options (w.step (·.close)) a.openEnv with
  | (w, .returned) =>
    match initDevice errorName w a.initEnv with
    | (w, .returned) => (w.step (·.markInitialized), .returned)
    | (w, outcome) => (w, outcome)
  | (w, outcome) => (w, outcome)

/-- `msg.find("Multiple") != string::npos` -/
def isHardError (what : String) : Bool := decide ("Multiple".toList <:+: what.toList)

def lookAtRunning (w : History Host) (signalled : Bool) : History Host :=
  if signalled then w.step (·.stopRunning) else w

def connectTurn (w : History Host) (a : ConnectAttempt) : Retry.Turn (History Host) ConnectExit :=
  let w := lookAtRunning w a.signalled
  if !w.now.running then .exit w .stopped
  else
    match attempt errorName options w a with
    | (w, .returned) => .exit w .connected
    | (w, .running) => .exit w .initRunning
    | (w, .threw what) =>
      if isHardError what then .exit (w.step (·.stopRunning)) (.hardError what) else .again w

/-- `connect`, as far as `attempts` go. -/
def connect (w : History Host) (attempts : List ConnectAttempt) :
    History Host × Option ConnectExit :=
  Retry.run (connectTurn errorName options) w attempts

end Bridge
