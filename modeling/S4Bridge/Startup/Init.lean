import S4Bridge.Startup.Usb

/-!
# The start-up sequence (`s4_init.cpp`)

`cmd`, `ledAsync`, `startDrain84` and `stopDrain84` are the four operations `s4Mk1Init` consists of.
What a call meets is a `CallEnv`: whether its allocations succeed, what its submissions return, and
the rounds of its event loop with the completions of each and the clock. A call that uses up its
rounds is still running. `initRuns` is a sequence of attempts, as `connect()` makes them.

Left out: the progress messages, which are text nothing reads back.
-/

namespace Startup

open Transfers

def epCmd : UInt8 := 0x01
def epResp : UInt8 := 0x81
def epLed : UInt8 := 0x08

/-! ## What a call meets -/

/-- The two pointers a `UsbDevice` hands out. -/
structure Device where
  context : Option Context
  handle : Option Handle
  deriving DecidableEq, Repr

/-- One turn of an event loop. -/
structure Round where
  completions : List Completion
  /-- The clock is past the deadline when the loop looks at it. -/
  late : Bool

structure CallEnv where
  /-- Whether the `k`-th allocation of the call succeeds. -/
  alloc : Nat → Bool
  /-- What the `k`-th submission of the call returns. -/
  submit : Nat → Rc
  rounds : List Round
  /-- The turns after a cancellation that is waited for. -/
  cancelRounds : List (List Completion)

inductive Outcome
  | returned
  | threw (what : String)
  | running
  deriving DecidableEq, Repr

/-! ## Event loops -/

def allocTransfer (w : History Usb) (succeeds : Bool) : History Usb × Option Nat :=
  if succeeds then (w.step Usb.alloc, some w.now.transfers.length) else (w, none)

inductive WaitExit
  | done | deadline | running
  deriving DecidableEq, Repr

/-- `while` not all of `ids` are done: handle events, then look at the clock. -/
def waitLoop (ids : List Nat) : History Usb → List Round → History Usb × WaitExit
  | w, [] => (w, if ids.all w.now.isDone then .done else .running)
  | w, round :: rounds =>
    if ids.all w.now.isDone then (w, .done)
    else
      let w := handleEvents w round.completions
      if round.late then (w, .deadline) else waitLoop ids w rounds

/-! ## Commands -/

variable (errorName : Int → String) (dev : Device)

/-- `in_buf`, which nothing reads. -/
def inBuf : List UInt8 := List.replicate 64 0

/-- `cmd` once both transfers are submitted. -/
def cmdWait (w : History Usb) (inT outT : Nat) (rounds : List Round) : History Usb × Outcome :=
  match waitLoop [inT, outT] w rounds with
  | (w, .running) => (w, .running)
  | (w, .deadline) =>
    let w := (w.step (·.cancel inT)).step (·.cancel outT)
    let w := (w.step (·.free inT)).step (·.free outT)
    (w, .threw "Timeout waiting for CMD/RESP transfer pair")
  | (w, .done) =>
    let w := (w.step (·.free inT)).step (·.free outT)
    let status := w.now.status outT
    if status ≠ .completed then
      (w, .threw ("CMD OUT transfer failed: " ++ errorName status.code))
    else (w, .returned)

/-- `cmd` once both transfers are filled: IN is submitted first, then OUT. -/
def cmdSubmit (w : History Usb) (inT outT : Nat) (env : CallEnv) : History Usb × Outcome :=
  let rc := env.submit 0
  let w := w.step (·.submit inT rc)
  if rc.val < 0 then
    let w := (w.step (·.free inT)).step (·.free outT)
    (w, .threw ("Failed to submit IN transfer: " ++ errorName rc))
  else
    let rc := env.submit 1
    let w := w.step (·.submit outT rc)
    if rc.val < 0 then
      let w := ((w.step (·.cancel inT)).step (·.free inT)).step (·.free outT)
      (w, .threw ("Failed to submit OUT transfer: " ++ errorName rc))
    else cmdWait errorName w inT outT env.rounds

def cmd (w : History Usb) (bytes : List UInt8) (env : CallEnv) : History Usb × Outcome :=
  if dev.context.isNone || dev.handle.isNone then (w, .threw "USB device not open during init")
  else
    let (w, inT) := allocTransfer w (env.alloc 0)
    let (w, outT) := allocTransfer w (env.alloc 1)
    match inT, outT with
    | some inT, some outT =>
      let w := w.step (·.fill inT dev.handle epResp inBuf .xferCb)
      let w := w.step (·.fill outT dev.handle epCmd bytes .xferCb)
      cmdSubmit errorName w inT outT env
    | _, _ => (w, .threw "Failed to allocate libusb transfers")

/-! ## The drain of endpoint 0x84 -/

/-- `s_drain` with a new transfer, filled. -/
def fillDrain (u : Usb) : Usb :=
  let t := u.transfers.length
  let drain := { u.drain with ctx := dev.context, hdl := dev.handle, t := some t }
  { u.alloc with drain }.fill t dev.handle epData drainBuf .drain84Cb

/-- `s_drain` after a failed allocation. -/
def noDrain (u : Usb) : Usb :=
  { u with drain := { u.drain with ctx := dev.context, hdl := dev.handle, t := none } }

def submitDrain (t : Nat) (rc : Rc) (u : Usb) : Usb :=
  { u.submit t rc with drain := { u.drain with active := decide (rc.val = 0) } }

def freeDrain (t : Nat) (u : Usb) : Usb :=
  { u.free t with drain := { u.drain with t := none, active := false } }

def startDrain84 (w : History Usb) (env : CallEnv) : History Usb × Outcome :=
  if env.alloc 0 then
    let t := w.now.transfers.length
    ((w.step (fillDrain dev)).step (submitDrain t (env.submit 0)), .returned)
  else (w.step (noDrain dev), .returned)

/-- `while` the drain is active and the clock is before the deadline: handle events. -/
def stopLoop : History Usb → List Round → History Usb × WaitExit
  | w, [] => (w, if w.now.drain.active then .running else .done)
  | w, round :: rounds =>
    if !w.now.drain.active then (w, .done)
    else if round.late then (w, .deadline)
    else stopLoop (handleEvents w round.completions) rounds

def stopDrain84 (w : History Usb) (env : CallEnv) : History Usb × Outcome :=
  match w.now.drain.t with
  | none => (w, .returned)
  | some t =>
    let (w, exit) :=
      if w.now.drain.active then stopLoop (w.step (·.cancel t)) env.rounds else (w, .done)
    if exit = .running then (w, .running) else (w.step (freeDrain t), .returned)

/-! ## LED writes -/

/-- `led_async` once the transfer is submitted. -/
def ledWait (w : History Usb) (ledT : Nat) (env : CallEnv) : History Usb × Outcome :=
  match waitLoop [ledT] w env.rounds with
  | (w, .running) => (w, .running)
  | (w, .deadline) =>
    -- the cancellation is waited for without a deadline
    match waitLoop [ledT] (w.step (·.cancel ledT)) (env.cancelRounds.map (⟨·, false⟩)) with
    | (w, .done) => (w.step (·.free ledT), .threw "LED async write timed out on endpoint 0x08")
    | (w, _) => (w, .running)
  | (w, .done) =>
    let w := w.step (·.free ledT)
    let status := w.now.status ledT
    if status ≠ .completed then
      (w, .threw ("LED write failed, status=" ++ toString status.code))
    else (w, .returned)

def ledAsync (w : History Usb) (data : List UInt8) (env : CallEnv) : History Usb × Outcome :=
  let (w, ledT) := allocTransfer w (env.alloc 0)
  match ledT with
  | none => (w, .threw "Failed to alloc LED transfer")
  | some ledT =>
    let w := w.step (·.fill ledT dev.handle epLed data .xferCb)
    let rc := env.submit 0
    let w := w.step (·.submit ledT rc)
    if rc.val < 0 then
      (w.step (·.free ledT), .threw ("Failed to submit LED transfer: " ++ errorName rc))
    else ledWait w ledT env

/-- Group A: all LEDs off. -/
def ledDumpA : List (List UInt8) := [
  [0x00, 0x00, 0x01, 0x00, 0x02, 0x00, 0x03, 0x00, 0x04, 0x00, 0x05, 0x00, 0x06, 0x00, 0x07, 0x00,
   0x0a, 0x00, 0x0b, 0x00, 0x0c, 0x00, 0x0d, 0x1f, 0x0e, 0x00, 0x0f, 0x00, 0x10, 0x00, 0x11, 0x00],
  [0x12, 0x00, 0x13, 0x00, 0x14, 0x00, 0x15, 0x00, 0x16, 0x00, 0x17, 0x00, 0x18, 0x00, 0x19, 0x00,
   0x1a, 0x00, 0x1b, 0x00, 0x1c, 0x00, 0x1d, 0x00, 0x1e, 0x00, 0x1f, 0x00, 0x20, 0x00, 0x21, 0x00],
  [0x22, 0x00, 0x23, 0x00, 0x24, 0x00, 0x25, 0x00, 0x26, 0x00, 0x27, 0x00, 0x2c, 0x00, 0x2d, 0x00,
   0x2e, 0x00, 0x2f, 0x00, 0x30, 0x00, 0x31, 0x00, 0x32, 0x00, 0x33, 0x00, 0x34, 0x00, 0x35, 0x00],
  [0x36, 0x00, 0x37, 0x00, 0x38, 0x00, 0x39, 0x00, 0x3a, 0x00, 0x3b, 0x00, 0x3c, 0x00, 0x3d, 0x00,
   0x3e, 0x00, 0x3f, 0x00, 0x40, 0x00, 0x41, 0x00, 0x42, 0x00, 0x43, 0x00, 0x44, 0x00, 0x45, 0x00],
  [0x46, 0x00, 0x47, 0x00, 0x48, 0x00, 0x49, 0x00, 0x4a, 0x00, 0x4b, 0x00, 0x4c, 0x00, 0x4d, 0x00,
   0x4e, 0x00, 0x4f, 0x00, 0x51, 0x00, 0x52, 0x00, 0x53, 0x00, 0x54, 0x00, 0x55, 0x00, 0x56, 0x00],
  [0x57, 0x00, 0x59, 0x00, 0x5a, 0x00, 0x5b, 0x00, 0x5c, 0x00, 0x5d, 0x00, 0x5e, 0x00, 0x5f, 0x00,
   0x61, 0x00, 0x62, 0x00, 0x63, 0x00, 0x64, 0x00, 0x65, 0x00, 0x66, 0x00, 0x67, 0x00, 0x69, 0x00],
  [0x6a, 0x00, 0x6b, 0x00, 0x6c, 0x00, 0x6d, 0x00, 0x6e, 0x00, 0x6f, 0x00, 0x70, 0x00, 0x71, 0x00,
   0x72, 0x00, 0x73, 0x00, 0x74, 0x00, 0x75, 0x00, 0x76, 0x00, 0x77, 0x00, 0x78, 0x00, 0x79, 0x00],
  [0x7a, 0x00, 0x7b, 0x00, 0x7c, 0x00, 0x7d, 0x00, 0x7e, 0x00, 0x7f, 0x00, 0x81, 0x00, 0x82, 0x00,
   0x83, 0x00, 0x84, 0x00, 0x85, 0x00, 0x88, 0x1f, 0x89, 0x1f, 0x8a, 0x1f, 0x8b, 0x1f, 0x8c, 0x1f],
  [0x8d, 0x1f, 0x8e, 0x1f, 0x8f, 0x1f, 0x90, 0x00, 0x91, 0x00, 0x92, 0x00, 0x93, 0x00, 0x94, 0x00,
   0x95, 0x00, 0x96, 0x00, 0x97, 0x00, 0x99, 0x00, 0x9a, 0x00, 0x9b, 0x00, 0x9c, 0x00, 0x9d, 0x00],
  [0x9e, 0x00, 0x9f, 0x00, 0xa0, 0x00, 0xa1, 0x00, 0xa2, 0x00, 0xa3, 0x00, 0xa4, 0x00, 0xa5, 0x00,
   0xa6, 0x00, 0xa7, 0x00, 0xa8, 0x00, 0xa9, 0x00, 0xaa, 0x00, 0xab, 0x00, 0xac, 0x00, 0xad, 0x00],
  [0xae, 0x00, 0xaf, 0x00, 0xb4, 0x00, 0xb5, 0x00, 0xb6, 0x00, 0xb7, 0x00, 0xb8, 0x00, 0xb9, 0x00,
   0xba, 0x00, 0xbb, 0x00, 0xbc, 0x00, 0xbd, 0x00, 0xbe, 0x00, 0xbf, 0x00, 0xff, 0xaa, 0xff, 0xaa]]

/-- Group B: the initial lit state. -/
def ledDumpB : List (List UInt8) := [
  [0x00, 0x1f, 0x01, 0x02, 0x02, 0x1f, 0x03, 0x02, 0x04, 0x02, 0x05, 0x1f, 0x06, 0x02, 0x07, 0x1f,
   0x0a, 0x02, 0x0b, 0x02, 0x0c, 0x1f, 0x0d, 0x1f, 0x0e, 0x1f, 0x0f, 0x02, 0x10, 0x02, 0x11, 0x02],
  [0x12, 0x02, 0x13, 0x02, 0x14, 0x02, 0x15, 0x02, 0x16, 0x02, 0x17, 0x02, 0x18, 0x02, 0x19, 0x02,
   0x1a, 0x02, 0x1b, 0x02, 0x1c, 0x02, 0x1d, 0x02, 0x1e, 0x02, 0x1f, 0x02, 0x20, 0x02, 0x21, 0x02],
  [0x22, 0x02, 0x23, 0x1f, 0x24, 0x02, 0x25, 0x1f, 0x26, 0x10, 0x27, 0x10, 0x2c, 0x02, 0x2d, 0x02,
   0x2e, 0x02, 0x2f, 0x02, 0x30, 0x00, 0x31, 0x00, 0x32, 0x00, 0x33, 0x00, 0x34, 0x00, 0x35, 0x00],
  [0x36, 0x00, 0x37, 0x00, 0x38, 0x00, 0x39, 0x10, 0x3a, 0x10, 0x3b, 0x10, 0x3c, 0x00, 0x3d, 0x10,
   0x3e, 0x00, 0x3f, 0x00, 0x40, 0x02, 0x41, 0x02, 0x42, 0x02, 0x43, 0x02, 0x44, 0x02, 0x45, 0x02],
  [0x46, 0x02, 0x47, 0x02, 0x48, 0x02, 0x49, 0x02, 0x4a, 0x02, 0x4b, 0x02, 0x4c, 0x02, 0x4d, 0x02,
   0x4e, 0x02, 0x4f, 0x02, 0x51, 0x00, 0x52, 0x00, 0x53, 0x00, 0x54, 0x00, 0x55, 0x00, 0x56, 0x00],
  [0x57, 0x00, 0x59, 0x00, 0x5a, 0x00, 0x5b, 0x00, 0x5c, 0x00, 0x5d, 0x00, 0x5e, 0x00, 0x5f, 0x00,
   0x61, 0x00, 0x62, 0x00, 0x63, 0x00, 0x64, 0x00, 0x65, 0x00, 0x66, 0x00, 0x67, 0x00, 0x69, 0x00],
  [0x6a, 0x00, 0x6b, 0x00, 0x6c, 0x00, 0x6d, 0x00, 0x6e, 0x00, 0x6f, 0x00, 0x70, 0x1f, 0x71, 0x1f,
   0x72, 0x06, 0x73, 0x00, 0x74, 0x01, 0x75, 0x01, 0x76, 0x01, 0x77, 0x10, 0x78, 0x02, 0x79, 0x02],
  [0x7a, 0x06, 0x7b, 0x00, 0x7c, 0x01, 0x7d, 0x01, 0x7e, 0x01, 0x7f, 0x01, 0x81, 0x02, 0x82, 0x02,
   0x83, 0x02, 0x84, 0x02, 0x85, 0x1f, 0x88, 0x1f, 0x89, 0x1f, 0x8a, 0x1f, 0x8b, 0x1f, 0x8c, 0x1f],
  [0x8d, 0x1f, 0x8e, 0x1f, 0x8f, 0x1f, 0x90, 0x1f, 0x91, 0x02, 0x92, 0x1f, 0x93, 0x02, 0x94, 0x02,
   0x95, 0x1f, 0x96, 0x02, 0x97, 0x02, 0x99, 0x02, 0x9a, 0x02, 0x9b, 0x02, 0x9c, 0x02, 0x9d, 0x1f],
  [0x9e, 0x02, 0x9f, 0x02, 0xa0, 0x00, 0xa1, 0x10, 0xa2, 0x10, 0xa3, 0x10, 0xa4, 0x00, 0xa5, 0x10,
   0xa6, 0x00, 0xa7, 0x00, 0xa8, 0x00, 0xa9, 0x00, 0xaa, 0x00, 0xab, 0x00, 0xac, 0x00, 0xad, 0x00],
  [0xae, 0x00, 0xaf, 0x00, 0xb4, 0x02, 0xb5, 0x02, 0xb6, 0x02, 0xb7, 0x02, 0xb8, 0x08, 0xb9, 0x08,
   0xba, 0x02, 0xbb, 0x1f, 0xbc, 0x02, 0xbd, 0x1f, 0xbe, 0x01, 0xbf, 0x10, 0xff, 0xaa, 0xff, 0xaa]]

/-- The LED wake packet. -/
def wakePkt : List UInt8 :=
  [0x0d, 0x1f, 0x88, 0x1f, 0x89, 0x1f, 0x8a, 0x1f, 0x8b, 0x1f, 0x8c, 0x1f, 0x8d, 0x1f, 0x8e, 0x1f,
   0x8f, 0x1f, 0xff, 0xaa, 0xff, 0xaa, 0xff, 0xaa, 0xff, 0xaa, 0xff, 0xaa, 0xff, 0xaa, 0xff, 0xaa]

/-! ## The sequence -/

inductive InitStep
  | cmd (bytes : List UInt8)
  | led (packet : List UInt8)
  | startDrain
  | stopDrain
  deriving DecidableEq, Repr

/-- Phases 1 to 5. -/
def handshake : List InitStep := [
  .cmd [0x01],
  .cmd [0x01, 0x00],
  .cmd [0x14, 0x00],
  .cmd [0x14, 0x01],
  .cmd [0x14, 0x02],
  .cmd [0x14, 0x03],
  .cmd [0x14, 0x04],
  .cmd [0x14, 0x05],
  .cmd [0x0b, 0xff, 0x04, 0x05],
  .led wakePkt,
  .cmd [0x01, 0x00],
  .cmd [0x01, 0x78],
  .cmd [0x09, 0x01, 0x02, 0x70, 0x00, 0x01],
  .cmd [0x01, 0x00],
  .cmd [0x09, 0x01, 0x02, 0x70, 0x00, 0x01],
  .cmd [0x09, 0xff, 0x00, 0x00, 0x00, 0x01],
  .cmd [0x01, 0x00],
  .cmd [0x09, 0x01, 0x02, 0x70, 0x00, 0x01]]

/-- Phases 6 and 7. -/
def ledDump : List InitStep := (ledDumpA ++ ledDumpB).map .led

def initSteps : List InitStep := handshake ++ .startDrain :: ledDump ++ [.stopDrain]

def execStep (w : History Usb) : InitStep → CallEnv → History Usb × Outcome
  | .cmd bytes, env => cmd errorName dev w bytes env
  | .led packet, env => ledAsync errorName dev w packet env
  | .startDrain, env => startDrain84 dev w env
  | .stopDrain, env => stopDrain84 w env

/-- The steps one after the other, up to the first that does not return. -/
def runSteps : History Usb → List (InitStep × CallEnv) → History Usb × Outcome
  | w, [] => (w, .returned)
  | w, (step, env) :: rest =>
    match execStep errorName dev w step env with
    | (w, .returned) => runSteps w rest
    | (w, outcome) => (w, outcome)

/-- The steps with what each meets. -/
def withEnv (env : Nat → CallEnv) : List (InitStep × CallEnv) :=
  initSteps.zipIdx.map fun step => (step.1, env step.2)

def s4Mk1Init (w : History Usb) (env : Nat → CallEnv) : History Usb × Outcome :=
  runSteps errorName dev w (withEnv env)

/-! ## Attempts -/

/-- One attempt of `connect()`: the events handled since the last one, the device opened, and what
the calls of `s4Mk1Init` meet. -/
structure Attempt where
  before : List Completion
  device : Device
  env : Nat → CallEnv

/-- Attempts one after the other, as far as each ends. -/
def initRuns : History Usb → List Attempt → History Usb × Outcome
  | w, [] => (w, .returned)
  | w, attempt :: rest =>
    match s4Mk1Init errorName attempt.device (handleEvents w attempt.before) attempt.env with
    | (w, .running) => (w, .running)
    | (w, _) => initRuns w rest

end Startup
