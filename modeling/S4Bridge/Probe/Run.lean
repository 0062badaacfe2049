import S4Bridge.Args.HexDump
import S4Bridge.Args.Parse
import S4Bridge.Bridge.Hotswap
import S4Bridge.Device.Listing

/-!
# The probe (`run_probe` in `main.cpp`)

The probe lists the devices with the configured ids. With a payload it opens the device and writes
the payload in cycles, in each of which it may read a response and sleep; else, if asked to stream, it
prints what it reads until `running` is false. Both loops are `Retry` loops: a turn goes on or leaves
`run_probe`. The cycles are counted, and a run that has made them all is done with; the turns of the
stream are a list as far as they have come.

The transfers a run makes, with what they return, and its pauses are kept in order (`Act`). A signal
may come at any time; only the loop of the stream looks at `running`.
-/

namespace Probe

open Device Startup Formatted Bridge Args

inductive Act
  | write (payload : List UInt8) (transfer : Transferred)
  | read (transfer : Transferred)
  | sleep (ms : Int)
  deriving DecidableEq, Repr

structure ProbeRun where
  world : History Host
  cout : Stream
  acts : List Act

def ProbeRun.act (s : ProbeRun) (a : Act) : ProbeRun := { s with acts := s.acts ++ [a] }

/-- What the transfers of a cycle return. -/
structure CycleEnv where
  write : Transferred
  response : Transferred

/-- What a turn of the stream meets. -/
structure StreamInput where
  /-- A signal has come since the loop last looked at `running`. -/
  signalled : Bool
  transfer : Transferred

structure ProbeInput where
  /-- The result of `libusb_init`. -/
  contextRc : Rc
  /-- The list `print_descriptors` gets. -/
  deviceList : Except Int (List ListedDevice)
  openEnv : OpenEnv
  cycles : Nat → CycleEnv

variable (errorName : Int → String) (options : Args.AppOptions)

/-- `read_input` has checked the handle and the report size, and makes its transfer. -/
def reads (device : UsbDevice) : Bool := device.handle.isSome && decide (0 < options.usb.reportSize)

/-- `read_input`; `print` is called with a packet that is not empty. -/
def readAndPrint (print : Stream → List UInt8 → Stream) (s : ProbeRun) (transfer : Transferred) :
    ProbeRun × Except String Unit :=
  let (device, result) := readInput errorName options.usb s.world.now.device transfer
  let s := if reads options s.world.now.device then s.act (.read transfer) else s
  let s := { s with world := s.world.step (·.setDevice device) }
  match result with
  | .error what => (s, .error what)
  | .ok packet =>
    if packet.isEmpty then (s, .ok ()) else ({ s with cout := print s.cout packet }, .ok ())

/-! ## Writing -/

/-- A number that may be negative, in base ten. -/
def putInt (cout : Stream) (n : Int) : Stream :=
  if n < 0 then cout.put ('-' :: Nat.toDigits cout.base n.natAbs) else cout.putNat n.toNat

def printWriting (cout : Stream) : Stream :=
  let cout := ((cout.putText "Writing ").putNat options.writePayload.length).putText
    " bytes to out endpoint 0x"
  let cout := (((cout.hex.setw 2).setfill '0').putNat options.usb.outputEndpoint.toNat).dec
  ((putInt (cout.putText " for ") options.writeRepeat).putText " cycle(s).").endl

def printResponse (cout : Stream) (packet : List UInt8) : Stream :=
  ((cout.putText "RX ").putText (hexDump packet)).endl

/-- A cycle once it is known how the write went. -/
def respond (s : ProbeRun) (index : Nat) (response : Transferred) : ProbeRun × Except String Unit :=
  let (s, result) :=
    if options.stream then readAndPrint errorName options printResponse s response else (s, .ok ())
  match result with
  | .error what => (s, .error what)
  | .ok () =>
    if (index + 1 : Int) < options.writeRepeat ∧ options.writeIntervalMs > 0 then
      (s.act (.sleep options.writeIntervalMs), .ok ())
    else (s, .ok ())

def writeCycle (s : ProbeRun) (cycle : Nat × CycleEnv) : Retry.Turn ProbeRun String :=
  let (index, env) := cycle
  let (handed, result) :=
    writeOutput errorName options.usb s.world.now.device options.writePayload env.write
  let s := handed.elim s fun payload => s.act (.write payload env.write)
  match result with
  | .error what => .exit s what
  | .ok () =>
    match respond errorName options s index env.response with
    | (s, .error what) => .exit s what
    | (s, .ok ()) => .again s

/-- The cycles of the loop, with what their transfers return. -/
def cyclesOf (env : Nat → CycleEnv) : List (Nat × CycleEnv) :=
  (List.range options.writeRepeat.toNat).map fun index => (index, env index)

/-- Leaving `run_probe` destroys the device object. -/
def leave (s : ProbeRun) (exit : Exit) : ProbeRun × Option Exit :=
  ({ s with world := s.world.step (·.closeHandle) }, some exit)

def writeProbe (s : ProbeRun) (x : ProbeInput) : ProbeRun × Option Exit :=
  if options.usb.outputEndpoint = 0 then leave s (.threw "--write-hex requires --out-ep")
  else
    match openDevice errorName options.usb s.world x.openEnv with
    | (w, .threw what) => leave { s with world := w } (.threw what)
    | (w, _) =>
      let s : ProbeRun := { s with world := w, cout := printWriting options s.cout }
      match Retry.run (writeCycle errorName options) s (cyclesOf options x.cycles) with
      | (s, some what) => leave s (.threw what)
      | (s, none) =>
        leave { s with cout := (s.cout.putText "Write probe complete.").endl } (.returned 0)

/-! ## Streaming -/

def printPacket (cout : Stream) (packet : List UInt8) : Stream := (cout.putText (hexDump packet)).endl

def streamTurn (s : ProbeRun) (x : StreamInput) : Retry.Turn ProbeRun Exit :=
  let w := lookAtRunning s.world x.signalled
  if !w.now.running then .exit { s with world := w } (.returned 0)
  else
    match readAndPrint errorName options printPacket { s with world := w } x.transfer with
    | (s, .error what) => .exit s (.threw what)
    | (s, .ok ()) => .again s

def streamProbe (s : ProbeRun) (x : ProbeInput) (turns : List StreamInput) :
    ProbeRun × Option Exit :=
  match openDevice errorName options.usb s.world x.openEnv with
  | (w, .threw what) => leave { s with world := w } (.threw what)
  | (w, _) =>
    match Retry.run (streamTurn errorName options) { s with world := w } turns with
    | (s, some exit) => leave s exit
    | (s, none) => (s, none)

/-! ## The probe -/

/-- `run_probe`; there is no exit as long as the loop of the stream has not been left. -/
def runProbe (x : ProbeInput) (turns : List StreamInput) : ProbeRun × Option Exit :=
  if x.contextRc.val < 0 then
    -- the constructor of `UsbDevice` throws
    (⟨.start {}, {}, []⟩,
      some (.threw (checkMessage errorName "Failed to initialize libusb" x.contextRc)))
  else
    match printDescriptors options.usb (.start {}) {} x.deviceList with
    | ((w, cout), .threw what) => leave ⟨w, cout, []⟩ (.threw what)
    | ((w, cout), _) =>
      let s : ProbeRun := ⟨w, cout, []⟩
      if !options.writePayload.isEmpty then writeProbe errorName options s x
      else if !options.stream then leave s (.returned 0)
      else streamProbe errorName options s x turns

end Probe
