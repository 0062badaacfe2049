import S4Bridge.Bridge.Loop
import S4Bridge.Lib.Formatted

/-!
# The debug output of the main loop (`print_input_deltas` and its use in `run_bridge`, `main.cpp`)

With `--input-debug` the loop prints what changed from one packet to the next, a line for each byte;
with `--input-debug-buttons` only where few bytes changed, and of those only single bits. After a
reconnect the first packet is compared with nothing. `cout` keeps its base and its fill character from
one line to the next, so it is part of the state.

Left out: the other lines on `cout`, which are between two of these and leave the base ten.
-/

namespace Bridge

open Formatted

/-! ## `print_input_deltas` -/

/-- `std::popcount` -/
def popcount (x : UInt8) : Nat :=
  (List.finRange 8).countP fun bit => decide ((x >>> UInt8.ofNat bit) &&& 0x01 ≠ 0)

/-- The loop over the bits; `first` while none was printed. -/
def printBits (diff cur : UInt8) : Stream → Bool → List (Fin 8) → Stream
  | cout, _, [] => cout
  | cout, first, bit :: rest =>
    if (diff >>> UInt8.ofNat bit) &&& 0x01 = 0 then printBits diff cur cout first rest
    else
      let cout := if !first then cout.putChar ',' else cout
      let cout := ((cout.putChar 'b').putNat bit).putChar '='
      let cout := cout.putChar (if (cur >>> UInt8.ofNat bit) &&& 0x01 ≠ 0 then '1' else '0')
      printBits diff cur cout false rest

/-- The body of the loop over the bytes. -/
def printDelta (buttonsOnly : Bool) (cout : Stream) (byteIndex : Nat) (prev cur : UInt8) : Stream :=
  let diff := prev ^^^ cur
  if diff = 0 then cout
  else if buttonsOnly && popcount diff ≠ 1 then cout
  else
    let cout := cout.putText (if buttonsOnly then "[btn] " else "[raw] ")
    let cout := (cout.putText "byte=").putNat byteIndex
    let cout := (((cout.putText " prev=0x").hex.setw 2).setfill '0').putNat prev.toNat
    let cout := (((cout.putText " cur=0x").setw 2).putNat cur.toNat).dec
    let cout := (cout.putText " v7=").putNat ((prev >>> 1) &&& 0x7F).toNat
    let cout := (cout.putText "->").putNat ((cur >>> 1) &&& 0x7F).toNat
    (printBits diff cur (cout.putText " bits=") true (List.finRange 8)).endl

def printInputDeltas (cout : Stream) (previous current : List UInt8) (buttonsOnly : Bool) :
    Stream :=
  let byteCount := min previous.length current.length
  let changedBytes := (List.range byteCount).countP fun i =>
    decide (previous.getD i 0 ≠ current.getD i 0)
  if buttonsOnly && decide (changedBytes > 2) then cout
  else
    (List.range byteCount).foldl
      (fun cout i => printDelta buttonsOnly cout i (previous.getD i 0) (current.getD i 0)) cout

/-! ## The loop with its debug output -/

/-- The options of the debug output. -/
structure DebugOptions where
  inputDebug : Bool
  inputDebugButtonsOnly : Bool
  deriving DecidableEq, Repr

structure DebugState where
  previousDebugPacket : List UInt8 := []
  cout : Stream := {}
  deriving DecidableEq, Repr

/-- The debug part of an iteration that is made. -/
def debugPart (debug : DebugOptions) (s : DebugState) (it : Iteration) : DebugState :=
  match it.read with
  | .threw _ => s
  | .disconnected => if it.connected then { s with previousDebugPacket := [] } else s
  | .packet packet =>
    if packet.isEmpty then s
    else if debug.inputDebug then
      let cout :=
        if !s.previousDebugPacket.isEmpty then
          printInputDeltas s.cout s.previousDebugPacket packet debug.inputDebugButtonsOnly
        else s.cout
      ⟨packet, cout⟩
    else s

structure DebugRun where
  loop : RunBridge
  debug : DebugState

variable (T : Protocol.Tables) (options : AppOptions) (debug : DebugOptions)

def debugIterate (s : DebugRun) (it : Iteration) : DebugRun × Published :=
  let (loop, published) := iterate T options s.loop it
  (⟨loop, if s.loop.ending.isSome then s.debug else debugPart debug s.debug it⟩, published)

/-- The state after the first `connect()`. -/
def DebugRun.start : DebugRun := ⟨.start options, {}⟩

/-- The loop with its debug output. -/
def debugBridge : Machine DebugRun Iteration Published := ⟨debugIterate T options debug⟩

end Bridge
