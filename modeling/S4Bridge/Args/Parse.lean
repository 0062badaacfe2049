import S4Bridge.Lib.Numerals
import S4Bridge.Bridge.Loop
import S4Bridge.Device.UsbDevice

/-!
# The command line (`parse_args` in `main.cpp`)

The arguments are read one flag after the other; a flag that takes a value reads it with a parser of
its own and changes the options by it. A byte of an argument is the character with its code.

`stoul` and `stoi` are those of the standard library, on a platform with a 64-bit `long`: they read
the numeral the text begins with, ignore what follows, and throw where there is none or it does not
fit; `stoul` negates modulo 2^64.
-/

namespace Args

open Numerals

/-! ## Numbers -/

def stoul (base : Nat) (text : List Char) : Except String UInt64 :=
  match scan base text with
  | none => .error "stoul: no conversion"
  | some m =>
    if 0xFFFFFFFFFFFFFFFF < m.magnitude then .error "stoul: out of range"
    else
      let value := UInt64.ofNat m.magnitude
      .ok (if m.negative then -value else value)

def stoi (base : Nat) (text : List Char) : Except String Int :=
  match scan base text with
  | none => .error "stoi: no conversion"
  | some m =>
    if m.value < -0x80000000 ∨ 0x7FFFFFFF < m.value then .error "stoi: out of range"
    else .ok m.value

def parseU16 (text : String) : Except String UInt16 := (stoul 0 text.toList).map (·.toUInt16)

def parseU8 (text : String) : Except String UInt8 := (stoul 0 text.toList).map (·.toUInt8)

def parseI32 (text : String) : Except String Int := stoi 0 text.toList

/-- The parts a stream is read into by `>>`. -/
def tokens (text : List Char) : List (List Char) :=
  (text.splitOnP isSpace).filter fun t => !t.isEmpty

/-- The loop of `parse_hex_bytes`. -/
def parseHexTokens : List (List Char) → Except String (List UInt8)
  | [] => .ok []
  | token :: rest =>
    match stoul 16 token with
    | .error what => .error what
    | .ok value =>
      if value > 0xFF then
        .error ("Hex byte out of range in --write-hex: " ++ String.ofList token)
      else (parseHexTokens rest).map (value.toUInt8 :: ·)

def parseHexBytes (text : String) : Except String (List UInt8) :=
  match parseHexTokens (tokens text.toList) with
  | .error what => .error what
  | .ok [] => .error "--write-hex requires at least one byte, example: \"00 7f ff\""
  | .ok bytes => .ok bytes

open Protocol in
def parseDecodeMode (text : String) : Except String InputDecodeMode :=
  if text = "byte" then .ok .byte
  else if text = "bit" then .ok .bit
  else if text = "hybrid" then .ok .hybrid
  else .error "--input-decode must be one of: byte, bit, hybrid"

/-- `parse_i32` with the check that follows it. -/
def parseChecked (valid : Int → Bool) (what : String) (text : String) : Except String Int :=
  match parseI32 text with
  | .error what => .error what
  | .ok n => if valid n then .ok n else .error what

/-! ## Options -/

inductive Mode
  | probe | bridge
  deriving DecidableEq, Repr

structure AppOptions where
  mode : Mode := .probe
  stream : Bool := false
  rawSysex : Bool := false
  usb : Device.UsbOptions := {}
  midiBaseChannel : UInt8 := 0
  inputDeadzone : UInt8 := 0
  inputDecodeMode : Protocol.InputDecodeMode := .byte
  inputDebug : Bool := false
  inputDebugButtonsOnly : Bool := false
  writePayload : List UInt8 := []
  writeRepeat : Int := 1
  writeIntervalMs : Int := 50
  deriving DecidableEq, Repr

/-- The options the main loop reads. -/
def AppOptions.loop (o : AppOptions) : Bridge.AppOptions :=
  ⟨o.midiBaseChannel, o.inputDeadzone, o.inputDecodeMode, o.rawSysex⟩

/-! ## Flags -/

inductive Flag
  | vid | pid | interface | altSetting | inEp | outEp | reportSize | timeoutMs
  | stream | writeHex | writeRepeat | writeIntervalMs | midiChannel | inputDeadzone
  | inputDecode | inputDebug | inputDebugButtons | rawSysex
  deriving DecidableEq, Repr

/-- The flags in the order `parse_args` compares them. -/
def Flag.all : List (String × Flag) := [
  ("--vid", .vid), ("--pid", .pid), ("--interface", .interface), ("--alt-setting", .altSetting),
  ("--in-ep", .inEp), ("--out-ep", .outEp), ("--report-size", .reportSize),
  ("--timeout-ms", .timeoutMs), ("--stream", .stream), ("--write-hex", .writeHex),
  ("--write-repeat", .writeRepeat), ("--write-interval-ms", .writeIntervalMs),
  ("--midi-channel", .midiChannel), ("--input-deadzone", .inputDeadzone),
  ("--input-decode", .inputDecode), ("--input-debug", .inputDebug),
  ("--input-debug-buttons", .inputDebugButtons), ("--raw-sysex", .rawSysex)]

def Flag.ofText (text : String) : Option Flag := all.lookup text

/-- What a flag does: read a value, or change the options at once. -/
inductive Action
  | value (read : String → Except String (AppOptions → AppOptions))
  | switch (set : AppOptions → AppOptions)

def Flag.action : Flag → Action
  | .vid => .value fun text =>
    (parseU16 text).map fun v o => { o with usb := { o.usb with vendorId := v } }
  | .pid => .value fun text =>
    (parseU16 text).map fun v o => { o with usb := { o.usb with productId := v } }
  | .interface => .value fun text =>
    (parseI32 text).map fun v o => { o with usb := { o.usb with interfaceNumber := v } }
  | .altSetting => .value fun text =>
    (parseI32 text).map fun v o => { o with usb := { o.usb with alternateSetting := v } }
  | .inEp => .value fun text =>
    (parseU8 text).map fun v o => { o with usb := { o.usb with inputEndpoint := v } }
  | .outEp => .value fun text =>
    (parseU8 text).map fun v o => { o with usb := { o.usb with outputEndpoint := v } }
  | .reportSize => .value fun text =>
    (parseI32 text).map fun v o => { o with usb := { o.usb with reportSize := v } }
  | .timeoutMs => .value fun text =>
    (parseI32 text).map fun v o => { o with usb := { o.usb with timeoutMs := .ofInt v } }
  | .stream => .switch fun o => { o with stream := true }
  | .writeHex => .value fun text =>
    (parseHexBytes text).map fun bytes o => { o with writePayload := bytes }
  | .writeRepeat => .value fun text =>
    (parseChecked (fun n => decide (0 < n)) "--write-repeat must be > 0" text).map
      fun v o => { o with writeRepeat := v }
  | .writeIntervalMs => .value fun text =>
    (parseChecked (fun n => decide (0 ≤ n)) "--write-interval-ms must be >= 0" text).map
      fun v o => { o with writeIntervalMs := v }
  | .midiChannel => .value fun text =>
    (parseChecked (fun n => decide (1 ≤ n ∧ n ≤ 16)) "--midi-channel must be in range 1-16" text).map
      fun v o => { o with midiBaseChannel := .ofInt (v - 1) }
  | .inputDeadzone => .value fun text =>
    (parseChecked (fun n => decide (0 ≤ n ∧ n ≤ 127)) "--input-deadzone must be in range 0-127"
      text).map fun v o => { o with inputDeadzone := .ofInt v }
  | .inputDecode => .value fun text =>
    (parseDecodeMode text).map fun mode o => { o with inputDecodeMode := mode }
  | .inputDebug => .switch fun o => { o with inputDebug := true }
  | .inputDebugButtons => .switch fun o => { o with inputDebug := true, inputDebugButtonsOnly := true }
  | .rawSysex => .switch fun o => { o with rawSysex := true }

/-- The loop over the flags. -/
def parseFlags (o : AppOptions) : List String → Except String AppOptions
  | [] => .ok o
  | text :: rest =>
    match Flag.ofText text with
    | none => .error ("Unknown flag: " ++ text)
    | some flag =>
      match flag.action with
      | .switch set => parseFlags (set o) rest
      | .value read =>
        match rest with
        | [] => .error ("Missing value for " ++ text)
        | value :: rest =>
          match read value with
          | .error what => .error what
          | .ok update => parseFlags (update o) rest

/-- The checks behind the loop. -/
def checkOptions (o : AppOptions) : Except String AppOptions :=
  if o.usb.vendorId = 0 ∨ o.usb.productId = 0 then .error "Both --vid and --pid are required"
  else if o.mode = .bridge ∧ (o.usb.inputEndpoint = 0 ∨ o.usb.reportSize ≤ 0) then
    .error "Bridge mode requires --in-ep and --report-size"
  else .ok o

def parseMode (mode : String) : Except String Mode :=
  if mode = "probe" then .ok .probe
  else if mode = "bridge" then .ok .bridge
  else .error ("Unknown mode: " ++ mode)

/-- `parse_args`; the first argument is the program's name. -/
def parseArgs : List String → Except String AppOptions
  | _ :: mode :: flags =>
    match parseMode mode with
    | .error what => .error what
    | .ok mode =>
      match parseFlags { mode := mode } flags with
      | .error what => .error what
      | .ok o => checkOptions o
  | _ => .error "Missing mode"

end Args
