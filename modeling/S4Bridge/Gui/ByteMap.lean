import Mathlib.Algebra.GroupWithZero.Nat

/-!
# The byte map of the GUI (`midi_dev_tester.py`)

`ByteMapWindow` shows the bytes of the last USB packet, rebuilt from the MIDI messages of the
bridge: control changes write single cells (`_route_cc_to_byte_map`), raw-USB SysEx messages whole
packets (`_route_sysex_to_byte_map`). The model keeps the data, the source filter and whether the
window is open; labels, colours and highlight times are outputs nothing reads back.

`mido` is a library outside this repository. `Message` is what the GUI tells apart of its messages
(a mido message holds a channel in 0..15 and data in 0..127 by construction), and `Mido` is a
decoder with the two facts of its documentation the bridge's messages rely on.
-/

namespace Gui

/-! ## mido -/

instance neZero_16 : NeZero 16 := ⟨by decide⟩

instance neZero_128 : NeZero 128 := ⟨by decide⟩

inductive Message
  | controlChange (channel : Fin 16) (control value : Fin 128)
  | noteOn (channel : Fin 16) (note velocity : Fin 128)
  | noteOff (channel : Fin 16) (note velocity : Fin 128)
  /-- F0 and F7 are stripped. -/
  | sysex (data : List (Fin 128))
  | other (type : String)
  deriving DecidableEq, Repr

/-- A byte of a message with the given 7-bit value. -/
def dataByte (x : Fin 128) : UInt8 := UInt8.ofNat x

/-- A decoder of complete MIDI messages. -/
structure Mido where
  decode : List UInt8 → Message
  decode_cc : ∀ (channel : Fin 16) (control value : Fin 128),
    decode [0xB0 ||| UInt8.ofNat channel, dataByte control, dataByte value] =
      .controlChange channel control value
  decode_sysex : ∀ data : List (Fin 128),
    decode (0xF0 :: data.map dataByte ++ [0xF7]) = .sysex data

/-- A byte's lower seven bits as a data byte. -/
def dataBits (b : UInt8) : Fin 128 := Fin.ofNat 128 b.toNat

theorem dataBits_dataByte (x : Fin 128) : dataBits (dataByte x) = x := by
  apply Fin.ext
  show x.val % 256 % 128 = x.val
  omega

/-- A decoder of the messages the bridge publishes. -/
def Mido.standard : Mido where
  decode bytes :=
    match bytes with
    | 0xF0 :: rest =>
      if rest.getLast? = some 0xF7 then .sysex (rest.dropLast.map dataBits) else .other "unfinished"
    | [status, control, value] =>
      if status &&& 0xF0 = 0xB0 then
        .controlChange (Fin.ofNat 16 status.toNat) (dataBits control) (dataBits value)
      else .other "unsupported"
    | _ => .other "unsupported"
  decode_cc channel control value := by
    have hstatus : ∀ c : Fin 16, 0xB0 ||| UInt8.ofNat c ≠ 0xF0 ∧
        (0xB0 ||| UInt8.ofNat c) &&& 0xF0 = 0xB0 ∧
        Fin.ofNat 16 (0xB0 ||| UInt8.ofNat c).toNat = c := by decide
    obtain ⟨h1, h2, h3⟩ := hstatus channel
    split
    · rename_i heq
      exact absurd (List.cons.inj heq).1 h1
    · rename_i heq
      simp only [List.cons.injEq, and_true] at heq
      obtain ⟨rfl, rfl, rfl⟩ := heq
      rw [if_pos h2, h3, dataBits_dataByte, dataBits_dataByte]
    · rename_i hno
      exact absurd rfl (hno _ _ _)
  decode_sysex data := by
    simp [Function.comp_def, dataBits_dataByte]

instance : Inhabited Mido := ⟨.standard⟩

/-! ## `ByteMapWindow` -/

inductive SourceFilter
  | both | ccOnly | sysexOnly
  deriving DecidableEq, Repr

/-- Where an update comes from. -/
inductive Source
  | cc | sysex
  deriving DecidableEq, Repr

def maxBytes : Nat := 512

structure ByteMapWindow where
  data : Vector UInt8 maxBytes
  srcVar : SourceFilter
  alive : Bool
  deriving DecidableEq, Repr

/-- A window as it opens. -/
def ByteMapWindow.new (srcVar : SourceFilter) : ByteMapWindow :=
  ⟨Vector.replicate maxBytes 0, srcVar, true⟩

def ByteMapWindow.updateByte (win : ByteMapWindow) (idx : Int) (value : Nat) (source : Source) :
    ByteMapWindow :=
  if win.srcVar = .ccOnly ∧ source ≠ .cc then win
  else if win.srcVar = .sysexOnly ∧ source ≠ .sysex then win
  else if idx < 0 ∨ idx ≥ maxBytes then win
  else { win with data := win.data.setIfInBounds idx.toNat (UInt8.ofNat (value &&& 0xFF)) }

def ByteMapWindow.updatePacket (win : ByteMapWindow) (data : List UInt8) (source : Source) :
    ByteMapWindow :=
  (data.take maxBytes).zipIdx.foldl
    (fun win x => if win.data[x.2]? ≠ some x.1 then win.updateByte x.2 x.1.toNat source else win) win

/-! ## Routing -/

inductive PyError
  | valueError (message : String)
  /-- From Tk. -/
  | tclError
  deriving DecidableEq, Repr

/-- Python's `bytes(...)` of a sequence of numbers. -/
def pyBytes (values : List Nat) : Except PyError (List UInt8) :=
  if ∀ v ∈ values, v < 256 then .ok (values.map UInt8.ofNat)
  else .error (.valueError "bytes must be in range(0, 256)")

inductive Kind
  | cc | noteOn | noteOff
  deriving DecidableEq, Repr

/-- `_parse_msg`: kind, 1-based channel, index and value. -/
def parseMsg : Message → Option (Kind × Int × Nat × Nat)
  | .controlChange channel control value => some (.cc, channel + 1, control, value)
  | .noteOn channel note velocity => some (.noteOn, channel + 1, note, velocity)
  | .noteOff channel note velocity => some (.noteOff, channel + 1, note, velocity)
  | .sysex _ | .other _ => none

/-- The byte map's part of the application: the window, if one was opened, and the base channel
(1-based) the two share. -/
structure ByteMapView where
  byteMapWin : Option ByteMapWindow
  baseChannelVar : Int
  deriving DecidableEq, Repr

def routeCcToByteMap (app : ByteMapView) (channel : Int) (controller value : Nat) : ByteMapView :=
  match app.byteMapWin with
  | none => app
  | some win =>
    if !win.alive then app
    else
      let chOffset := (channel - app.baseChannelVar) % 16 -- `& 0x0F` of a Python int
      let byteIdx := chOffset * 128 + controller
      let reconstructed := (value &&& 0x7F) <<< 1
      { app with byteMapWin := some (win.updateByte byteIdx reconstructed .cc) }

/-- The nibbles joined in pairs. -/
def joinNibbles : List (Fin 128) → List Nat
  | hi :: lo :: rest => ((hi.val <<< 4) ||| lo.val) :: joinNibbles rest
  | _ => []

def routeSysexToByteMap (app : ByteMapView) (msg : Message) : Except PyError ByteMapView :=
  match app.byteMapWin with
  | none => .ok app
  | some win =>
    if !win.alive then .ok app
    else
      match msg with
      | .sysex data =>
        if data.length < 5 ∨ data[0]? ≠ some 0x7D ∨ data[1]? ≠ some 0x53 ∨ data[2]? ≠ some 0x34 ∨
            data[3]? ≠ some 0x02 then .ok app
        else
          let nibbles := data.drop 4
          if nibbles.length % 2 ≠ 0 then .ok app
          else do
            let raw ← pyBytes (joinNibbles nibbles)
            return { app with byteMapWin := some (win.updatePacket raw .sysex) }
      | _ => .ok app

/-- The byte map's part of `_handle_event`. -/
def handleEvent (app : ByteMapView) (msg : Message) : Except PyError ByteMapView :=
  match parseMsg msg with
  | none => routeSysexToByteMap app msg
  | some (kind, channel, index, value) =>
    if kind = .cc then .ok (routeCcToByteMap app channel index value) else .ok app

/-- Messages handled one after the other. -/
def handleEvents : ByteMapView → List Message → Except PyError ByteMapView
  | app, [] => .ok app
  | app, msg :: msgs => do
    let app ← handleEvent app msg
    handleEvents app msgs

end Gui
