import S4Bridge.Lib.Bytes
import S4Bridge.Lib.Machine

/-!
# The generic protocol (`s4_generic_protocol.cpp`)

`decodeInput` turns one USB report into control changes by comparing it with the previous report;
`encodeOutput` extracts a USB payload from a marked SysEx message. The two mapping tables are the
part of the source users are told to edit, so the model takes them as a parameter (`Tables`);
`Tables.shipped` are the source's own.

Sizes and indices are `Nat` (`size_t`), bytes are `UInt8`; arithmetic the source does in `int` and
then casts is done in `Nat` and then cast.
-/

namespace Protocol

open Bytes

/-! ## Messages -/

/-- A MIDI message as its bytes. -/
structure MidiMessage where
  bytes : List UInt8
  deriving DecidableEq, Repr

def makeCc (channel controller value : UInt8) : MidiMessage where
  bytes := [0xB0 ||| (channel &&& 0x0F), controller &&& 0x7F, value &&& 0x7F]

/-! ## The mapping tables -/

structure ByteMapEntry where
  byteIndex : Nat
  midiChannel : UInt8
  cc : UInt8
  /-- `-1` uses the global deadzone. -/
  deadzoneOverride : Int
  deriving DecidableEq, Repr

structure BitMapEntry where
  byteIndex : Nat
  bitIndex : UInt8
  midiChannel : UInt8
  cc : UInt8
  invert : Bool
  deriving DecidableEq, Repr

structure Tables where
  byteMappings : List ByteMapEntry
  bitMappings : List BitMapEntry
  deriving DecidableEq, Repr

def kEmitUnmappedByte : Bool := true
def kEmitUnmappedBit : Bool := true

def kByteMappings : List ByteMapEntry := []

def kBitMappings : List BitMapEntry := [
  -- left deck: Shift, Sync, Cue, Play
  ⟨4, 7, 1, 20, false⟩,
  ⟨4, 5, 1, 21, false⟩,
  ⟨4, 3, 1, 22, false⟩,
  ⟨4, 1, 1, 23, false⟩,
  -- candidate extra left-deck toggle
  ⟨7, 3, 1, 24, false⟩]

/-- The tables as the source has them. -/
def Tables.shipped : Tables := ⟨kByteMappings, kBitMappings⟩

variable (T : Tables)

def findByteMapping (byteIndex : Nat) : Option ByteMapEntry :=
  T.byteMappings.find? fun entry => entry.byteIndex == byteIndex

def findBitMapping (byteIndex : Nat) (bitIndex : UInt8) : Option BitMapEntry :=
  T.bitMappings.find? fun entry => entry.byteIndex == byteIndex && entry.bitIndex == bitIndex

/-- A table's 1-based channel as a status nibble, the fallback when it is not a channel. -/
def ch1ToStatusNibble (channel1Based fallbackZeroBased : UInt8) : UInt8 :=
  if 1 ≤ channel1Based ∧ channel1Based ≤ 16 then channel1Based - 1 else fallbackZeroBased

/-! ## The protocol object -/

inductive InputDecodeMode
  | byte | bit | hybrid
  deriving DecidableEq, Repr

/-- The modes whose output has the byte view. -/
def InputDecodeMode.hasByte : InputDecodeMode → Bool
  | .byte | .hybrid => true
  | .bit => false

/-- The modes whose output has the bit view. -/
def InputDecodeMode.hasBit : InputDecodeMode → Bool
  | .bit | .hybrid => true
  | .byte => false

/-- `S4GenericProtocol`'s fields, with the ranges its constructor establishes. -/
structure S4GenericProtocol where
  baseChannel : UInt8
  inputDeadzone : UInt8
  decodeMode : InputDecodeMode
  previousReport : List UInt8
  warnedAboutLedProtocol : Bool
  baseChannel_lt : baseChannel < 16
  inputDeadzone_le : inputDeadzone ≤ 127

/-- The constructor. -/
def S4GenericProtocol.new (baseChannel inputDeadzone : UInt8) (decodeMode : InputDecodeMode) :
    S4GenericProtocol where
  baseChannel := baseChannel &&& 0x0F
  inputDeadzone := min inputDeadzone 127
  decodeMode := decodeMode
  previousReport := []
  warnedAboutLedProtocol := false
  baseChannel_lt := and_0F_lt baseChannel
  inputDeadzone_le := Std.min_le_right

/-! ## `decode_input` -/

variable (p : S4GenericProtocol)

/-- The deadzone of a mapped byte, clamped to the range of a 7-bit value. -/
def entryDeadzone (entry : ByteMapEntry) : UInt8 :=
  let dz := if entry.deadzoneOverride ≥ 0 then entry.deadzoneOverride else p.inputDeadzone.toNat
  UInt8.ofNat (max 0 (min 127 dz)).toNat

/-- The byte view of one changed byte: the table entry's message, else the raw fallback. -/
def byteView (byteIndex : Nat) (delta rawValue : UInt8) : List MidiMessage :=
  let mapped := match findByteMapping T byteIndex with
    | some entry =>
      if delta > entryDeadzone p entry then
        [makeCc (ch1ToStatusNibble entry.midiChannel p.baseChannel) entry.cc rawValue]
      else []
    | none => []
  let emitted := !mapped.isEmpty
  mapped ++
    if !emitted && kEmitUnmappedByte && decide (delta > p.inputDeadzone) then
      let rawCcIndex := UInt16.ofNat byteIndex
      let rawChannel := UInt8.ofNat ((p.baseChannel.toNat + rawCcIndex.toNat / 128) &&& 0x0F)
      let rawController := UInt8.ofNat (rawCcIndex.toNat % 128)
      [makeCc rawChannel rawController rawValue]
    else []

/-- The bit view of one bit of a changed byte; nothing if the bit did not flip. -/
def bitView (byteIndex : Nat) (diff current : UInt8) (bit : Fin 8) : List MidiMessage :=
  if (diff >>> UInt8.ofNat bit) &&& 0x01 = 0 then []
  else
    let isOn := decide ((current >>> UInt8.ofNat bit) &&& 0x01 ≠ 0)
    match findBitMapping T byteIndex (UInt8.ofNat bit) with
    | some mapped =>
      let channel := ch1ToStatusNibble mapped.midiChannel p.baseChannel
      let finalOn := if mapped.invert then !isOn else isOn
      [makeCc channel mapped.cc (if finalOn then 127 else 0)]
    | none =>
      if kEmitUnmappedBit then
        let bitIndex := UInt16.ofNat (byteIndex * 8 + bit)
        let bitChannel := UInt8.ofNat ((p.baseChannel.toNat + bitIndex.toNat / 128) &&& 0x0F)
        let bitController := UInt8.ofNat (bitIndex.toNat % 128)
        [makeCc bitChannel bitController (if isOn then 127 else 0)]
      else []

/-- The body of the loop over the bytes: both views of byte `byteIndex`. -/
def decodeByte (byteIndex : Nat) (previous current : UInt8) : List MidiMessage :=
  if previous = current then []
  else
    let diff := previous ^^^ current
    let previousValue := (previous >>> 1) &&& 0x7F
    let currentValue := (current >>> 1) &&& 0x7F
    let delta :=
      if previousValue > currentValue then previousValue - currentValue
      else currentValue - previousValue
    (if p.decodeMode = .byte ∨ p.decodeMode = .hybrid then
      byteView T p byteIndex delta currentValue
    else []) ++
    (if p.decodeMode = .bit ∨ p.decodeMode = .hybrid then
      (List.finRange 8).flatMap (bitView T p byteIndex diff current)
    else [])

/-- `decode_input`: the messages of one report, and the object with the report stored. -/
def decodeInput (report : List UInt8) : S4GenericProtocol × List MidiMessage :=
  -- the first packet becomes the baseline
  if p.previousReport.isEmpty then ({ p with previousReport := report }, [])
  else
    let byteCount := min p.previousReport.length report.length
    ({ p with previousReport := report },
      (List.range byteCount).flatMap fun byteIndex =>
        decodeByte T p byteIndex (p.previousReport.getD byteIndex 0) (report.getD byteIndex 0))

/-- The protocol object fed one report after the other. -/
def decoder : Machine S4GenericProtocol (List UInt8) (List MidiMessage) := ⟨decodeInput T⟩

/-! ## `encode_output` -/

/-- `encode_output`: the payload of a marked SysEx message; anything else is ignored, with a
warning the first time. -/
def encodeOutput (midiMessage : List UInt8) : S4GenericProtocol × Option (List UInt8) :=
  let ignored := ({ p with warnedAboutLedProtocol := true }, none)
  if midiMessage.length ≥ 5 ∧ midiMessage.head? = some 0xF0 ∧ midiMessage.getLast? = some 0xF7 then
    if midiMessage.getD 1 0 = 0x7D ∧ midiMessage.getD 2 0 = 0x53 ∧ midiMessage.getD 3 0 = 0x34 then
      -- from `begin() + 4` up to `end() - 1`
      (p, some ((midiMessage.drop 4).take (midiMessage.length - 5)))
    else ignored
  else ignored

end Protocol
