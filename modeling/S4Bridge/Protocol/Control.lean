import S4Bridge.Protocol.Generic

/-!
# Controls and addresses

What the output of `decodeInput` is about, for the statements of this development.

* A `Control` is a byte of the report or one bit of it. `decodeMarked` is `decodeInput` with every
  message marked by the control it is emitted for (`map_snd_decodeMarked`), and `caused c` selects
  the messages of one control.
* An `Address` is the MIDI channel and controller number of a control change (`ccOf`), which is all
  a receiver can tell two controls apart by. `rawAddress base k` is the address of the `k`-th
  unmapped slot, with `/` and `%` on unbounded numbers.
-/

namespace Protocol

open Bytes

/-! ## Controls -/

inductive Control
  | byte (index : Nat)
  | bit (index : Nat) (bit : Fin 8)
  deriving DecidableEq, Repr

/-- The byte of the report a control lives in. -/
def Control.index : Control → Nat
  | .byte i => i
  | .bit i _ => i

variable (T : Tables) (p : S4GenericProtocol)

/-- The distance of two bytes' 7-bit values, as the loop body computes it. -/
def delta (previous current : UInt8) : UInt8 :=
  if high7 previous > high7 current then high7 previous - high7 current
  else high7 current - high7 previous

/-- `decodeByte` with the messages marked. -/
def decodeByteMarked (byteIndex : Nat) (previous current : UInt8) :
    List (Control × MidiMessage) :=
  if previous = current then []
  else
    (if p.decodeMode.hasByte then
      (byteView T p byteIndex (delta previous current) (high7 current)).map
        (Prod.mk (.byte byteIndex))
    else []) ++
    (if p.decodeMode.hasBit then
      (List.finRange 8).flatMap fun bit =>
        (bitView T p byteIndex (previous ^^^ current) current bit).map
          (Prod.mk (.bit byteIndex bit))
    else [])

/-- `decodeInput` with the messages marked. -/
def decodeMarked (report : List UInt8) : S4GenericProtocol × List (Control × MidiMessage) :=
  ({ p with previousReport := report },
    (List.range (min p.previousReport.length report.length)).flatMap fun byteIndex =>
      decodeByteMarked T p byteIndex (p.previousReport.getD byteIndex 0) (report.getD byteIndex 0))

/-- `decoder` with the messages marked. -/
def marker : Machine S4GenericProtocol (List UInt8) (List (Control × MidiMessage)) :=
  ⟨decodeMarked T⟩

/-- The messages emitted for control `c`. -/
def caused (c : Control) (ms : List (Control × MidiMessage)) : List MidiMessage :=
  ms.filterMap fun m => if m.1 = c then some m.2 else none

/-! ## Addresses -/

/-- A MIDI channel (0-based) and a controller number. -/
abbrev Address := UInt8 × UInt8

/-- The address and the value of a control change. -/
def ccOf (m : MidiMessage) : Option (Address × UInt8) :=
  match m.bytes with
  | [status, controller, value] =>
    if status &&& 0xF0 = 0xB0 then some ((status &&& 0x0F, controller), value) else none
  | _ => none

/-- The value a message gives address `a`. -/
def ccAt (a : Address) (m : MidiMessage) : Option UInt8 :=
  (ccOf m).bind fun cc => if cc.1 = a then some cc.2 else none

/-- The address of the `k`-th unmapped slot: 128 controllers on each channel, from the base
channel on, around the 16 channels. -/
def rawAddress (base : UInt8) (k : Nat) : Address :=
  (UInt8.ofNat ((base.toNat + k / 128) % 16), UInt8.ofNat (k % 128))

/-- The control change of the `k`-th unmapped slot. -/
def rawCc (base : UInt8) (k : Nat) (value : UInt8) : MidiMessage :=
  makeCc (rawAddress base k).1 (rawAddress base k).2 value

/-- The message for bit `bit` of byte `byteIndex` going `on` or off. -/
def bitMessage (base : UInt8) (byteIndex : Nat) (bit : Fin 8) (on : Bool) : MidiMessage :=
  match findBitMapping T byteIndex (UInt8.ofNat bit) with
  | some mapped =>
    makeCc (ch1ToStatusNibble mapped.midiChannel base) mapped.cc
      (if (if mapped.invert then !on else on) then 127 else 0)
  | none => rawCc base (byteIndex * 8 + bit) (if on then 127 else 0)

end Protocol
