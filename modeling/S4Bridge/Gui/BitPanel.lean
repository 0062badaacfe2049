import S4Bridge.Lib.Formatted
import S4Bridge.Gui.App

/-!
# The bit panel (`_update_bit_panel` in `midi_dev_tester.py`)

The panel beside the byte map shows the selected byte: its index and value, and for each bit the value
and the channel and controller the bridge uses for the byte and for the bit, which the panel computes
by itself.
-/

namespace Gui

/-- Python's `f"{n:0{width}X}"` in base 16 and `f"{n:0{width}b}"` in base 2. -/
def pyFormat (base width n : Nat) : String :=
  String.ofList (((Nat.toDigits base n).map Char.toUpper).leftpad width '0')

/-- What the panel writes of a 0-based channel and a controller. -/
def ccText (channel controller : Nat) : String :=
  "ch" ++ toString (channel + 1) ++ " cc" ++ toString controller

/-- The labels of a row; the first, the name of its bit, is never changed. -/
structure BitRow where
  lblVal : String
  lblValFg : String
  lblCcByt : String
  lblCcBit : String
  deriving DecidableEq, Repr

structure BitPanel where
  bitAddrVar : String
  bitValVar : String
  /-- From bit 7 down to bit 0. -/
  bitRows : List BitRow
  infoVar : String
  deriving DecidableEq, Repr

def bitRow (baseCh idx : Nat) (val : UInt8) (bit : Nat) : BitRow :=
  let bitOn := (val.toNat >>> bit) &&& 1
  let bytCh := (baseCh + idx / 128) &&& 0x0F
  let bytCc := idx % 128
  let bitAbs := idx * 8 + bit
  let bitCh := (baseCh + bitAbs / 128) &&& 0x0F
  let bitCc := bitAbs % 128
  { lblVal := toString bitOn
    lblValFg := if bitOn ≠ 0 then "#4caf50" else "#888888"
    lblCcByt := ccText bytCh bytCc
    lblCcBit := ccText bitCh bitCc }

/-- What the panel shows of the byte `idx` with the value `val`. -/
def bitPanel (baseChVar : Int) (idx : Nat) (val : UInt8) : BitPanel :=
  let baseCh := (baseChVar - 1).toNat -- `max(0, ...)`
  let hex := pyFormat 16 2 val.toNat
  let binary := pyFormat 2 8 val.toNat
  { bitAddrVar := "0x" ++ pyFormat 16 3 idx ++ "  (dec " ++ toString idx ++ ")"
    bitValVar := "0x" ++ hex ++ "  " ++ binary
    bitRows := (List.range 8).reverse.map (bitRow baseCh idx val)
    infoVar := "Byte 0x" ++ pyFormat 16 3 idx ++ " (dec " ++ toString idx ++ ") | 0x" ++ hex ++
      " | " ++ binary }

/-- `_update_bit_panel`: what it writes, if a byte is selected; `updateBitPanel` says when it raises. -/
def MapWindow.bitPanel (win : MapWindow) (baseChVar : Int) : Option BitPanel :=
  win.selectedIdx.bind fun idx => win.data[idx]?.map (Gui.bitPanel baseChVar idx)

end Gui
