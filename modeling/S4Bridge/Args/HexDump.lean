import S4Bridge.Lib.Formatted

/-!
# Bytes printed (`hex_dump` in `main.cpp`)

The probe prints a packet as two digits a byte, with a space between two bytes.
-/

namespace Args

open Formatted

/-- The loop of `hex_dump`, from `index` on. -/
def hexDumpLoop (stream : Stream) (index : Nat) : List UInt8 → Stream
  | [] => stream
  | byte :: rest =>
    let stream := if index ≠ 0 then stream.putChar ' ' else stream
    hexDumpLoop ((stream.setw 2).putNat byte.toNat) (index + 1) rest

def hexDump (bytes : List UInt8) : String :=
  let stream : Stream := {}
  String.ofList (hexDumpLoop (stream.hex.setfill '0') 0 bytes).text

end Args
