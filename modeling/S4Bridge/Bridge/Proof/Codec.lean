import S4Bridge.Bridge.Loop
import S4Bridge.Gui.Proof.Cells

/-!
# Raw-USB frames and their decoder

* `rawSysexFrame_eq`: a frame is F0, data bytes below 0x80, F7; `send` leaves it alone.
* `handleEvent_rawSysexFrame`: the byte map takes exactly the packet out of the frame.
-/

namespace Bridge

open Gui Bytes

/-! ## Nibbles -/

/-- The nibbles as data. -/
def nibbleData (packet : List UInt8) : List (Fin 128) :=
  packet.flatMap fun (b : UInt8) => [dataBits (b >>> 4), dataBits (b &&& 0x0F)]

/-- The data of a frame between F0 and F7. -/
def frameData (packet : List UInt8) : List (Fin 128) :=
  [0x7D, 0x53, 0x34, 0x02].map dataBits ++ nibbleData packet

theorem toNat_dataByte (x : Fin 128) : (dataByte x).toNat = x.val := by
  show x.val % 256 = x.val
  omega

theorem toNat_dataBits (b : UInt8) : (dataBits b).val = b.toNat % 128 := rfl

theorem dataByte_hi (b : UInt8) : dataByte (dataBits (b >>> 4)) = (b >>> 4) &&& 0x0F := by
  have hb := b.toNat_lt
  have hhi : (b >>> 4).toNat = b.toNat >>> 4 := toNat_shiftRight b (k := 4) (by decide)
  apply UInt8.toNat_inj.1
  rw [toNat_and_0F, toNat_dataByte, toNat_dataBits, hhi]
  omega

theorem dataByte_lo (b : UInt8) : dataByte (dataBits (b &&& 0x0F)) = b &&& 0x0F := by
  apply UInt8.toNat_inj.1
  rw [toNat_dataByte, toNat_dataBits, toNat_and_0F]
  omega

theorem joined_nibbles (b : UInt8) :
    ((dataBits (b >>> 4)).val <<< 4) ||| (dataBits (b &&& 0x0F)).val = b.toNat := by
  have hb := b.toNat_lt
  have hhi : (b >>> 4).toNat = b.toNat >>> 4 := toNat_shiftRight b (k := 4) (by decide)
  have hlo : b.toNat % 16 % 128 = b.toNat % 16 := by omega
  have hlt : b.toNat % 16 < 2 ^ 4 := by omega
  rw [toNat_dataBits, toNat_dataBits, hhi, toNat_and_0F, hlo,
    ← Nat.shiftLeft_add_eq_or_of_lt hlt, Nat.shiftLeft_eq]
  omega

/-- **A frame is seven bits clean.** -/
theorem rawSysexFrame_eq (packet : List UInt8) :
    rawSysexFrame packet = 0xF0 :: (frameData packet).map dataByte ++ [0xF7] := by
  have hnibbles : (nibbleData packet).map dataByte = nibbles packet := by
    rw [nibbleData, List.map_flatMap]
    simp only [nibbles, List.map_cons, List.map_nil, dataByte_hi, dataByte_lo]
  rw [frameData, List.map_append, hnibbles]
  rfl

theorem length_nibbleData (packet : List UInt8) :
    (nibbleData packet).length = 2 * packet.length := by
  simp [nibbleData, Nat.mul_comm]

/-- Joining undoes splitting. -/
theorem joinNibbles_frameData (packet : List UInt8) :
    joinNibbles ((frameData packet).drop 4) = packet.map UInt8.toNat := by
  show joinNibbles (nibbleData packet) = packet.map UInt8.toNat
  induction packet with
  | nil => rfl
  | cons b packet ih =>
    rw [List.map_cons, ← ih, ← joined_nibbles b]
    rfl

theorem pyBytes_toNat (packet : List UInt8) : pyBytes (packet.map UInt8.toNat) = .ok packet := by
  have hlt : ∀ v ∈ packet.map UInt8.toNat, v < 256 := by
    intro v hv
    obtain ⟨b, -, rfl⟩ := List.mem_map.1 hv
    exact b.toNat_lt
  rw [pyBytes, if_pos hlt, List.map_map]
  simp [Function.comp_def]

/-! ## The byte map -/

/-- The header of a raw-USB frame, as data. -/
def rawHeader : List (Fin 128) := [0x7D, 0x53, 0x34, 0x02].map dataBits

/-- With something after the header, the header is what the byte map looks for. -/
theorem not_badHeader {nibbles : List (Fin 128)} (hne : nibbles ≠ []) :
    ¬ ((rawHeader ++ nibbles).length < 5 ∨ (rawHeader ++ nibbles)[0]? ≠ some 0x7D ∨
      (rawHeader ++ nibbles)[1]? ≠ some 0x53 ∨ (rawHeader ++ nibbles)[2]? ≠ some 0x34 ∨
      (rawHeader ++ nibbles)[3]? ≠ some 0x02) := by
  have hpos : 0 < nibbles.length := List.length_pos_iff.2 hne
  have hlen : ¬ (rawHeader ++ nibbles).length < 5 := by
    rw [List.length_append]
    show ¬ 4 + nibbles.length < 5
    omega
  rintro (h | h | h | h | h)
  · exact hlen h
  all_goals exact h rfl

/-- After the header, nibbles that make bytes are a packet. -/
theorem route_rawHeader {nibbles : List (Fin 128)} (hne : nibbles ≠ [])
    (heven : nibbles.length % 2 = 0) {raw : List UInt8}
    (hraw : pyBytes (joinNibbles nibbles) = .ok raw) {win : ByteMapWindow}
    (halive : win.alive = true) (base : Int) :
    routeSysexToByteMap ⟨some win, base⟩ (.sysex (rawHeader ++ nibbles)) =
      .ok ⟨some (win.updatePacket raw .sysex), base⟩ := by
  have hdrop : (rawHeader ++ nibbles).drop 4 = nibbles := rfl
  have hodd : ¬ nibbles.length % 2 ≠ 0 := fun h => h heven
  have hhead := not_badHeader hne
  simp only [routeSysexToByteMap, halive, Bool.not_true, Bool.false_eq_true, if_false, hhead,
    hdrop, hodd, hraw]
  rfl

/-- **The byte map decodes a frame to its packet.** -/
theorem route_rawSysexFrame (mido : Mido) {packet : List UInt8} (hne : packet ≠ [])
    {win : ByteMapWindow} (halive : win.alive = true) (base : Int) :
    routeSysexToByteMap ⟨some win, base⟩ (mido.decode (rawSysexFrame packet)) =
      .ok ⟨some (win.updatePacket packet .sysex), base⟩ := by
  have hlen : (nibbleData packet).length = 2 * packet.length := length_nibbleData packet
  have hpos : 0 < packet.length := List.length_pos_iff.2 hne
  have hnibbles : nibbleData packet ≠ [] := List.length_pos_iff.1 (by omega)
  have hjoin : pyBytes (joinNibbles (nibbleData packet)) = .ok packet := by
    rw [← pyBytes_toNat packet, ← joinNibbles_frameData]
    rfl
  rw [rawSysexFrame_eq, mido.decode_sysex]
  exact route_rawHeader hnibbles (by omega) hjoin halive base

theorem handleEvent_rawSysexFrame (mido : Mido) {packet : List UInt8} (hne : packet ≠ [])
    {win : ByteMapWindow} (halive : win.alive = true) (base : Int) :
    handleEvent ⟨some win, base⟩ (mido.decode (rawSysexFrame packet)) =
      .ok ⟨some (win.updatePacket packet .sysex), base⟩ := by
  have hkind : parseMsg (mido.decode (rawSysexFrame packet)) = none := by
    rw [rawSysexFrame_eq, mido.decode_sysex]; rfl
  rw [handleEvent, hkind]
  exact route_rawSysexFrame mido hne halive base

/-- Different packets have different frames. -/
theorem rawSysexFrame_inj {packet packet' : List UInt8}
    (h : rawSysexFrame packet = rawSysexFrame packet') : packet = packet' := by
  have hdata : frameData packet = frameData packet' := by
    rw [rawSysexFrame_eq, rawSysexFrame_eq] at h
    have hmap := List.append_cancel_right (List.cons.inj h).2
    exact List.map_injective_iff.2 (Function.LeftInverse.injective dataBits_dataByte) hmap
  have hjoin := congrArg (fun data => pyBytes (joinNibbles (data.drop 4))) hdata
  simpa only [joinNibbles_frameData, pyBytes_toNat, Except.ok.injEq] using hjoin

/-! ## Sending -/

/-- A SysEx message is published as it is. -/
theorem send_rawSysexFrame (packet : List UInt8) (outcome : MidiOutcome) :
    (∃ what, send (rawSysexFrame packet) outcome = .error what ∧ outcome ≠ .noErr) ∨
    (send (rawSysexFrame packet) outcome = .ok (some (rawSysexFrame packet)) ∧
      outcome = .noErr) := by
  have hsan : sanitize (rawSysexFrame packet) = rawSysexFrame packet := rfl
  cases outcome with
  | noErr => exact .inr ⟨rfl, rfl⟩
  | packetListFull => exact .inl ⟨_, rfl, by simp⟩
  | notReceived => exact .inl ⟨_, rfl, by simp⟩

end Bridge
