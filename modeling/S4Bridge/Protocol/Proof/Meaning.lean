import S4Bridge.Lib.Lists
import S4Bridge.Protocol.Proof.Step

/-!
# What one report means

`stepMeaning` says on unbounded numbers which control changes follow from two reports: for each byte
that differs its new value, if it moved beyond the deadzone, and for each bit that differs its new
state. `decodeInput` emits exactly these (`decodeInput_meaning`): its casts to 8 and 16 bits change
no address and no value.
-/

namespace Protocol

open Bytes

/-! ## The meaning -/

/-- The control change on `channel` that sets `controller` to `value`. -/
def controlChange (channel controller value : Nat) : MidiMessage where
  bytes := [UInt8.ofNat (0xB0 + channel), UInt8.ofNat controller, UInt8.ofNat value]

/-- The control change of slot `k`, counted from the base channel on. -/
def slotMessage (base k value : Nat) : MidiMessage :=
  controlChange ((base + k / 128) % 16) (k % 128) value

/-- The control change of a table's entry. -/
def entryMessage (base : Nat) (entry : BitMapEntry) (on : Bool) : MidiMessage :=
  let channel := entry.midiChannel.toNat
  controlChange (if 1 ≤ channel ∧ channel ≤ 16 then channel - 1 else base % 16)
    (entry.cc.toNat % 128) (if on = entry.invert then 0 else 127)

variable (base deadzone : Nat) (mode : InputDecodeMode) (bitMappings : List BitMapEntry)

/-- Bit `b` of byte `i` is `on` now. -/
def bitMeaning (i b : Nat) (on : Bool) : MidiMessage :=
  match bitMappings.find? fun entry => entry.byteIndex = i ∧ entry.bitIndex.toNat = b with
  | some entry => entryMessage base entry on
  | none => slotMessage base (8 * i + b) (if on then 127 else 0)

/-- Byte `i` went from `previous` to `current`. -/
def byteMeaning (i previous current : Nat) : List MidiMessage :=
  (if mode ≠ .bit ∧ deadzone < Nat.dist (current / 2) (previous / 2) then
    [slotMessage base i (current / 2)]
  else []) ++
  (if mode ≠ .byte then
    ((List.range 8).filter fun b => previous.testBit b ≠ current.testBit b).map fun b =>
      bitMeaning base bitMappings i b (current.testBit b)
  else [])

/-- The report after `previous` is `report`. -/
def stepMeaning (previous report : List UInt8) : List MidiMessage :=
  if previous = [] then []
  else
    ((List.range (min previous.length report.length)).filter fun i =>
      previous.getD i 0 ≠ report.getD i 0).flatMap fun i =>
        byteMeaning base deadzone mode bitMappings i (previous.getD i 0).toNat
          (report.getD i 0).toNat

/-! ## Messages -/

theorem makeCc_eq {channel controller value : UInt8} (hchannel : channel < 16)
    (hvalue : value < 128) : makeCc channel controller value =
      controlChange channel.toNat (controller.toNat % 128) value.toNat := by
  have hcontroller : controller &&& 0x7F = UInt8.ofNat (controller.toNat % 128) := by
    rw [← toNat_and_7F, UInt8.ofNat_toNat]
  rw [makeCc, and_0F_of_lt _ hchannel, and_7F_of_lt _ hvalue, status_byte hchannel, hcontroller,
    controlChange, UInt8.ofNat_toNat]

theorem rawCc_eq (base : UInt8) (k : Nat) {value : UInt8} (hvalue : value < 128) :
    rawCc base k value = slotMessage base.toNat k value.toNat := by
  obtain ⟨hchannel, -⟩ := rawAddress_lt base k
  have h1 : (rawAddress base k).1.toNat = (base.toNat + k / 128) % 16 := by
    rw [rawAddress, UInt8.toNat_ofNat']
    omega
  have h2 : (rawAddress base k).2.toNat % 128 = k % 128 := by
    rw [rawAddress, UInt8.toNat_ofNat']
    omega
  rw [rawCc, makeCc_eq hchannel hvalue, h1, h2, slotMessage]

theorem findBitMapping_eq (T : Tables) (i : Nat) (b : Fin 8) :
    findBitMapping T i (UInt8.ofNat b) =
      T.bitMappings.find? fun entry => entry.byteIndex = i ∧ entry.bitIndex.toNat = b.val := by
  have hbit : ∀ x : UInt8, x = UInt8.ofNat b ↔ x.toNat = b := by
    intro x
    rw [← UInt8.toNat_inj, UInt8.toNat_ofNat']
    omega
  unfold findBitMapping
  congr 1
  funext entry
  rw [Bool.decide_and, ← decide_eq_decide.2 (hbit entry.bitIndex)]
  rfl

theorem ch1ToStatusNibble_lt (channel : UInt8) {base : UInt8} (hbase : base < 16) :
    ch1ToStatusNibble channel base < 16 ∧ (ch1ToStatusNibble channel base).toNat =
      if 1 ≤ channel.toNat ∧ channel.toNat ≤ 16 then channel.toNat - 1 else base.toNat := by
  unfold ch1ToStatusNibble
  by_cases h : 1 ≤ channel ∧ channel ≤ 16
  · have h1 : 1 ≤ channel.toNat := UInt8.le_iff_toNat_le.1 h.1
    have h2 : channel.toNat ≤ 16 := UInt8.le_iff_toNat_le.1 h.2
    have hsub : (channel - 1).toNat = channel.toNat - 1 := UInt8.toNat_sub_of_le _ _ h.1
    rw [if_pos h, if_pos ⟨h1, h2⟩, hsub, UInt8.lt_iff_toNat_lt, hsub]
    exact ⟨by show _ < 16; omega, rfl⟩
  · have h' : ¬ (1 ≤ channel.toNat ∧ channel.toNat ≤ 16) := fun hc =>
      h ⟨UInt8.le_iff_toNat_le.2 hc.1, UInt8.le_iff_toNat_le.2 hc.2⟩
    rw [if_neg h, if_neg h']
    exact ⟨hbase, rfl⟩

theorem bitMessage_eq (T : Tables) (base : UInt8) (i : Nat) (b : Fin 8) (on : Bool) :
    bitMessage T (base &&& 0x0F) i b on = bitMeaning base.toNat T.bitMappings i b on := by
  unfold bitMessage bitMeaning
  rw [findBitMapping_eq]
  generalize T.bitMappings.find? _ = entry?
  cases entry? with
  | some entry =>
    obtain ⟨hlt, hchannel⟩ := ch1ToStatusNibble_lt entry.midiChannel (and_0F_lt base)
    have hvalue : (if (if entry.invert then !on else on) = true then 127 else 0 : UInt8) =
        if on = entry.invert then 0 else 127 := by
      cases on <;> cases entry.invert <;> rfl
    simp only [hvalue, entryMessage]
    rw [makeCc_eq hlt (by split <;> decide), hchannel, toNat_and_0F]
    congr 1
    split <;> rfl
  | none =>
    have hsmall : (if on = true then 127 else 0 : UInt8) < 128 := by split <;> decide
    have hslot := rawCc_eq base (i * 8 + b) hsmall
    simp only [rawCc, rawAddress_mask] at hslot ⊢
    rw [hslot, Nat.mul_comm]
    cases on <;> rfl

/-! ## One byte -/

theorem toNat_high7 (x : UInt8) : (high7 x).toNat = x.toNat / 2 := by
  have hlt := x.toNat_lt
  have hshift : (x >>> 1).toNat = x.toNat >>> 1 := toNat_shiftRight x (by decide : 1 < 8)
  rw [high7, toNat_and_7F, hshift, Nat.shiftRight_eq_div_pow]
  omega

theorem decodeByte_of_ne (T : Tables) (p : S4GenericProtocol) (i : Nat) {a b : UInt8}
    (h : a ≠ b) : decodeByte T p i a b =
      (if p.decodeMode ≠ .bit then byteView T p i (delta a b) (high7 b) else []) ++
      (if p.decodeMode ≠ .byte then (List.finRange 8).flatMap (bitView T p i (a ^^^ b) b)
      else []) := by
  unfold decodeByte
  rw [if_neg h]
  cases p.decodeMode <;> rfl

/-- The constructor's bound on the deadzone does not show: no distance is larger. -/
theorem delta_gt_iff (deadzone a b : UInt8) :
    delta a b > min deadzone 127 ↔ deadzone.toNat < Nat.dist (b.toNat / 2) (a.toNat / 2) := by
  have hmin : (min deadzone 127).toNat = min deadzone.toNat 127 := by
    by_cases h : deadzone ≤ 127
    · have hle : deadzone.toNat ≤ 127 := UInt8.le_iff_toNat_le.1 h
      rw [Std.min_eq_if, if_pos h, Nat.min_eq_left hle]
    · have hlt : 127 < deadzone.toNat := Nat.lt_of_not_le fun hc => h (UInt8.le_iff_toNat_le.2 hc)
      rw [Std.min_eq_if, if_neg h, Nat.min_eq_right (Nat.le_of_lt hlt)]
      rfl
  have ha := a.toNat_lt
  have hb := b.toNat_lt
  rw [gt_iff_lt, UInt8.lt_iff_toNat_lt, hmin, toNat_delta, toNat_high7, toNat_high7, Nat.dist_comm]
  unfold Nat.dist
  omega

/-- What one byte that differs emits. -/
theorem decodeByte_meaning (bitMappings : List BitMapEntry) {base deadzone : UInt8}
    {p : S4GenericProtocol} (hbase : p.baseChannel = base &&& 0x0F)
    (hdeadzone : p.inputDeadzone = min deadzone 127) (i : Nat) {a b : UInt8} (h : a ≠ b) :
    decodeByte ⟨kByteMappings, bitMappings⟩ p i a b =
      byteMeaning base.toNat deadzone.toNat p.decodeMode bitMappings i a.toNat b.toNat := by
  have hbyte : byteView ⟨kByteMappings, bitMappings⟩ p i (delta a b) (high7 b) =
      if deadzone.toNat < Nat.dist (b.toNat / 2) (a.toNat / 2) then
        [slotMessage base.toNat i (b.toNat / 2)] else [] := by
    have hslot : rawCc (base &&& 0x0F) i (high7 b) = slotMessage base.toNat i (b.toNat / 2) := by
      rw [← toNat_high7, rawCc, rawAddress_mask]
      exact rawCc_eq base i (and_7F_lt _)
    rw [byteView_unmapped rfl, hbase, hdeadzone, hslot]
    exact if_congr (delta_gt_iff deadzone a b) rfl rfl
  have hbits : (List.finRange 8).flatMap (bitView ⟨kByteMappings, bitMappings⟩ p i (a ^^^ b) b) =
      ((List.range 8).filter fun k => a.toNat.testBit k ≠ b.toNat.testBit k).map fun k =>
        bitMeaning base.toNat bitMappings i k (b.toNat.testBit k) := by
    have hbit : ∀ k ∈ List.finRange 8,
        bitView ⟨kByteMappings, bitMappings⟩ p i (a ^^^ b) b k =
          if bit a k ≠ bit b k then [bitMeaning base.toNat bitMappings i k (bit b k)] else [] := by
      intro k _
      rw [bitView_xor, hbase, bitMessage_eq]
    rw [List.flatMap_congr hbit, Lists.flatMap_ite_singleton, ← List.map_coe_finRange_eq_range,
      List.filter_map, List.map_map]
    rfl
  rw [decodeByte_of_ne _ _ _ h, hbyte, hbits, byteMeaning]
  cases p.decodeMode <;> simp

/-! ## One report -/

/-- **What `decode_input` means**: for every base channel, deadzone and mode the object is built
with, any table of bits, and any two reports, the messages are those of `stepMeaning`, and the
report is stored. -/
theorem decodeInput_meaning (base deadzone : UInt8) (mode : InputDecodeMode)
    (bitMappings : List BitMapEntry) (previous report : List UInt8) (warned : Bool) :
    let p : S4GenericProtocol := { S4GenericProtocol.new base deadzone mode with
      previousReport := previous, warnedAboutLedProtocol := warned }
    decodeInput ⟨kByteMappings, bitMappings⟩ p report =
      ({ p with previousReport := report },
        stepMeaning base.toNat deadzone.toNat mode bitMappings previous report) := by
  intro p
  have hbase : p.baseChannel = base &&& 0x0F := rfl
  have hdeadzone : p.inputDeadzone = min deadzone 127 := rfl
  have hbytes : stepMeaning base.toNat deadzone.toNat mode bitMappings previous report =
      (List.range (min previous.length report.length)).flatMap fun i =>
        decodeByte ⟨kByteMappings, bitMappings⟩ p i (previous.getD i 0) (report.getD i 0) := by
    unfold stepMeaning
    by_cases hempty : previous = []
    · rw [if_pos hempty, hempty]
      rfl
    · have hsame : ∀ i ∈ List.range (min previous.length report.length),
          decide (previous.getD i 0 ≠ report.getD i 0) = false →
          decodeByte ⟨kByteMappings, bitMappings⟩ p i (previous.getD i 0) (report.getD i 0) =
            [] := by
        intro i _ heq
        rw [decodeByte, if_pos (by simpa using heq)]
      rw [if_neg hempty, ← Lists.filter_flatMap_of_nil hsame]
      refine List.flatMap_congr fun i hi => ?_
      have hne : previous.getD i 0 ≠ report.getD i 0 := by simpa using (List.mem_filter.1 hi).2
      exact (decodeByte_meaning bitMappings hbase hdeadzone i hne).symm
  rw [decodeInput_eq, hbytes]

/-- A knob and a button in Hybrid mode. -/
example : stepMeaning 15 2 .hybrid kBitMappings [0, 0, 0, 0, 0] [0, 8, 0, 0, 2] =
    [⟨[0xBF, 1, 4]⟩, ⟨[0xBF, 11, 127]⟩, ⟨[0xB0, 23, 127]⟩] := by decide

end Protocol
