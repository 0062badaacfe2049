import S4Bridge.Protocol.Proof.Buttons

/-!
# Which controls share an address

With the source's own tables, two controls of the first 256 bytes never emit on the same address
exactly when the decode mode is Byte (`uniqueAddresses_iff`): the bytes have one slot each, but the
bit positions already fill the 2048 slots, so every entry of the bit table lands on the slot of
another bit (`emits_tableSlot`).
-/

namespace Protocol

open Bytes Latest DeltaFilter

variable {T : Tables}

/-- In some report of the run `rs`, control `c` sends a control change at address `a`. -/
def Emits (T : Tables) (base d : UInt8) (mode : InputDecodeMode) (rs : List (List UInt8))
    (c : Control) (a : Address) : Prop :=
  ∃ m ∈ caused c ((marker T).outs (.new base d mode) rs).flatten, ∃ v, ccOf m = some (a, v)

/-- Over all runs, the control changes at one address come from one control of the first 256
bytes. -/
def UniqueAddresses (T : Tables) (base : UInt8) (mode : InputDecodeMode) : Prop :=
  ∀ d rs c d' rs' c' a, c.index < 256 → c'.index < 256 →
    Emits T base d mode rs c a → Emits T base d' mode rs' c' a → c = c'

/-! ## What a control emits -/

/-- In Byte mode only bytes emit, each at its slot. -/
theorem emits_byteMode {base d : UInt8} {rs : List (List UInt8)} {c : Control} {a : Address}
    (h : Emits Tables.shipped base d .byte rs c a) : ∃ i, c = .byte i ∧ a = rawAddress base i := by
  obtain ⟨m, hm, v, hv⟩ := h
  obtain ⟨previous, r, -, hm⟩ := mem_caused_outs hm
  cases c with
  | byte i =>
    obtain ⟨-, -, w, rfl⟩ := mem_caused_byte hm
    rw [ccOf_rawCc, Option.some.injEq, Prod.mk.injEq] at hv
    exact ⟨i, rfl, hv.1.symm.trans (rawAddress_mask base i)⟩
  | bit i b => exact absurd (mem_caused_bit hm).1 Bool.false_ne_true

/-- In the modes with the bit view, every bit can be made to send its message. -/
theorem emits_bit (base d : UInt8) {mode : InputDecodeMode} (hm : mode.hasBit = true) (i : Nat)
    (b : Fin 8) {a : Address} {v : UInt8}
    (ha : ccOf (bitMessage T (base &&& 0x0F) i b true) = some (a, v)) :
    ∃ rs, Emits T base d mode rs (.bit i b) a := by
  -- all bytes zero, then this one set
  let r0 : List UInt8 := List.replicate (i + 1) 0
  let r1 : List UInt8 := List.replicate i 0 ++ [0xFF]
  let p := { S4GenericProtocol.new base d mode with previousReport := r0 }
  have h0 : bitSample i b r0 = some false := by simp [r0, bitSample]
  have h1 : bitSample i b r1 = some true := by simp [r1, bitSample]
  have hmsg : caused (.bit i b) (decodeMarked T p r1).2 =
      [bitMessage T (base &&& 0x0F) i b true] := by
    rw [caused_bit (p := p) hm, show bitSample i b p.previousReport = _ from h0, h1]
    rfl
  refine ⟨[r0, r1], _, ?_, v, ha⟩
  have hflat : ((marker T).outs (.new base d mode) [r0, r1]).flatten =
      (decodeMarked T p r1).2 := by
    simp [marker, decodeMarked, p, S4GenericProtocol.new]
  rw [hflat, hmsg]
  exact .head _

/-! ## Collisions -/

/-- The byte whose bit 4 has the slot of the table's first entry, channel 1 controller 20. -/
def tableSlotByte (base : UInt8) : Nat := (16 - base.toNat % 16) % 16 * 16 + 2

theorem ccOf_tableSlot (base : UInt8) :
    ccOf (bitMessage Tables.shipped (base &&& 0x0F) 4 7 true) = some ((0, 20), 127) ∧
    ccOf (bitMessage Tables.shipped (base &&& 0x0F) (tableSlotByte base) 4 true) =
      some ((0, 20), 127) := by
  revert base
  exact forall_byte (by decide +kernel)

/-- The first entry of the bit table has the address of another bit. -/
theorem emits_tableSlot (base : UInt8) {mode : InputDecodeMode} (hm : mode.hasBit = true) :
    ¬ UniqueAddresses Tables.shipped base mode := by
  intro h
  obtain ⟨rs, h1⟩ := emits_bit base 0 hm 4 7 (ccOf_tableSlot base).1
  obtain ⟨rs', h2⟩ := emits_bit base 0 hm (tableSlotByte base) 4 (ccOf_tableSlot base).2
  have hlt : tableSlotByte base < 256 := by unfold tableSlotByte; omega
  have heq := h 0 rs (.bit 4 7) 0 rs' (.bit (tableSlotByte base) 4) (0, 20) (by decide) hlt h1 h2
  simp at heq

/-- **Addresses are unique in Byte mode only.** The marked messages are those of `decodeInput`. -/
theorem uniqueAddresses_iff (base : UInt8) (mode : InputDecodeMode) :
    (∀ d rs, (decoder Tables.shipped).outs (.new base d mode) rs =
      ((marker Tables.shipped).outs (.new base d mode) rs).map (·.map Prod.snd)) ∧
    (UniqueAddresses Tables.shipped base mode ↔ mode = .byte) := by
  refine ⟨fun d rs => outs_decoder _ rs, ?_⟩
  constructor
  · intro h
    cases mode with
    | byte => rfl
    | bit => exact absurd h (emits_tableSlot base rfl)
    | hybrid => exact absurd h (emits_tableSlot base rfl)
  · rintro rfl d rs c d' rs' c' a hc hc' h h'
    obtain ⟨i, rfl, ha⟩ := emits_byteMode h
    obtain ⟨j, rfl, ha'⟩ := emits_byteMode h'
    have hi : i < 256 := hc
    have hj : j < 256 := hc'
    rw [rawAddress_inj (by omega) (by omega) (ha.symm.trans ha')]

theorem not_uniqueAddresses_bit : ¬ UniqueAddresses Tables.shipped 0 .bit := emits_tableSlot 0 rfl

end Protocol
