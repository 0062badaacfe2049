import S4Bridge.Protocol.Proof.Step

/-!
# The deadzone of a mapped byte

An entry of the byte table may have a deadzone of its own. Where a byte moves within it,
`decodeInput` falls back to the byte's raw slot, which has the global deadzone, as if there were no
entry. So a mapped byte obeys its own deadzone exactly if no movement lies between the two
(`mapped_iff`).
-/

namespace Protocol

open Bytes

variable {T : Tables} {p : S4GenericProtocol}

/-- The deadzone that counts for an entry. -/
def effectiveDeadzone (inputDeadzone : Nat) (entry : ByteMapEntry) : Nat :=
  if 0 ≤ entry.deadzoneOverride then min entry.deadzoneOverride.toNat 127 else inputDeadzone

/-- How far the 7-bit value of byte `i` moves; a byte that one of the reports lacks does not. -/
def movement (i : Nat) (previous report : List UInt8) : Nat :=
  match previous[i]?, report[i]? with
  | some a, some b => Nat.dist (high7 a).toNat (high7 b).toNat
  | _, _ => 0

/-- At most one message, at the entry's channel and controller, exactly if the byte moves beyond the
entry's deadzone. -/
structure Obeys (p : S4GenericProtocol) (entry : ByteMapEntry) (moved : Nat)
    (messages : List MidiMessage) : Prop where
  once : messages.length ≤ 1
  address : ∀ m ∈ messages, ∃ value,
    m = makeCc (ch1ToStatusNibble entry.midiChannel p.baseChannel) entry.cc value
  beyond : messages ≠ [] ↔ effectiveDeadzone p.inputDeadzone.toNat entry < moved

theorem toNat_entryDeadzone (p : S4GenericProtocol) (entry : ByteMapEntry) :
    (entryDeadzone p entry).toNat = effectiveDeadzone p.inputDeadzone.toNat entry := by
  have hle : p.inputDeadzone.toNat ≤ 127 := UInt8.le_iff_toNat_le.1 p.inputDeadzone_le
  unfold entryDeadzone effectiveDeadzone
  by_cases h : 0 ≤ entry.deadzoneOverride
  · simp only [ge_iff_le, if_pos h, UInt8.toNat_ofNat']
    omega
  · simp only [ge_iff_le, if_neg h, UInt8.toNat_ofNat']
    omega

/-- The mapped branch, and the fallback where it has emitted nothing. -/
theorem byteView_mapped {i : Nat} {entry : ByteMapEntry}
    (hentry : findByteMapping T i = some entry) (d v : UInt8) :
    byteView T p i d v =
      if d > entryDeadzone p entry then
        [makeCc (ch1ToStatusNibble entry.midiChannel p.baseChannel) entry.cc v]
      else if d > p.inputDeadzone then [rawCc p.baseChannel i v] else [] := by
  simp only [byteView, hentry, kEmitUnmappedByte, Bool.and_true, rawChannel_eq,
    rawController_eq p.baseChannel]
  by_cases hd : d > entryDeadzone p entry
  · simp [hd]
  · simp [hd, rawCc]

theorem movement_eq {i : Nat} {previous report : List UInt8} (hp : i < previous.length)
    (hr : i < report.length) :
    movement i previous report = (delta (previous.getD i 0) (report.getD i 0)).toNat := by
  rw [movement, toNat_delta, List.getElem?_eq_getElem hp, List.getElem?_eq_getElem hr]
  simp [hp, hr]

theorem movement_of_missing {i : Nat} {previous report : List UInt8}
    (h : ¬ (i < previous.length ∧ i < report.length)) : movement i previous report = 0 := by
  unfold movement
  split
  · rename_i a b ha hb
    exact absurd ⟨(List.getElem?_eq_some_iff.1 ha).1, (List.getElem?_eq_some_iff.1 hb).1⟩ h
  · rfl

/-- What a mapped byte emits in Byte mode: the entry's message beyond its deadzone, else the raw
slot's beyond the global one. -/
theorem caused_mapped (hmode : p.decodeMode = .byte) {i : Nat} {entry : ByteMapEntry}
    (hentry : findByteMapping T i = some entry) (report : List UInt8) :
    let moved := movement i p.previousReport report
    let value := high7 (report.getD i 0)
    caused (.byte i) (decodeMarked T p report).2 =
      if effectiveDeadzone p.inputDeadzone.toNat entry < moved then
        [makeCc (ch1ToStatusNibble entry.midiChannel p.baseChannel) entry.cc value]
      else if p.inputDeadzone.toNat < moved then [rawCc p.baseChannel i value] else [] := by
  intro moved value
  have hc : (Control.byte i).index = i := rfl
  by_cases hin : i < p.previousReport.length ∧ i < report.length
  · have hmoved : moved = (delta (p.previousReport.getD i 0) (report.getD i 0)).toNat :=
      movement_eq hin.1 hin.2
    rw [caused_decodeMarked hc hin.1 hin.2, caused_byte_decodeByteMarked, byteView_mapped hentry,
      hmoved, ← toNat_entryDeadzone]
    simp only [← UInt8.lt_iff_toNat_lt]
    by_cases hsame : p.previousReport.getD i 0 = report.getD i 0
    · have hzero : delta (p.previousReport.getD i 0) (report.getD i 0) = 0 := by
        apply UInt8.toNat_inj.1
        rw [hsame, toNat_delta, Nat.dist_self]
        rfl
      rw [if_neg (fun h => h.1 hsame), hzero, if_neg (UInt8.not_lt.2 UInt8.zero_le),
        if_neg (UInt8.not_lt.2 UInt8.zero_le)]
    · rw [if_pos ⟨hsame, by rw [hmode]; rfl⟩]
  · have hmoved : moved = 0 := movement_of_missing hin
    rw [caused_decodeMarked_of_missing hc hin, hmoved, if_neg (Nat.not_lt_zero _),
      if_neg (Nat.not_lt_zero _)]

/-- **A mapped byte obeys its own deadzone** exactly if it does not move beyond the global deadzone
within its own. The marked messages are those of `decodeInput`. -/
theorem mapped_iff (hmode : p.decodeMode = .byte) {i : Nat} {entry : ByteMapEntry}
    (hentry : findByteMapping T i = some entry) (report : List UInt8) :
    let moved := movement i p.previousReport report
    (decodeInput T p report).2 = (decodeMarked T p report).2.map Prod.snd ∧
    (Obeys p entry moved (caused (.byte i) (decodeMarked T p report).2) ↔
      moved ≤ p.inputDeadzone.toNat ∨ effectiveDeadzone p.inputDeadzone.toNat entry < moved) := by
  intro moved
  refine ⟨congrArg Prod.snd (map_snd_decodeMarked report), ?_⟩
  rw [caused_mapped hmode hentry report]
  by_cases hbeyond : effectiveDeadzone p.inputDeadzone.toNat entry < moved
  · rw [if_pos hbeyond]
    refine iff_of_true ⟨Nat.le_refl _, fun m hm => ?_, ?_⟩ (.inr hbeyond)
    · exact ⟨_, List.mem_singleton.1 hm⟩
    · exact iff_of_true (List.cons_ne_nil _ _) hbeyond
  · rw [if_neg hbeyond]
    by_cases hglobal : p.inputDeadzone.toNat < moved
    · rw [if_pos hglobal]
      refine iff_of_false (fun h => ?_) (fun h => ?_)
      · exact hbeyond (h.beyond.1 (List.cons_ne_nil _ _))
      · exact h.elim (Nat.not_le.2 hglobal) hbeyond
    · rw [if_neg hglobal]
      refine iff_of_true ⟨Nat.zero_le _, fun m hm => (by cases hm), ?_⟩ (.inl (Nat.not_lt.1 hglobal))
      exact iff_of_false (fun h => h rfl) hbeyond

/-- The decoder with byte 0 mapped to controller 10 of channel 1, with the given deadzone, after a
report of zeros. -/
def mappedKnob (deadzoneOverride : Int) : Tables × S4GenericProtocol :=
  (⟨[⟨0, 1, 10, deadzoneOverride⟩], kBitMappings⟩,
    { S4GenericProtocol.new 0 2 .byte with previousReport := [0] })

/-- A deadzone below the global one. -/
theorem mapped_iff_sensitive :
    Obeys (mappedKnob 1).2 ⟨0, 1, 10, 1⟩ 4
      (caused (.byte 0) (decodeMarked (mappedKnob 1).1 (mappedKnob 1).2 [8]).2) :=
  (mapped_iff (T := (mappedKnob 1).1) (p := (mappedKnob 1).2) rfl (i := 0) rfl [8]).2.2
    (.inr (by decide))

/-- A movement of 4 within a deadzone of 10: the raw slot's message is emitted. -/
theorem not_mapped_within :
    ¬ ∀ (T : Tables) (p : S4GenericProtocol), p.decodeMode = .byte →
      ∀ (i : Nat) (entry : ByteMapEntry), findByteMapping T i = some entry →
      ∀ report : List UInt8, Obeys p entry (movement i p.previousReport report)
        (caused (.byte i) (decodeMarked T p report).2) := by
  intro h
  have hobeys := h (mappedKnob 10).1 (mappedKnob 10).2 rfl 0 _ rfl [8]
  exact absurd (hobeys.beyond.1 (by decide)) (by decide)

end Protocol
