import S4Bridge.Protocol.Control
import S4Bridge.Lib.Latest
import Mathlib.Data.Nat.Dist

/-!
# What one step of the decoder emits

* `map_snd_decodeMarked`: marking changes nothing about the messages.
* `caused_byte`, `caused_bit`: the messages of one control depend on the two samples of that control
  alone.
* `ccOf_raw`: the source's casts to 16 and 8 bits do not change the address of a slot;
  `rawAddress_inj`: the 2048 slots have 2048 addresses.
-/

namespace Protocol

open Bytes Latest

variable {T : Tables} {p : S4GenericProtocol}

/-! ## Marking -/

theorem decodeByte_eq (i : Nat) (a b : UInt8) :
    (decodeByteMarked T p i a b).map Prod.snd = decodeByte T p i a b := by
  unfold decodeByteMarked decodeByte
  split
  · rfl
  · cases hm : p.decodeMode <;>
      simp [InputDecodeMode.hasByte, InputDecodeMode.hasBit, List.map_flatMap, Function.comp_def,
        delta, high7]

/-- The first packet needs no case of its own: it has no byte to compare. -/
theorem decodeInput_eq (r : List UInt8) :
    decodeInput T p r = ({ p with previousReport := r },
      (List.range (min p.previousReport.length r.length)).flatMap fun i =>
        decodeByte T p i (p.previousReport.getD i 0) (r.getD i 0)) := by
  unfold decodeInput
  split
  · rename_i h
    simp [List.isEmpty_iff.1 h]
  · rfl

/-- Marking changes nothing about the messages, or the state. -/
theorem map_snd_decodeMarked (r : List UInt8) :
    decodeInput T p r =
      ((decodeMarked T p r).1, (decodeMarked T p r).2.map Prod.snd) := by
  simp [decodeInput_eq, decodeMarked, List.map_flatMap, decodeByte_eq]

@[simp] theorem decodeInput_state (r : List UInt8) :
    (decodeInput T p r).1 = { p with previousReport := r } := by
  rw [decodeInput_eq]

@[simp] theorem decoder_state (r : List UInt8) :
    ((decoder T).step p r).1 = { p with previousReport := r } := decodeInput_state r

/-- Of a run, the decoder remembers the last report. -/
theorem final_decoder (rs : List (List UInt8)) :
    (decoder T).final p rs = { p with previousReport := rs.getLastD p.previousReport } := by
  induction rs generalizing p with
  | nil => rfl
  | cons r rs ih => rw [Machine.final_cons, ih, decoder_state, List.getLastD_cons]

theorem outs_decoder (s : S4GenericProtocol) (rs : List (List UInt8)) :
    (decoder T).outs s rs = ((marker T).outs s rs).map (·.map Prod.snd) := by
  induction rs generalizing s with
  | nil => rfl
  | cons r rs ih =>
    have h := map_snd_decodeMarked (T := T) (p := s) r
    simp only [Machine.outs_cons, List.map_cons, decoder, marker, h] at ih ⊢
    rw [ih]

/-! ## One control's messages -/

theorem caused_append (c : Control) (xs ys : List (Control × MidiMessage)) :
    caused c (xs ++ ys) = caused c xs ++ caused c ys := List.filterMap_append

theorem caused_map_mk (c c' : Control) (ms : List MidiMessage) :
    caused c (ms.map (Prod.mk c')) = if c' = c then ms else [] := by
  unfold caused
  rw [List.filterMap_map]
  by_cases h : c' = c <;> simp [h]

theorem caused_decodeByteMarked_of_ne {c : Control} {i : Nat} (h : i ≠ c.index) (a b : UInt8) :
    caused c (decodeByteMarked T p i a b) = [] := by
  have hbyte : Control.byte i ≠ c := fun he => h (he ▸ rfl)
  have hbit : ∀ b', Control.bit i b' ≠ c := fun b' he => h (he ▸ rfl)
  unfold decodeByteMarked
  split
  · rfl
  · rw [caused_append, List.append_eq_nil_iff]
    constructor
    · split
      · rw [caused_map_mk, if_neg hbyte]
      · rfl
    · split
      · refine filterMap_flatMap_of_forall fun b' _ => ?_
        exact (caused_map_mk ..).trans (if_neg (hbit b'))
      · rfl

/-- The messages of a control come from the turn of its byte alone. -/
theorem caused_decodeMarked {c : Control} {i : Nat} (hc : c.index = i)
    (hp : i < p.previousReport.length) {r : List UInt8} (hr : i < r.length) :
    caused c (decodeMarked T p r).2 =
      caused c (decodeByteMarked T p i (p.previousReport.getD i 0) (r.getD i 0)) := by
  subst hc
  exact filterMap_flatMap_nodup List.nodup_range (List.mem_range.2 (by omega))
    fun j _ hj => caused_decodeByteMarked_of_ne hj _ _

theorem caused_decodeMarked_of_missing {c : Control} {i : Nat} (hc : c.index = i) {r : List UInt8}
    (h : ¬ (i < p.previousReport.length ∧ i < r.length)) : caused c (decodeMarked T p r).2 = [] := by
  subst hc
  refine filterMap_flatMap_of_forall fun j hj => ?_
  rw [List.mem_range] at hj
  exact caused_decodeByteMarked_of_ne (fun he => h (by omega)) _ _

theorem caused_byte_decodeByteMarked (i : Nat) (a b : UInt8) :
    caused (.byte i) (decodeByteMarked T p i a b) =
      if a ≠ b ∧ p.decodeMode.hasByte then byteView T p i (delta a b) (high7 b) else [] := by
  have hbits : caused (.byte i) ((List.finRange 8).flatMap fun bit =>
      (bitView T p i (a ^^^ b) b bit).map (Prod.mk (.bit i bit))) = [] :=
    filterMap_flatMap_of_forall fun _ _ => (caused_map_mk ..).trans (if_neg (by simp))
  unfold decodeByteMarked
  by_cases hab : a = b
  · simp [hab, caused]
  · rw [if_neg hab, caused_append]
    cases p.decodeMode.hasByte <;> cases p.decodeMode.hasBit <;>
      simp [hab, hbits, caused_map_mk] <;> rfl

theorem caused_bit_decodeByteMarked (i : Nat) (bit : Fin 8) (a b : UInt8) :
    caused (.bit i bit) (decodeByteMarked T p i a b) =
      if a ≠ b ∧ p.decodeMode.hasBit then bitView T p i (a ^^^ b) b bit else [] := by
  have hbits : caused (.bit i bit) ((List.finRange 8).flatMap fun bit' =>
      (bitView T p i (a ^^^ b) b bit').map (Prod.mk (.bit i bit'))) =
      bitView T p i (a ^^^ b) b bit := by
    refine (filterMap_flatMap_nodup (List.nodup_finRange 8) (List.mem_finRange bit)
      fun bit' _ h => ?_).trans ?_
    · exact (caused_map_mk ..).trans (if_neg (by simpa using h))
    · exact (caused_map_mk ..).trans (if_pos rfl)
  unfold decodeByteMarked
  by_cases hab : a = b
  · simp [hab, caused]
  · rw [if_neg hab, caused_append]
    cases p.decodeMode.hasByte <;> cases p.decodeMode.hasBit <;>
      simp [hab, hbits, caused_map_mk] <;> rfl

/-! ## Values -/

/-- The loop body's `delta` is the distance of the 7-bit values. -/
theorem toNat_delta (a b : UInt8) :
    (delta a b).toNat = Nat.dist (high7 a).toNat (high7 b).toNat := by
  unfold delta Nat.dist
  split
  · rename_i h
    have hlt : (high7 b).toNat < (high7 a).toNat := UInt8.lt_iff_toNat_lt.1 h
    rw [UInt8.toNat_sub_of_le _ _ (UInt8.le_iff_toNat_le.2 hlt.le)]
    omega
  · rename_i h
    have hle : (high7 a).toNat ≤ (high7 b).toNat :=
      Nat.le_of_not_lt fun hc => h (UInt8.lt_iff_toNat_lt.2 hc)
    rw [UInt8.toNat_sub_of_le _ _ (UInt8.le_iff_toNat_le.2 hle)]
    omega

/-! ## Addresses -/

theorem ccOf_makeCc (channel controller value : UInt8) :
    ccOf (makeCc channel controller value) =
      some ((channel &&& 0x0F, controller &&& 0x7F), value &&& 0x7F) := by
  simp [ccOf, makeCc, status_kind, status_channel]

theorem rawAddress_lt (base : UInt8) (k : Nat) :
    (rawAddress base k).1 < 16 ∧ (rawAddress base k).2 < 128 := by
  have h1 : (base.toNat + k / 128) % 16 < 16 := Nat.mod_lt _ (by decide)
  have h2 : k % 128 < 128 := Nat.mod_lt _ (by decide)
  have e1 : (16 : UInt8).toNat = 16 := rfl
  have e2 : (128 : UInt8).toNat = 128 := rfl
  constructor <;> simp only [rawAddress, UInt8.lt_iff_toNat_lt, UInt8.toNat_ofNat', e1, e2] <;> omega

theorem ccOf_rawCc (base : UInt8) (k : Nat) (value : UInt8) :
    ccOf (rawCc base k value) = some (rawAddress base k, value &&& 0x7F) := by
  obtain ⟨h1, h2⟩ := rawAddress_lt base k
  rw [rawCc, ccOf_makeCc, and_0F_of_lt _ h1, and_7F_of_lt _ h2]

/-- `makeCc` masks the value once more. -/
theorem rawCc_mask (base : UInt8) (k : Nat) (v : UInt8) :
    rawCc base k (v &&& 0x7F) = rawCc base k v := by
  have h : v &&& 0x7F &&& 0x7F = v &&& 0x7F := and_7F_of_lt _ (and_7F_lt v)
  simp only [rawCc, makeCc, h]

/-- The index cast to 16 bits has the channel of the index itself: 2^16 is a multiple of the
2048 slots. -/
theorem rawChannel_eq (base : UInt8) (k : Nat) :
    UInt8.ofNat ((base.toNat + (UInt16.ofNat k).toNat / 128) &&& 0x0F) = (rawAddress base k).1 := by
  have hand : (base.toNat + k % 65536 / 128) &&& 0x0F = (base.toNat + k % 65536 / 128) % 16 :=
    Nat.and_two_pow_sub_one_eq_mod _ 4
  have hmod : (base.toNat + k % 65536 / 128) % 16 = (base.toNat + k / 128) % 16 := by omega
  rw [UInt16.toNat_ofNat', hand, hmod]
  rfl

/-- Neither does the cast change the controller. -/
theorem rawController_eq (base : UInt8) (k : Nat) :
    UInt8.ofNat ((UInt16.ofNat k).toNat % 128) = (rawAddress base k).2 := by
  have hmod : k % 65536 % 128 = k % 128 := by omega
  rw [UInt16.toNat_ofNat', hmod]
  rfl

/-- The 2048 slots have 2048 addresses. -/
theorem rawAddress_inj {base : UInt8} {k l : Nat} (hk : k < 2048) (hl : l < 2048)
    (h : rawAddress base k = rawAddress base l) : k = l := by
  simp only [rawAddress, Prod.mk.injEq, ← UInt8.toNat_inj, UInt8.toNat_ofNat'] at h
  omega

/-- The constructor's mask does not show in an address. -/
theorem rawAddress_mask (base : UInt8) (k : Nat) :
    rawAddress (base &&& 0x0F) k = rawAddress base k := by
  have hmod : (base.toNat % 16 + k / 128) % 16 = (base.toNat + k / 128) % 16 := by omega
  rw [rawAddress, toNat_and_0F, hmod, rawAddress]

/-! ## The views -/

/-- A byte without an entry has its raw slot. -/
theorem byteView_unmapped {i : Nat} (h : findByteMapping T i = none) (d v : UInt8) :
    byteView T p i d v = if d > p.inputDeadzone then [rawCc p.baseChannel i v] else [] := by
  simp only [byteView, h, List.isEmpty_nil, Bool.not_true, Bool.not_false, Bool.true_and,
    kEmitUnmappedByte, decide_eq_true_eq, List.nil_append, rawChannel_eq,
    rawController_eq p.baseChannel, rawCc]

/-- The source's own byte table is empty. -/
theorem byteView_shipped (i : Nat) (d v : UInt8) :
    byteView Tables.shipped p i d v =
      if d > p.inputDeadzone then [rawCc p.baseChannel i v] else [] := byteView_unmapped rfl d v

/-- A bit that flipped emits one message, for the state it is in now. -/
theorem bitView_xor (i : Nat) (a b : UInt8) (bt : Fin 8) :
    bitView T p i (a ^^^ b) b bt =
      if bit a bt ≠ bit b bt then [bitMessage T p.baseChannel i bt (bit b bt)] else [] := by
  have hflip : (a ^^^ b) >>> UInt8.ofNat bt &&& 0x01 = 0 ↔ bit a bt = bit b bt := by
    rw [shiftRight_and_one, bit_xor]
    cases bit a bt <;> cases bit b bt <;> decide
  have hon : decide (b >>> UInt8.ofNat bt &&& 0x01 ≠ 0) = bit b bt := by
    rw [shiftRight_and_one]
    cases bit b bt <;> decide
  unfold bitView bitMessage
  by_cases h : bit a bt = bit b bt
  · rw [if_pos (hflip.2 h), if_neg (not_not.2 h)]
  · rw [if_neg (fun hc => h (hflip.1 hc)), if_pos h]
    simp only [hon, kEmitUnmappedBit, if_true, rawChannel_eq, rawController_eq p.baseChannel, rawCc]
    cases findBitMapping T i (UInt8.ofNat bt) <;> rfl

theorem mem_byteView {i : Nat} {d v : UInt8} {m : MidiMessage} (h : m ∈ byteView T p i d v) :
    ∃ channel controller value, m = makeCc channel controller value := by
  rcases List.mem_append.1 h with h | h
  · cases hf : findByteMapping T i with
    | none => rw [hf] at h; cases h
    | some entry =>
      rw [hf] at h
      exact ⟨_, _, _, List.mem_singleton.1 (List.mem_ite_nil_right.1 h).2⟩
  · exact ⟨_, _, _, List.mem_singleton.1 (List.mem_ite_nil_right.1 h).2⟩

theorem mem_bitView {i : Nat} {diff current : UInt8} {b : Fin 8} {m : MidiMessage}
    (h : m ∈ bitView T p i diff current b) :
    ∃ channel controller value, m = makeCc channel controller value := by
  unfold bitView at h
  split at h
  · cases h
  · split at h
    · exact ⟨_, _, _, List.mem_singleton.1 h⟩
    · split at h
      · exact ⟨_, _, _, List.mem_singleton.1 h⟩
      · cases h

/-- Every message of a report is a control change. -/
theorem mem_decodeInput {r : List UInt8} {m : MidiMessage} (h : m ∈ (decodeInput T p r).2) :
    ∃ channel controller value, m = makeCc channel controller value := by
  rw [decodeInput_eq] at h
  obtain ⟨i, -, h⟩ := List.mem_flatMap.1 h
  unfold decodeByte at h
  split at h
  · cases h
  · rcases List.mem_append.1 h with h | h
    · exact mem_byteView (List.mem_ite_nil_right.1 h).2
    · obtain ⟨b, -, h⟩ := List.mem_flatMap.1 (List.mem_ite_nil_right.1 h).2
      exact mem_bitView h

/-- What a byte emits, with the source's own tables. -/
theorem mem_caused_byte {i : Nat} {r : List UInt8} {m : MidiMessage}
    (h : m ∈ caused (.byte i) (decodeMarked Tables.shipped p r).2) :
    p.decodeMode.hasByte = true ∧ i < r.length ∧ ∃ v, m = rawCc p.baseChannel i v := by
  have hc : (Control.byte i).index = i := rfl
  by_cases hin : i < p.previousReport.length ∧ i < r.length
  · rw [caused_decodeMarked hc hin.1 hin.2, caused_byte_decodeByteMarked, byteView_shipped] at h
    split at h
    · rename_i hm
      split at h
      · exact ⟨hm.2, hin.2, _, List.mem_singleton.1 h⟩
      · cases h
    · cases h
  · rw [caused_decodeMarked_of_missing hc hin] at h
    cases h

/-- What a bit emits. -/
theorem mem_caused_bit {i : Nat} {bt : Fin 8} {r : List UInt8} {m : MidiMessage}
    (h : m ∈ caused (.bit i bt) (decodeMarked T p r).2) :
    p.decodeMode.hasBit = true ∧ ∃ on, m = bitMessage T p.baseChannel i bt on := by
  have hc : (Control.bit i bt).index = i := rfl
  by_cases hin : i < p.previousReport.length ∧ i < r.length
  · rw [caused_decodeMarked hc hin.1 hin.2, caused_bit_decodeByteMarked, bitView_xor] at h
    split at h
    · rename_i hm
      split at h
      · exact ⟨hm.2, _, List.mem_singleton.1 h⟩
      · cases h
    · cases h
  · rw [caused_decodeMarked_of_missing hc hin] at h
    cases h

/-- A message of a run is a message of one of its steps. -/
theorem mem_caused_outs {c : Control} {m : MidiMessage} {rs : List (List UInt8)}
    (h : m ∈ caused c ((marker T).outs p rs).flatten) :
    ∃ previous, ∃ r ∈ rs,
      m ∈ caused c (decodeMarked T { p with previousReport := previous } r).2 := by
  induction rs generalizing p with
  | nil => simp [caused] at h
  | cons r rs ih =>
    rw [Machine.outs_cons, List.flatten_cons, caused_append, List.mem_append] at h
    rcases h with h | h
    · exact ⟨p.previousReport, r, .head _, h⟩
    · obtain ⟨previous, r', hr', h'⟩ := ih (p := { p with previousReport := r }) h
      exact ⟨previous, r', .tail _ hr', h'⟩

theorem mem_caused {c : Control} {m : MidiMessage} {ms : List (Control × MidiMessage)} :
    m ∈ caused c ms ↔ (c, m) ∈ ms := by
  unfold caused
  rw [List.mem_filterMap]
  constructor
  · rintro ⟨⟨c', m'⟩, hmem, h⟩
    split at h
    · rename_i hc
      simp only [Option.some.injEq] at hc h
      exact hc ▸ h ▸ hmem
    · cases h
  · intro h
    exact ⟨(c, m), h, if_pos rfl⟩

end Protocol
