import S4Bridge.Protocol.Proof.Step
import S4Bridge.Lib.ChangeFilter

/-!
# What a receiver knows of the bytes

In Byte mode, with the source's own tables, the control changes at the address of byte `i` are what a
delta filter passes on of the 7-bit samples of byte `i` (`outs_byteFilter`), as long as no report is
longer than the address space. So a receiver that keeps the last value at that address

* is behind by at most the deadzone for each movement of the byte since the last control change at the
  address (`received_within`), and no better: small steps add up (`not_received_within_deadzone`);
* with deadzone 0 is exact as long as the byte stays in the reports (`received_exact`), but a byte
  that is missing from one report comes back as a new baseline, unreported (`not_received_exact`).
-/

namespace Protocol

open Bytes Latest DeltaFilter

/-- The 7-bit sample of byte `i` in a report. -/
def sample (i : Nat) (report : List UInt8) : Option UInt8 := (report[i]?).map high7

/-- The 7-bit values are further apart than the deadzone. -/
def movedBeyond (deadzone a b : UInt8) : Bool := decide (deadzone.toNat < Nat.dist a.toNat b.toNat)

variable {p : S4GenericProtocol}

/-! ## The byte filter -/

theorem decodeByte_shipped (hm : p.decodeMode = .byte) (i : Nat) (a b : UInt8) :
    decodeByte Tables.shipped p i a b =
      if movedBeyond p.inputDeadzone (high7 a) (high7 b) then [rawCc p.baseChannel i (high7 b)]
      else [] := by
  have hgt : (delta a b > p.inputDeadzone) = (movedBeyond p.inputDeadzone (high7 a) (high7 b)) := by
    rw [movedBeyond, ← toNat_delta, decide_eq_true_eq, gt_iff_lt, UInt8.lt_iff_toNat_lt]
  rw [← decodeByte_eq, decodeByteMarked, hm]
  split
  · rename_i h
    simp [h, movedBeyond, Nat.dist_self]
  · simp [InputDecodeMode.hasByte, InputDecodeMode.hasBit, byteView_shipped, hgt]

/-- In Byte mode only bytes emit, each the control change of its slot. -/
theorem mem_outs_byteMode (hm : p.decodeMode = .byte) {rs : List (List UInt8)} {c : Control}
    {m : MidiMessage} (h : (c, m) ∈ ((marker Tables.shipped).outs p rs).flatten) :
    ∃ i, c = .byte i ∧ (∃ r ∈ rs, i < r.length) ∧ ∃ v < 128, m = rawCc p.baseChannel i v := by
  obtain ⟨previous, r, hr, hmem⟩ := mem_caused_outs (mem_caused.2 h)
  cases c with
  | byte i =>
    obtain ⟨-, hi, v, hv⟩ := mem_caused_byte hmem
    exact ⟨i, rfl, ⟨r, hr, hi⟩, v &&& 0x7F, and_7F_lt v, hv.trans (rawCc_mask _ _ _).symm⟩
  | bit i b =>
    have hbit := (mem_caused_bit hmem).1
    rw [show ({ p with previousReport := previous } : S4GenericProtocol).decodeMode = _ from hm] at hbit
    cases hbit

theorem ccAt_rawCc (base : UInt8) (k : Nat) (v : UInt8) (a : Address) :
    ccAt a (rawCc base k v) = if rawAddress base k = a then some (v &&& 0x7F) else none := by
  simp [ccAt, ccOf_rawCc]

/-- One report: the control changes at the address of byte `i`. -/
theorem filterMap_ccAt_decodeInput (hm : p.decodeMode = .byte) {i : Nat} (hi : i < 2048)
    {r : List UInt8} (hr : r.length ≤ 2048) :
    (decodeInput Tables.shipped p r).2.filterMap (ccAt (rawAddress p.baseChannel i)) =
      (report (movedBeyond p.inputDeadzone) (sample i p.previousReport) (sample i r)).toList := by
  have hturn : ∀ j < r.length, ∀ a b,
      (decodeByte Tables.shipped p j a b).filterMap (ccAt (rawAddress p.baseChannel i)) =
        if j = i ∧ movedBeyond p.inputDeadzone (high7 a) (high7 b) then [high7 b] else [] := by
    intro j hj a b
    have haddr : rawAddress p.baseChannel j = rawAddress p.baseChannel i ↔ j = i :=
      ⟨rawAddress_inj (by omega) hi, fun he => he ▸ rfl⟩
    rw [decodeByte_shipped hm]
    split <;> rename_i h
    · by_cases hji : j = i <;> simp [ccAt_rawCc, haddr, hji, h, high7_and_7F]
    · simp [h]
  rw [decodeInput_eq]
  by_cases hin : i < p.previousReport.length ∧ i < r.length
  · obtain ⟨hp, hi'⟩ := hin
    have hother : ∀ j ∈ List.range (min p.previousReport.length r.length), j ≠ i →
        (decodeByte Tables.shipped p j (p.previousReport.getD j 0) (r.getD j 0)).filterMap
          (ccAt (rawAddress p.baseChannel i)) = [] := by
      intro j hj hne
      rw [List.mem_range] at hj
      rw [hturn j (by omega), if_neg fun h => hne h.1]
    rw [filterMap_flatMap_nodup List.nodup_range (List.mem_range.2 (by omega)) hother,
      hturn i hi']
    simp only [sample, List.getD_eq_getElem?_getD, List.getElem?_eq_getElem hp,
      List.getElem?_eq_getElem hi', Option.map_some, Option.getD_some, report_some, true_and]
    split <;> rfl
  · have hnone : report (movedBeyond p.inputDeadzone) (sample i p.previousReport) (sample i r) =
        none := by
      rcases Nat.lt_or_ge i p.previousReport.length with h | h
      · simp [sample, List.getElem?_eq_none (by omega : r.length ≤ i)]
      · simp [sample, List.getElem?_eq_none h]
    rw [hnone]
    refine filterMap_flatMap_of_forall fun j hj => ?_
    rw [List.mem_range] at hj
    rw [hturn j (by omega), if_neg fun h => hin (by omega)]

/-- **The byte filter**: over a run, the control changes at the address of byte `i` are what the
delta filter passes on of the samples of byte `i`. -/
theorem outs_byteFilter (hm : p.decodeMode = .byte) {i : Nat} (hi : i < 2048)
    {rs : List (List UInt8)} (hrs : ∀ r ∈ rs, r.length ≤ 2048) :
    ((decoder Tables.shipped).outs p rs).map
        (List.filterMap (ccAt (rawAddress p.baseChannel i))) =
      ((filter (movedBeyond p.inputDeadzone)).outs (sample i p.previousReport)
        (rs.map (sample i))).map Option.toList := by
  let R (s : S4GenericProtocol) (t : Option UInt8) : Prop :=
    s.decodeMode = .byte ∧ s.baseChannel = p.baseChannel ∧ s.inputDeadzone = p.inputDeadzone ∧
      t = sample i s.previousReport
  refine Machine.outs_sim _ (R := R) (fun s t r hr hR => ?_) ⟨hm, rfl, rfl, rfl⟩
  obtain ⟨hs, hb, hd, rfl⟩ := hR
  constructor
  · rw [decoder_state]
    exact ⟨hs, hb, hd, rfl⟩
  · have h := filterMap_ccAt_decodeInput hs hi (hrs r hr)
    rw [hb, hd] at h
    exact h

/-! ## Runs -/

/-- The messages of a run, one list for each report. -/
abbrev messages (base deadzone : UInt8) (mode : InputDecodeMode) (rs : List (List UInt8)) :
    List (List MidiMessage) :=
  (decoder Tables.shipped).outs (.new base deadzone mode) rs

/-- What a receiver knows of byte `i` after the messages `outs`, having started from `start`. -/
def received (base : UInt8) (i : Nat) (start : UInt8) (outs : List (List MidiMessage)) : UInt8 :=
  latest (ccAt (rawAddress base i)) start outs.flatten

/-- The reports of `rs`, which follow `first` and are answered by `outs`, whose 7-bit value of byte `i`
is another than in the report before, since the last control change at the address of byte `i`. -/
def heldBack (base : UInt8) (i : Nat) (first : List UInt8) (rs : List (List UInt8))
    (outs : List (List MidiMessage)) : Nat :=
  countSince (fun x => x.2.any fun m => (ccAt (rawAddress base i) m).isSome)
    (fun x => decide (sample i x.1.1 ≠ sample i x.1.2)) 0 (((first :: rs).zip rs).zip outs)

theorem getLast?_toList {α : Type*} (o : Option α) : o.toList.getLast? = o := by
  cases o <;> rfl

theorem sample_eq {i : Nat} {r : List UInt8} (h : i < r.length) :
    sample i r = some (high7 (r.getD i 0)) := by
  simp [sample, List.getD_eq_getElem?_getD, List.getElem?_eq_getElem h]

theorem samples_eq {i : Nat} {rs : List (List UInt8)} (h : ∀ r ∈ rs, i < r.length) :
    rs.map (sample i) = (rs.map fun r => high7 (r.getD i 0)).map some := by
  rw [List.map_map]
  exact List.map_congr_left fun r hr => sample_eq (h r hr)

theorem any_ccAt_eq (a : Address) (ms : List MidiMessage) :
    (ms.any fun m => (ccAt a m).isSome) = !(ms.filterMap (ccAt a)).isEmpty := by
  induction ms with
  | nil => rfl
  | cons m ms ih =>
    cases hc : ccAt a m <;> simp [hc, ih]

section
variable (hm : p.decodeMode = .byte) {i : Nat} (hi : i < 2048) {r : List UInt8}
  {rs : List (List UInt8)} (hp : p.previousReport = r)
  (hlen : ∀ r' ∈ r :: rs, i < r'.length ∧ r'.length ≤ 2048)
include hm hi hp hlen

/-- The run of `rs` after `r`, as a delta filter on the 7-bit values of byte `i`. -/
theorem outs_reports :
    ((decoder Tables.shipped).outs p rs).map
        (List.filterMap (ccAt (rawAddress p.baseChannel i))) =
      (reports (movedBeyond p.inputDeadzone) (high7 (r.getD i 0))
        (rs.map fun r => high7 (r.getD i 0))).map Option.toList := by
  have hrs := fun r' hr' => hlen r' (List.mem_cons_of_mem r hr')
  rw [outs_byteFilter hm hi fun r' hr' => (hrs r' hr').2, hp, sample_eq (hlen r (.head _)).1,
    samples_eq fun r' hr' => (hrs r' hr').1, reports]

theorem received_eq (start : UInt8) :
    received p.baseChannel i start ((decoder Tables.shipped).outs p rs) =
      latest id start (reports (movedBeyond p.inputDeadzone) (high7 (r.getD i 0))
        (rs.map fun r => high7 (r.getD i 0))) := by
  have h := congrArg (latest List.getLast? start) (outs_reports hm hi hp hlen)
  rw [latest_map, latest_map] at h
  rw [received, latest_flatten]
  refine h.trans ?_
  congr 1
  funext o
  exact getLast?_toList o

theorem heldBack_eq :
    let value (r : List UInt8) := high7 (r.getD i 0)
    heldBack p.baseChannel i r rs ((decoder Tables.shipped).outs p rs) =
      countSince (fun x => x.2.isSome) (fun x => decide (x.1.1 ≠ x.1.2)) 0
        (((value r :: rs.map value).zip (rs.map value)).zip
          (reports (movedBeyond p.inputDeadzone) (value r) (rs.map value))) := by
  intro value
  -- both count over the samples of the reports and the control changes at the address
  let heard (x : ((List UInt8 × List UInt8) × List MidiMessage)) :=
    (Prod.map (sample i) (sample i) x.1, x.2.filterMap (ccAt (rawAddress p.baseChannel i)))
  let passed (x : ((UInt8 × UInt8) × Option UInt8)) := (Prod.map some some x.1, x.2.toList)
  have hsamples : (r :: rs).map (sample i) = (value r :: rs.map value).map some := by
    rw [List.map_cons, List.map_cons, sample_eq (hlen r (.head _)).1,
      samples_eq fun r' hr' => (hlen r' (.tail _ hr')).1]
  have hsame : (((r :: rs).zip rs).zip ((decoder Tables.shipped).outs p rs)).map heard =
      (((value r :: rs.map value).zip (rs.map value)).zip
        (reports (movedBeyond p.inputDeadzone) (value r) (rs.map value))).map passed := by
    have hheard : heard = Prod.map (Prod.map (sample i) (sample i))
        (List.filterMap (ccAt (rawAddress p.baseChannel i))) := rfl
    have hpassed : passed = Prod.map (Prod.map some some) Option.toList := rfl
    rw [hheard, hpassed, ← List.zip_map, ← List.zip_map, ← List.zip_map, ← List.zip_map,
      outs_reports hm hi hp hlen, hsamples, samples_eq fun r' hr' => (hlen r' (.tail _ hr')).1]
  have h := congrArg (countSince (fun x => !x.2.isEmpty) (fun x => decide (x.1.1 ≠ x.1.2)) 0) hsame
  rw [countSince_map, countSince_map] at h
  rw [heldBack]
  refine (countSince_congr fun x _ => ⟨any_ccAt_eq _ x.2, rfl⟩).trans
    (h.trans (countSince_congr fun x _ => ⟨?_, ?_⟩))
  · cases hx : x.2 <;> simp [passed, hx]
  · simp [passed]

end

theorem received_mask (base : UInt8) (i : Nat) (start : UInt8) (outs : List (List MidiMessage)) :
    received (base &&& 0x0F) i start outs = received base i start outs := by
  rw [received, rawAddress_mask, received]

theorem heldBack_mask (base : UInt8) (i : Nat) (first : List UInt8) (rs : List (List UInt8))
    (outs : List (List MidiMessage)) :
    heldBack (base &&& 0x0F) i first rs outs = heldBack base i first rs outs := by
  rw [heldBack, rawAddress_mask, heldBack]

/-- With deadzone 0 exactly the changes are passed on. -/
theorem movedBeyond_zero (a b : UInt8) : movedBeyond (min 0 127) a b = decide (a ≠ b) := by
  have hmin : (min 0 127 : UInt8).toNat = 0 := rfl
  have hdist : Nat.dist a.toNat b.toNat = 0 ↔ a = b :=
    ⟨fun h => UInt8.toNat_inj.1 (Nat.eq_of_dist_eq_zero h), fun h => by rw [h, Nat.dist_self]⟩
  rw [movedBeyond, hmin]
  simp only [ne_eq, ← hdist, Nat.pos_iff_ne_zero]

/-- The constructor's deadzone is at most the one asked for. -/
theorem dist_le_of_movedBeyond {d a b : UInt8} (h : movedBeyond (min d 127) a b = false) :
    Nat.dist a.toNat b.toNat ≤ d.toNat := by
  have hmin : (min d 127).toNat ≤ d.toNat := UInt8.le_iff_toNat_le.1 Std.min_le_left
  simp only [movedBeyond, decide_eq_false_iff_not] at h
  omega

/-- The first report of a run is its baseline. -/
theorem messages_cons (base d : UInt8) (mode : InputDecodeMode) (first : List UInt8)
    (rs : List (List UInt8)) :
    messages base d mode (first :: rs) =
      [] :: (decoder Tables.shipped).outs { S4GenericProtocol.new base d mode with
        previousReport := first } rs := rfl

/-- **Tracking within the deadzone for each movement held back**: after every report the receiver's
value of byte `i` is within the deadzone for each report since the last control change at the address
of byte `i`, or since the first report, in which the 7-bit value of byte `i` was a new one. -/
theorem received_within (base d : UInt8) (first : List UInt8) (rs : List (List UInt8)) (i : Nat)
    (hi : i < first.length) (hn : first.length ≤ 2048) (hlen : ∀ r ∈ rs, r.length = first.length) :
    Nat.dist
        (received base i (high7 (first.getD i 0)) (messages base d .byte (first :: rs))).toNat
        (high7 ((rs.getLastD first).getD i 0)).toNat ≤
      d.toNat * heldBack base i first rs (messages base d .byte (first :: rs)).tail := by
  let p := { S4GenericProtocol.new base d .byte with previousReport := first }
  let value (r : List UInt8) := high7 (r.getD i 0)
  have hi' : i < 2048 := Nat.lt_of_lt_of_le hi hn
  have hall : ∀ r ∈ first :: rs, i < r.length ∧ r.length ≤ 2048 := by
    intro r hr
    rcases List.mem_cons.1 hr with rfl | hr
    · exact ⟨hi, hn⟩
    · rw [hlen r hr]; exact ⟨hi, hn⟩
  have hrec : received base i (value first) (messages base d .byte (first :: rs)) =
      latest id (value first) (reports (movedBeyond p.inputDeadzone) (value first) (rs.map value)) := by
    rw [messages_cons, received, List.flatten_cons, List.nil_append, ← received, ← received_mask]
    exact received_eq (p := p) rfl hi' rfl hall _
  have hheld : heldBack base i first rs (messages base d .byte (first :: rs)).tail =
      countSince (fun x => x.2.isSome) (fun x => decide (x.1.1 ≠ x.1.2)) 0
        (((value first :: rs.map value).zip (rs.map value)).zip
          (reports (movedBeyond p.inputDeadzone) (value first) (rs.map value))) := by
    rw [messages_cons, List.tail_cons, ← heldBack_mask]
    exact heldBack_eq (p := p) rfl hi' rfl hall
  have hlast : (rs.map value).getLastD (value first) = value (rs.getLastD first) :=
    List.getLastD_map
  rw [hrec, hheld, show high7 ((rs.getLastD first).getD i 0) = _ from hlast.symm]
  exact gap_latest_le (fun a b : UInt8 => Nat.dist a.toNat b.toNat)
    (fun a => Nat.dist_self _) (fun a b c => Nat.dist.triangle_inequality _ _ _)
    (fun a b => dist_le_of_movedBeyond) (by simp [Nat.dist_self]) _

/-- A knob that takes two small steps and then rests is two deadzones off. -/
theorem received_within_slow_knob :
    Nat.dist (received 0 0 (high7 0) (messages 0 1 .byte [[0], [2], [4], [4], [5]])).toNat
        (high7 5).toNat ≤
      (1 : UInt8).toNat *
        heldBack 0 0 [0] [[2], [4], [4], [5]] (messages 0 1 .byte [[0], [2], [4], [4], [5]]).tail ∧
    heldBack 0 0 [0] [[2], [4], [4], [5]] (messages 0 1 .byte [[0], [2], [4], [4], [5]]).tail = 2 :=
  ⟨received_within 0 1 [0] [[2], [4], [4], [5]] 0 (by decide) (by decide) (by decide), by decide⟩

theorem not_received_within_deadzone :
    ¬ ∀ (base d : UInt8) (first : List UInt8) (rs : List (List UInt8)) (i : Nat),
      base < 16 → d ≤ 127 → 1 ≤ first.length → first.length ≤ 2048 →
      (∀ r ∈ rs, r.length = first.length) → i < first.length →
      Nat.dist
          (received base i (high7 (first.getD i 0)) (messages base d .byte (first :: rs))).toNat
          (high7 ((rs.getLastD first).getD i 0)).toNat ≤ d.toNat := by
  intro h
  -- a knob that moves by one 7-bit step per report: nothing is ever sent
  have := h 0 1 [0] [[2], [4]] 0 (by decide) (by decide) (by decide) (by decide) (by decide)
    (by decide)
  revert this
  decide

/-! ## Reports of different lengths -/

/-- A report does not tell what a byte missing from the one before it has become. -/
theorem filterMap_ccAt_of_missing (hm : p.decodeMode = .byte) {i : Nat} (hi : i < 2048)
    {r : List UInt8} (hr : r.length ≤ 2048) (hmiss : p.previousReport.length ≤ i) :
    (decodeInput Tables.shipped p r).2.filterMap (ccAt (rawAddress p.baseChannel i)) = [] := by
  rw [filterMap_ccAt_decodeInput hm hi hr, sample, List.getElem?_eq_none hmiss]
  simp

/-- **Exact tracking while the byte stays**: with deadzone 0, a receiver that starts from any report
`r` with byte `i` and hears the messages of the reports after it knows byte `i` after each of
them, as long as they all have byte `i`; and a report that has byte `i` after one that has
not says nothing at the address of byte `i`. -/
theorem received_exact (base : UInt8) (before : List (List UInt8)) (r : List UInt8)
    (rs : List (List UInt8)) (i : Nat) (hi : ∀ r' ∈ r :: rs, i < r'.length)
    (hlen : ∀ r' ∈ r :: rs, r'.length ≤ 2048) :
    received base i (high7 (r.getD i 0))
        ((messages base 0 .byte (before ++ r :: rs)).drop (before.length + 1)) =
      high7 ((rs.getLastD r).getD i 0) ∧
    ((before.getLastD []).length ≤ i →
      ((messages base 0 .byte (before ++ r :: rs)).getD before.length []).filterMap
        (ccAt (rawAddress base i)) = []) := by
  let p0 := (decoder Tables.shipped).final (.new base 0 .byte) before
  let p := { p0 with previousReport := r }
  let value (r : List UInt8) := high7 (r.getD i 0)
  have hp0 : p0 = { S4GenericProtocol.new base 0 .byte with
      previousReport := before.getLastD [] } := final_decoder before
  have hi' : i < 2048 := Nat.lt_of_lt_of_le (hi r (.head _)) (hlen r (.head _))
  have hexact : ∀ a b, movedBeyond p.inputDeadzone a b = false → a = b := by
    intro a b h
    have hdz : p.inputDeadzone = min 0 127 := by
      show p0.inputDeadzone = _
      rw [hp0]; rfl
    simpa [hdz, movedBeyond_zero] using h
  have hmode : p0.decodeMode = .byte := by rw [hp0]; rfl
  have hbase : p0.baseChannel = base &&& 0x0F := by rw [hp0]; rfl
  constructor
  · have hdrop : (messages base 0 .byte (before ++ r :: rs)).drop (before.length + 1) =
        (decoder Tables.shipped).outs p rs := by
      have h := (decoder Tables.shipped).drop_outs (.new base 0 .byte) (before ++ [r]) rs
      rw [List.append_assoc, List.length_append, Machine.final_append, Machine.final_cons,
        decoder_state] at h
      exact h
    rw [hdrop, ← received_mask, ← hbase]
    refine (received_eq (p := p) hmode hi' rfl (fun r' hr' => ⟨hi r' hr', hlen r' hr'⟩) _).trans ?_
    rw [latest_reports hexact]
    exact List.getLastD_map
  · intro hmiss
    rw [List.getD_eq_getElem?_getD, Machine.getElem?_outs, Option.getD_some, ← rawAddress_mask,
      ← hbase]
    exact filterMap_ccAt_of_missing (p := p0) hmode hi' (hlen r (.head _)) (by rw [hp0]; exact hmiss)

theorem received_exact_after_gap :
    received 0 1 (high7 2) ((messages 0 0 .byte ([[0, 0], [0]] ++ [0, 2] :: [[0, 6]])).drop 3) =
      high7 6 ∧
    ((messages 0 0 .byte ([[0, 0], [0]] ++ [0, 2] :: [[0, 6]])).getD 2 []).filterMap
      (ccAt (rawAddress 0 1)) = [] :=
  have h := received_exact 0 [[0, 0], [0]] [0, 2] [[0, 6]] 1 (by decide) (by decide)
  ⟨h.1, h.2 (by decide)⟩

theorem not_received_exact :
    ¬ ∀ (base : UInt8) (rs : List (List UInt8)) (r : List UInt8) (i : Nat), base < 16 →
      (∀ r' ∈ rs ++ [r], r' ≠ [] ∧ r'.length ≤ 2048) → i < r.length →
      received base i (high7 ((((rs ++ [r]).find? fun r' => decide (i < r'.length)).getD []).getD i 0))
          (messages base 0 .byte (rs ++ [r])) =
        high7 (r.getD i 0) := by
  intro h
  -- byte 1 is missing from the second report and comes back changed
  have := h 0 [[0, 0], [0]] [0, 2] 1 (by decide) (by decide) (by decide)
  revert this
  decide

end Protocol
