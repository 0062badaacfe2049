import S4Bridge.Protocol.Proof.Step
import S4Bridge.Lib.ChangeFilter

/-!
# The messages of one bit

In the modes with the bit view, the messages emitted for bit `b` of byte `i` are what the filter
that passes on exactly the changes passes on of the samples of that bit (`outs_bitFilter`), each as
the bit's message (`bitMessage`). Neither the deadzone nor any other bit has a part in it, and it is
the same for mapped and unmapped bits. So over every run of equally long reports a receiver sees one
message for each flip, alternating, the last one being the state of the bit (`bit_toggles`).
-/

namespace Protocol

open Bytes Latest DeltaFilter

variable {T : Tables} {p : S4GenericProtocol}

/-- The sample of bit `b` of byte `i` in a report. -/
def bitSample (i : Nat) (b : Fin 8) (report : List UInt8) : Option Bool :=
  (report[i]?).map (bit · b)

/-- The bit has an entry that inverts it. -/
def inverted (T : Tables) (i : Nat) (b : Fin 8) : Bool :=
  (findBitMapping T i (UInt8.ofNat b)).any (·.invert)

/-- The state a button message reports, the entry's inversion undone: 127 is on, 0 is off. -/
def stateOf (invert : Bool) (m : MidiMessage) : Option Bool :=
  match m.bytes with
  | [_, _, value] => if value = 127 then some !invert else if value = 0 then some invert else none
  | _ => none

/-- A bit's message reports the state it was made for. -/
theorem stateOf_bitMessage (base : UInt8) (i : Nat) (b : Fin 8) (on : Bool) :
    stateOf (inverted T i b) (bitMessage T base i b on) = some on := by
  unfold inverted bitMessage
  cases findBitMapping T i (UInt8.ofNat b) with
  | none => cases on <;> rfl
  | some entry => cases h : entry.invert <;> cases on <;> simp [stateOf, makeCc, h]

/-- One report: the messages of one bit. -/
theorem caused_bit (hm : p.decodeMode.hasBit = true) (i : Nat) (b : Fin 8) (r : List UInt8) :
    caused (.bit i b) (decodeMarked T p r).2 =
      (report (fun x y => decide (x ≠ y)) (bitSample i b p.previousReport)
        (bitSample i b r)).toList.map (bitMessage T p.baseChannel i b) := by
  have hc : (Control.bit i b).index = i := rfl
  by_cases hin : i < p.previousReport.length ∧ i < r.length
  · obtain ⟨hp, hi⟩ := hin
    have hflip : ∀ x y : UInt8, x = y → bit x b = bit y b := fun _ _ h => h ▸ rfl
    rw [caused_decodeMarked hc hp hi, caused_bit_decodeByteMarked, hm, bitView_xor]
    simp only [bitSample, List.getD_eq_getElem?_getD, List.getElem?_eq_getElem hp,
      List.getElem?_eq_getElem hi, Option.getD_some, Option.map_some, report_some, and_true]
    by_cases hb : bit p.previousReport[i] b = bit r[i] b
    · simp [hb]
    · have hne : p.previousReport[i] ≠ r[i] := fun h => hb (hflip _ _ h)
      simp [hb, hne]
  · have hnone : bitSample i b p.previousReport = none ∨ bitSample i b r = none := by
      rcases Nat.lt_or_ge i p.previousReport.length with h | h
      · exact .inr (by simp [bitSample, List.getElem?_eq_none (by omega : r.length ≤ i)])
      · exact .inl (by simp [bitSample, List.getElem?_eq_none h])
    rw [caused_decodeMarked_of_missing hc hin]
    rcases hnone with h | h <;> simp [h]

/-- **The bit filter**: over a run, the messages of one bit are its changes. -/
theorem outs_bitFilter (hm : p.decodeMode.hasBit = true) (i : Nat) (b : Fin 8)
    (rs : List (List UInt8)) :
    ((marker T).outs p rs).map (caused (.bit i b)) =
      ((filter fun x y => decide (x ≠ y)).outs (bitSample i b p.previousReport)
        (rs.map (bitSample i b))).map fun o => o.toList.map (bitMessage T p.baseChannel i b) := by
  let R (s : S4GenericProtocol) (t : Option Bool) : Prop :=
    s.decodeMode = p.decodeMode ∧ s.baseChannel = p.baseChannel ∧
      t = bitSample i b s.previousReport
  refine Machine.outs_sim _ (R := R) (fun s t r _ hR => ?_) ⟨rfl, rfl, rfl⟩
  obtain ⟨hs, hb, rfl⟩ := hR
  constructor
  · exact ⟨hs, hb, rfl⟩
  · rw [← hs] at hm
    rw [← hb]
    exact caused_bit hm i b r

theorem caused_flatten (c : Control) (mss : List (List (Control × MidiMessage))) :
    caused c mss.flatten = (mss.map (caused c)).flatten := by
  rw [caused, List.filterMap_flatten]
  rfl

/-- **Buttons neither stick nor fire by themselves**: over a run of equally long reports the messages
of bit `b` of byte `i` are the messages of a list of states with one state for each change of the
bit, alternating from the bit's first value on, whose last is the bit's value now. -/
theorem bit_toggles (T : Tables) (base d : UInt8) (mode : InputDecodeMode)
    (hm : mode.hasBit = true) (first : List UInt8) (rs : List (List UInt8)) (i : Nat) (b : Fin 8)
    (hi : i < first.length) (hlen : ∀ r ∈ rs, r.length = first.length) :
    let now (r : List UInt8) := bit (r.getD i 0) b
    let sent := caused (.bit i b) ((marker T).outs (.new base d mode) (first :: rs)).flatten
    (decoder T).outs (.new base d mode) (first :: rs) =
      ((marker T).outs (.new base d mode) (first :: rs)).map (·.map Prod.snd) ∧
    ∃ states : List Bool,
      sent = states.map (bitMessage T (base &&& 0x0F) i b) ∧
      sent.map (stateOf (inverted T i b)) = states.map some ∧
      states.length = changes (now first) (rs.map now) ∧
      (now first :: states).IsChain (· ≠ ·) ∧
      states.getLastD (now first) = now (rs.getLastD first) := by
  intro now sent
  let p := { S4GenericProtocol.new base d mode with previousReport := first }
  let moved (x y : Bool) : Bool := decide (x ≠ y)
  have hsample : ∀ r ∈ first :: rs, bitSample i b r = some (now r) := by
    intro r hr
    have hlt : i < r.length := by
      rcases List.mem_cons.1 hr with rfl | hr
      · exact hi
      · rw [hlen r hr]; exact hi
    simp [bitSample, now, List.getD_eq_getElem?_getD, List.getElem?_eq_getElem hlt]
  have hsamples : rs.map (bitSample i b) = (rs.map now).map some := by
    rw [List.map_map]
    exact List.map_congr_left fun r hr => hsample r (.tail _ hr)
  -- the first report is the baseline; after it the bit filter runs on the bit's values
  have hsent : sent = (reports moved (now first) (rs.map now)).reduceOption.map
      (bitMessage T (base &&& 0x0F) i b) := by
    have h := outs_bitFilter (T := T) (p := p) hm i b rs
    rw [hsamples, hsample first (.head _)] at h
    calc sent = (((marker T).outs p rs).map (caused (.bit i b))).flatten := caused_flatten _ _
      _ = _ := by rw [h]; exact flatten_map_toList _ _
  have hmoved : ∀ x y : Bool, moved x y = decide (x ≠ y) := fun _ _ => rfl
  refine ⟨outs_decoder _ _, (reports moved (now first) (rs.map now)).reduceOption, hsent, ?_,
    length_reports hmoved _ _, isChain_reports hmoved _ _, ?_⟩
  · rw [hsent, List.map_map]
    exact List.map_congr_left fun on _ => stateOf_bitMessage _ _ _ on
  · have hexact : ∀ x y, moved x y = false → x = y := fun x y h => by simpa [moved] using h
    have h := latest_reports hexact (now first) (rs.map now)
    rw [latest, List.getLastD_map] at h
    rw [List.getLastD_eq_getLast?]
    exact h

theorem bit_toggles_play :
    ∃ states : List Bool,
      caused (.bit 4 1) ((marker Tables.shipped).outs (.new 0 5 .hybrid)
        [[0, 0, 0, 0, 0], [0, 0, 0, 0, 2], [9, 0, 0, 0, 2], [9, 0, 0, 0, 0]]).flatten =
        states.map (bitMessage Tables.shipped 0 4 1) ∧
      states.length = 2 ∧ (false :: states).IsChain (· ≠ ·) ∧ states.getLastD false = false :=
  (bit_toggles Tables.shipped 0 5 .hybrid rfl [0, 0, 0, 0, 0]
    [[0, 0, 0, 0, 2], [9, 0, 0, 0, 2], [9, 0, 0, 0, 0]] 4 1 (by decide) (by decide)).2.imp
    fun _ h => ⟨h.1, h.2.2.1, h.2.2.2.1, h.2.2.2.2⟩

end Protocol
