import S4Bridge.Lib.Interleaving
import S4Bridge.Protocol.Proof.Step

/-!
# The two views side by side

Objects that differ in their mode only store the same reports, and in Hybrid mode the messages of a
report are those of Byte mode and those of Bit mode: index by index, the byte's message in front of
its bits' (`hybrid_parallel`). Neither view has a part in the other.
-/

namespace Protocol

open Latest

variable {T : Tables} {p : S4GenericProtocol}

/-! ## One byte -/

/-- The loop body in Hybrid mode is the one in Byte mode and then the one in Bit mode. -/
theorem decodeByteMarked_hybrid (T : Tables) (p : S4GenericProtocol) (i : Nat) (a b : UInt8) :
    decodeByteMarked T { p with decodeMode := .hybrid } i a b =
      decodeByteMarked T { p with decodeMode := .byte } i a b ++
        decodeByteMarked T { p with decodeMode := .bit } i a b := by
  unfold decodeByteMarked
  by_cases hab : a = b
  · rw [if_pos hab, if_pos hab, if_pos hab]
    rfl
  · rw [if_neg hab, if_neg hab, if_neg hab]
    simp only [InputDecodeMode.hasByte, InputDecodeMode.hasBit, Bool.false_eq_true, if_true,
      if_false, List.append_nil, List.nil_append]
    rfl

theorem byteView_length (i : Nat) (d v : UInt8) : (byteView T p i d v).length ≤ 1 := by
  unfold byteView
  cases findByteMapping T i with
  | none => simp only [List.nil_append]; split <;> simp
  | some entry =>
    by_cases hd : d > entryDeadzone p entry
    · simp [hd]
    · simp only [if_neg hd, List.nil_append]
      split <;> simp

/-- Byte mode has one message for a byte at most. -/
theorem decodeByteMarked_byte (T : Tables) (p : S4GenericProtocol) (i : Nat) (a b : UInt8) :
    (decodeByteMarked T { p with decodeMode := .byte } i a b).length ≤ 1 := by
  unfold decodeByteMarked
  split
  · exact Nat.zero_le 1
  · simp only [InputDecodeMode.hasByte, InputDecodeMode.hasBit, Bool.false_eq_true, if_true,
      if_false, List.append_nil, List.length_map]
    exact byteView_length i _ _

theorem mem_decodeByteMarked {i : Nat} {a b : UInt8} {m : Control × MidiMessage}
    (h : m ∈ decodeByteMarked T p i a b) : a ≠ b ∧ m.1.index = i := by
  unfold decodeByteMarked at h
  split at h
  · cases h
  · rename_i hab
    refine ⟨hab, ?_⟩
    rcases List.mem_append.1 h with h | h
    · obtain ⟨_, -, rfl⟩ := List.mem_map.1 (List.mem_ite_nil_right.1 h).2
      rfl
    · obtain ⟨bit, -, h⟩ := List.mem_flatMap.1 (List.mem_ite_nil_right.1 h).2
      obtain ⟨_, -, rfl⟩ := List.mem_map.1 h
      rfl

/-! ## One report -/

/-- The messages of byte `i` and its bits. -/
def atIndex (i : Nat) (ms : List (Control × MidiMessage)) : List (Control × MidiMessage) :=
  ms.filter fun m => m.1.index = i

theorem atIndex_decodeByteMarked (i j : Nat) (a b : UInt8) :
    atIndex i (decodeByteMarked T p j a b) = if j = i then decodeByteMarked T p j a b else [] := by
  split
  · rename_i hj
    refine List.filter_eq_self.2 fun m hm => decide_eq_true ?_
    exact (mem_decodeByteMarked hm).2.trans hj
  · rename_i hj
    refine List.filter_eq_nil_iff.2 fun m hm hmi => hj ?_
    exact (mem_decodeByteMarked hm).2.symm.trans (of_decide_eq_true hmi)

theorem atIndex_decodeMarked {i : Nat} {r : List UInt8}
    (hi : i < min p.previousReport.length r.length) :
    atIndex i (decodeMarked T p r).2 =
      decodeByteMarked T p i (p.previousReport.getD i 0) (r.getD i 0) := by
  have hguard : ∀ ms, atIndex i ms = ms.filterMap (Option.guard fun m => m.1.index = i) := fun ms =>
    (congrFun List.filterMap_eq_filter ms).symm
  rw [hguard]
  refine (filterMap_flatMap_nodup List.nodup_range (List.mem_range.2 hi) fun j _ hj => ?_).trans ?_
  · rw [← hguard, atIndex_decodeByteMarked, if_neg hj]
  · rw [← hguard, atIndex_decodeByteMarked, if_pos rfl]

/-- A message is for a byte both reports have, and in which they differ. -/
theorem mem_decodeMarked {r : List UInt8} {m : Control × MidiMessage}
    (h : m ∈ (decodeMarked T p r).2) : m.1.index < min p.previousReport.length r.length ∧
      p.previousReport[m.1.index]? ≠ r[m.1.index]? := by
  obtain ⟨i, hi, hm⟩ := List.mem_flatMap.1 h
  obtain ⟨hne, rfl⟩ := mem_decodeByteMarked hm
  have hlt := List.mem_range.1 hi
  refine ⟨hlt, fun heq => hne ?_⟩
  rw [List.getD_eq_getElem?_getD, List.getD_eq_getElem?_getD, heq]

/-- The messages of one report in the three modes: those of Hybrid mode are those of the others, by
ascending index, the byte's message if there is one and then its bits', and only where the reports
differ. -/
structure Parallel (previous report : List UInt8) (byte bit hybrid : List (Control × MidiMessage)) :
    Prop where
  interleaved : Interleaving byte bit hybrid
  blocks : hybrid = (List.range (min previous.length report.length)).flatMap fun i =>
    atIndex i byte ++ atIndex i bit
  single : ∀ i, (atIndex i byte).length ≤ 1
  changed : ∀ m ∈ hybrid, previous[m.1.index]? ≠ report[m.1.index]?

theorem decodeMarked_parallel (T : Tables) (p : S4GenericProtocol) (r : List UInt8) :
    Parallel p.previousReport r (decodeMarked T { p with decodeMode := .byte } r).2
      (decodeMarked T { p with decodeMode := .bit } r).2
      (decodeMarked T { p with decodeMode := .hybrid } r).2 := by
  have hbody : (decodeMarked T { p with decodeMode := .hybrid } r).2 =
      (List.range (min p.previousReport.length r.length)).flatMap fun i =>
        decodeByteMarked T { p with decodeMode := .byte } i (p.previousReport.getD i 0) (r.getD i 0) ++
          decodeByteMarked T { p with decodeMode := .bit } i (p.previousReport.getD i 0)
            (r.getD i 0) :=
    List.flatMap_congr fun i _ => decodeByteMarked_hybrid T p i _ _
  refine ⟨?_, ?_, fun i => ?_, fun m hm => (mem_decodeMarked hm).2⟩
  · rw [hbody]
    exact interleaving_flatMap _ fun i _ => .of_append _ _
  · rw [hbody]
    refine List.flatMap_congr fun i hi => ?_
    have hi' := List.mem_range.1 hi
    rw [atIndex_decodeMarked (p := { p with decodeMode := .byte }) hi',
      atIndex_decodeMarked (p := { p with decodeMode := .bit }) hi']
  · by_cases hi : i < min p.previousReport.length r.length
    · rw [atIndex_decodeMarked (p := { p with decodeMode := .byte }) hi]
      exact decodeByteMarked_byte T p i _ _
    · have hnone : atIndex i (decodeMarked T { p with decodeMode := .byte } r).2 = [] := by
        refine List.filter_eq_nil_iff.2 fun m hm hmi => hi ?_
        rw [← of_decide_eq_true hmi]
        exact (mem_decodeMarked hm).1
      rw [hnone]
      exact Nat.zero_le 1

/-! ## Runs -/

/-- **Hybrid mode is both views**, for any tables: after any reports the three objects have stored the
same report, and of the next one Hybrid mode has the messages of Byte mode and those of Bit mode,
index by index, and no others. -/
theorem hybrid_parallel (T : Tables) (base deadzone : UInt8) (reports : List (List UInt8))
    (report : List UInt8) :
    let p (mode : InputDecodeMode) := (decoder T).final (.new base deadzone mode) reports
    let marked (mode : InputDecodeMode) := (decodeMarked T (p mode) report).2
    (∀ mode, (p mode).previousReport = (p .hybrid).previousReport ∧
      (decodeInput T (p mode) report).2 = (marked mode).map Prod.snd) ∧
    Interleaving (decodeInput T (p .byte) report).2 (decodeInput T (p .bit) report).2
      (decodeInput T (p .hybrid) report).2 ∧
    Parallel (p .hybrid).previousReport report (marked .byte) (marked .bit) (marked .hybrid) := by
  intro p marked
  obtain ⟨q, hp⟩ : ∃ q : S4GenericProtocol, ∀ mode, p mode = { q with decodeMode := mode } :=
    ⟨{ S4GenericProtocol.new base deadzone .hybrid with previousReport := reports.getLastD [] },
      fun _ => final_decoder reports⟩
  have hmarked (mode : InputDecodeMode) :
      (decodeInput T (p mode) report).2 = (marked mode).map Prod.snd :=
    congrArg Prod.snd (map_snd_decodeMarked report)
  have hparallel : Parallel (p .hybrid).previousReport report (marked .byte) (marked .bit)
      (marked .hybrid) := by
    simp only [marked, hp]
    exact decodeMarked_parallel T q report
  refine ⟨fun mode => ⟨?_, hmarked mode⟩, ?_, hparallel⟩
  · rw [hp mode, hp .hybrid]
  · rw [hmarked, hmarked, hmarked]
    exact hparallel.interleaved.map Prod.snd

end Protocol
