import Mathlib.Data.List.Flatten
import S4Bridge.Protocol.Proof.Deadzone

/-!
# A larger deadzone

Of two objects that differ in their deadzone only, the one with the larger emits some of the other's
messages, in their order, and the same bit messages (`deadzone_monotone`). The fallback of a mapped
byte adds nothing: where it emits beyond the larger deadzone, the entry's own deadzone is the same
for both, and the other falls back as well.
-/

namespace Protocol

open Bytes

variable {T : Tables} {p q : S4GenericProtocol}

/-- `q` is `p` with a deadzone that is not smaller. -/
structure Quieter (p q : S4GenericProtocol) : Prop where
  baseChannel : q.baseChannel = p.baseChannel
  decodeMode : q.decodeMode = p.decodeMode
  previousReport : q.previousReport = p.previousReport
  inputDeadzone : p.inputDeadzone ≤ q.inputDeadzone

/-! ## One byte -/

/-- An entry's deadzone is its own, the same for both objects, or the object's. -/
theorem entryDeadzone_cases (p q : S4GenericProtocol) (entry : ByteMapEntry) :
    entryDeadzone q entry = entryDeadzone p entry ∨
      entryDeadzone p entry = p.inputDeadzone ∧ entryDeadzone q entry = q.inputDeadzone := by
  simp only [← UInt8.toNat_inj, toNat_entryDeadzone, effectiveDeadzone]
  split
  · exact .inl rfl
  · exact .inr ⟨rfl, rfl⟩

theorem Quieter.byteView (h : Quieter p q) (i : Nat) (d v : UInt8) :
    (byteView T q i d v).Sublist (byteView T p i d v) := by
  have hle {x : UInt8} (hx : x > q.inputDeadzone) : x > p.inputDeadzone :=
    UInt8.lt_of_le_of_lt h.inputDeadzone hx
  cases hentry : findByteMapping T i with
  | none =>
    rw [byteView_unmapped hentry, byteView_unmapped hentry, h.baseChannel]
    by_cases hd : d > q.inputDeadzone
    · rw [if_pos hd, if_pos (hle hd)]
    · rw [if_neg hd]
      exact List.nil_sublist _
  | some entry =>
    rw [byteView_mapped hentry, byteView_mapped hentry, h.baseChannel]
    rcases entryDeadzone_cases p q entry with hsame | ⟨hp, hq⟩
    · rw [hsame]
      by_cases hd : d > entryDeadzone p entry
      · rw [if_pos hd, if_pos hd]
      · rw [if_neg hd, if_neg hd]
        by_cases hd' : d > q.inputDeadzone
        · rw [if_pos hd', if_pos (hle hd')]
        · rw [if_neg hd']
          exact List.nil_sublist _
    · rw [hp, hq]
      by_cases hd : d > q.inputDeadzone
      · rw [if_pos hd, if_pos (hle hd)]
      · rw [if_neg hd, if_neg hd]
        exact List.nil_sublist _

theorem Quieter.bitView (h : Quieter p q) (i : Nat) (diff current : UInt8) (b : Fin 8) :
    bitView T q i diff current b = bitView T p i diff current b := by
  unfold Protocol.bitView
  rw [h.baseChannel]

theorem Quieter.decodeByteMarked (h : Quieter p q) (i : Nat) (a b : UInt8) :
    (decodeByteMarked T q i a b).Sublist (decodeByteMarked T p i a b) := by
  unfold Protocol.decodeByteMarked
  simp only [h.decodeMode, h.bitView]
  split
  · exact List.nil_sublist _
  · refine List.Sublist.append ?_ (List.Sublist.refl _)
    split
    · exact (h.byteView i _ _).map _
    · exact List.nil_sublist _

/-! ## The bit view -/

def Control.isBit : Control → Bool
  | .byte _ => false
  | .bit _ _ => true

/-- The messages of the bit view. -/
def bitMessages (ms : List (Control × MidiMessage)) : List (Control × MidiMessage) :=
  ms.filter fun m => m.1.isBit

theorem Quieter.bitMessages (h : Quieter p q) (i : Nat) (a b : UInt8) :
    bitMessages (Protocol.decodeByteMarked T q i a b) =
      bitMessages (Protocol.decodeByteMarked T p i a b) := by
  have hbytes (ms : List MidiMessage) :
      (ms.map (Prod.mk (Control.byte i))).filter (fun m => m.1.isBit) = [] := by
    refine List.filter_eq_nil_iff.2 fun m hm => ?_
    obtain ⟨_, -, rfl⟩ := List.mem_map.1 hm
    exact Bool.false_ne_true
  unfold Protocol.decodeByteMarked Protocol.bitMessages
  simp only [h.decodeMode, h.bitView]
  split
  · rfl
  · cases p.decodeMode.hasByte
    · rfl
    · simp only [if_true, List.filter_append, hbytes]

/-! ## Runs -/

theorem Quieter.decodeMarked (h : Quieter p q) (r : List UInt8) :
    (decodeMarked T q r).2.Sublist (decodeMarked T p r).2 ∧
      Protocol.bitMessages (decodeMarked T q r).2 = Protocol.bitMessages (decodeMarked T p r).2 := by
  unfold Protocol.decodeMarked
  rw [h.previousReport]
  refine ⟨List.Sublist.flatMap_right _ fun i _ => h.decodeByteMarked i _ _, ?_⟩
  unfold Protocol.bitMessages
  rw [List.filter_flatMap, List.filter_flatMap]
  exact List.flatMap_congr fun i _ => h.bitMessages i _ _

/-- **Raising the deadzone only removes messages**, for any tables: after any reports, what the next
one makes the object with the larger deadzone emit is a subsequence of what the other emits, with
the same messages of the bit view, and the stored reports are equal. -/
theorem deadzone_monotone (T : Tables) (base : UInt8) (mode : InputDecodeMode) {d1 d2 : UInt8}
    (h : d1 ≤ d2) (reports : List (List UInt8)) (report : List UInt8) :
    let p (d : UInt8) := (decoder T).final (.new base d mode) reports
    let marked (d : UInt8) := (decodeMarked T (p d) report).2
    (∀ d, (decodeInput T (p d) report).2 = (marked d).map Prod.snd) ∧
    (decodeInput T (p d2) report).2.Sublist (decodeInput T (p d1) report).2 ∧
    bitMessages (marked d2) = bitMessages (marked d1) ∧
    (p d2).previousReport = (p d1).previousReport ∧
    (decodeInput T (p d2) report).1.previousReport =
      (decodeInput T (p d1) report).1.previousReport := by
  intro p marked
  have hp (d : UInt8) : p d = { S4GenericProtocol.new base d mode with
      previousReport := reports.getLastD [] } := final_decoder reports
  have hquieter : Quieter (p d1) (p d2) := by
    rw [hp, hp]
    refine ⟨rfl, rfl, rfl, ?_⟩
    show min d1 127 ≤ min d2 127
    exact Std.le_min_iff.2 ⟨UInt8.le_trans Std.min_le_left h, Std.min_le_right⟩
  have hmarked (d : UInt8) : (decodeInput T (p d) report).2 = (marked d).map Prod.snd :=
    congrArg Prod.snd (map_snd_decodeMarked report)
  obtain ⟨hsub, hbits⟩ := hquieter.decodeMarked (T := T) report
  refine ⟨hmarked, ?_, hbits, hquieter.previousReport, ?_⟩
  · rw [hmarked, hmarked]
    exact hsub.map Prod.snd
  · rw [decodeInput_state, decodeInput_state]

/-- A movement of 4 with the deadzones 2 and 5. -/
theorem deadzone_monotone_knob :
    let sent (d : UInt8) :=
      (decodeInput .shipped ((decoder .shipped).final (.new 0 d .byte) [[0]]) [8]).2
    sent 5 = [] ∧ sent 2 = [makeCc 0 0 4] ∧ (sent 5).Sublist (sent 2) :=
  ⟨by decide, by decide,
    (deadzone_monotone .shipped 0 .byte (by decide : (2 : UInt8) ≤ 5) [[0]] [8]).2.1⟩

end Protocol
