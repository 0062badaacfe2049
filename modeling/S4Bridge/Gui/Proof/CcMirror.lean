import S4Bridge.Gui.Proof.Events
import S4Bridge.Protocol.Proof.Tracking

/-!
# The byte map under control changes alone

The control changes of a Byte-mode run with deadzone 0 make each cell the last value of its byte that
the receiver was told, shifted back, and 0 before the first (`ccMirror`).
-/

namespace Gui

open Protocol Bytes Latest DeltaFilter

/-- What the messages of a run write into cell `i`: the last 7-bit value, if there ever was one
other than the first. -/
theorem latest_cellWrite {p : S4GenericProtocol} (hm : p.decodeMode = .byte)
    (hd : p.inputDeadzone = min 0 127) {i : Nat} (hi : i < 2048) {r : List UInt8}
    {rs : List (List UInt8)} (hp : p.previousReport = r)
    (hlen : ∀ r' ∈ r :: rs, i < r'.length ∧ r'.length ≤ 2048) (old : UInt8) :
    latest (cellWrite p.baseChannel i) old ((decoder Tables.shipped).outs p rs).flatten =
      if ∃ r' ∈ rs, high7 (r'.getD i 0) ≠ high7 (r.getD i 0) then
        (rs.getLastD r).getD i 0 &&& 0xFE
      else old := by
  let value (r : List UInt8) := high7 (r.getD i 0)
  have hmoved : ∀ a b, movedBeyond p.inputDeadzone a b = decide (a ≠ b) := by
    rw [hd]; exact movedBeyond_zero
  have hsent : (((decoder Tables.shipped).outs p rs).flatten).filterMap
      (ccAt (rawAddress p.baseChannel i)) =
      (reports (movedBeyond p.inputDeadzone) (value r) (rs.map value)).reduceOption := by
    have h := congrArg List.flatten (outs_reports hm hi hp hlen)
    rw [List.filterMap_flatten, h]
    exact flatten_toList _
  have hwrites : (((decoder Tables.shipped).outs p rs).flatten).filterMap
      (cellWrite p.baseChannel i) =
      ((reports (movedBeyond p.inputDeadzone) (value r) (rs.map value)).reduceOption).map
        fun (v : UInt8) => v <<< 1 := by
    rw [← hsent, List.map_filterMap]
    rfl
  have hex : (∃ b ∈ rs.map value, b ≠ value r) ↔ ∃ r' ∈ rs, value r' ≠ value r := by simp
  rw [latest, hwrites, List.getLast?_map, getLast?_reports hmoved]
  simp only [hex]
  split
  · rw [List.getLastD_map, Option.map_some, Option.getD_some]
    exact high7_shiftLeft _
  · rfl

/-- The messages of a Byte-mode run. -/
theorem mem_messages {base d : UInt8} (hb : base < 16) (rs : List (List UInt8))
    (hrs : ∀ r ∈ rs, r.length ≤ 2048) {p : S4GenericProtocol}
    (hp : p = { S4GenericProtocol.new base d .byte with previousReport := p.previousReport }) :
    ∀ m ∈ ((decoder Tables.shipped).outs p rs).flatten,
      ∃ k < 2048, ∃ v < 128, m = rawCc base k v := by
  intro m hmem
  have hm : p.decodeMode = .byte := by rw [hp]; rfl
  have hbase : p.baseChannel = base := by
    rw [hp]; exact and_0F_of_lt base hb
  rw [outs_decoder, ← List.map_flatten, List.mem_map] at hmem
  obtain ⟨⟨c, m'⟩, hmem, rfl⟩ := hmem
  obtain ⟨k, -, ⟨r, hr, hk⟩, v, hv, rfl⟩ := mem_outs_byteMode hm hmem
  exact ⟨k, Nat.lt_of_lt_of_le hk (hrs r hr), v, hv, by rw [hbase]⟩

/-- The control change of slot `k` touches no cell but the `k`-th. -/
theorem deliver_rawCc_of_ne (mido : Mido) {base : UInt8} (hb : base < 16) {k : Nat} (hk : k < 2048)
    {v : UInt8} (hv : v < 128) (win : ByteMapWindow) :
    ∃ win', deliver mido ⟨some win, base.toNat + 1⟩ [(rawCc base k v).bytes] =
        .ok ⟨some win', base.toNat + 1⟩ ∧
      ∀ j, j ≠ k → win'.data[j]? = win.data[j]? := by
  cases halive : win.alive with
  | true =>
    refine ⟨win.updateByte k ((v.toNat &&& 0x7F) <<< 1) .cc, ?_, fun j hj => ?_⟩
    · rw [deliver_cons, handleEvent_rawCc mido hb hk hv halive]
      rfl
    · exact getElem?_updateByte_of_ne win _ .cc (Ne.symm hj)
  | false =>
    refine ⟨win, ?_, fun _ _ => rfl⟩
    rw [deliver_cons, handleEvent_closed halive]
    rfl

/-- **The byte map mirrors the control changes**, by itself and in the application: after every run of
equally long reports each cell holds the upper seven bits of its byte if they ever changed, and 0
otherwise; and no message touches a cell other than the one of the byte it was sent for. -/
theorem ccMirror (mido : Mido) (base : UInt8) (hb : base < 16) (filter : SourceFilter)
    (hf : filter = .both ∨ filter = .ccOnly) (first : List UInt8) (rs : List (List UInt8))
    (hn : first.length ≤ 2048) (hlen : ∀ r ∈ rs, r.length = first.length) :
    (∃ win, deliver mido ⟨some (.new filter), base.toNat + 1⟩
          ((messages base 0 .byte (first :: rs)).flatten.map (·.bytes)) =
        .ok ⟨some win, base.toNat + 1⟩ ∧
      AppShows mido ⟨some (.new filter), base.toNat + 1⟩
        ((messages base 0 .byte (first :: rs)).flatten.map (·.bytes)) ⟨some win, base.toNat + 1⟩ ∧
      ∀ i < min first.length maxBytes, win.data[i]? =
        if ∃ r ∈ rs, high7 (r.getD i 0) ≠ high7 (first.getD i 0) then
          some ((rs.getLastD first).getD i 0 &&& 0xFE)
        else some 0) ∧
    messages base 0 .byte (first :: rs) =
      ((marker Tables.shipped).outs (.new base 0 .byte) (first :: rs)).map (·.map Prod.snd) ∧
    ∀ c m, (c, m) ∈ ((marker Tables.shipped).outs (.new base 0 .byte) (first :: rs)).flatten →
      ∀ win, ∃ win', deliver mido ⟨some win, base.toNat + 1⟩ [m.bytes] =
          .ok ⟨some win', base.toNat + 1⟩ ∧
        ∀ j, j ≠ c.index → win'.data[j]? = win.data[j]? := by
  let p := { S4GenericProtocol.new base 0 .byte with previousReport := first }
  have hbase : p.baseChannel = base := and_0F_of_lt base hb
  have hall : ∀ r ∈ first :: rs, r.length = first.length := by
    intro r hr
    rcases List.mem_cons.1 hr with rfl | hr
    · rfl
    · exact hlen r hr
  have hflat : (messages base 0 .byte (first :: rs)).flatten =
      ((decoder Tables.shipped).outs p rs).flatten := by
    rw [messages_cons, List.flatten_cons, List.nil_append]
  refine ⟨?_, outs_decoder _ _, fun c m hmem win => ?_⟩
  · have hmsgs := mem_messages (p := p) hb rs (fun r hr => (hlen r hr).trans_le hn) rfl
    have hcc : (ByteMapWindow.new filter).srcVar.accepts .cc = true := by
      rcases hf with rfl | rfl <;> rfl
    obtain ⟨win, hok, -, -, hcells⟩ := deliver_rawCcs mido hb hmsgs rfl hcc
    rw [← hflat] at hok
    refine ⟨win, hok, appShows_of_deliver hok, fun i hi => ?_⟩
    obtain ⟨hi1, hi2⟩ := Nat.lt_min.1 hi
    have hlast := latest_cellWrite (p := p) rfl rfl (Nat.lt_of_lt_of_le hi1 hn) rfl
      (fun r hr => by rw [hall r hr]; exact ⟨hi1, hn⟩) 0
    have hnew : (ByteMapWindow.new filter).data[i]? = some 0 := by
      simp [ByteMapWindow.new, hi2]
    rw [hcells i hi2, hnew, Option.map_some, ← hbase, hlast]
    split <;> rfl
  · obtain ⟨k, rfl, ⟨r, hr, hk⟩, v, hv, rfl⟩ := mem_outs_byteMode rfl hmem
    have hk' : k < 2048 := by rw [hall r hr] at hk; omega
    rw [show (S4GenericProtocol.new base 0 .byte).baseChannel = base from hbase]
    exact deliver_rawCc_of_ne mido hb hk' hv win

theorem ccMirror_two_reports :
    ∃ win, deliver .standard ⟨some (.new .both), 4⟩
        ((messages 3 0 .byte [[0, 4], [9, 4]]).flatten.map (·.bytes)) = .ok ⟨some win, 4⟩ ∧
      win.data[0]? = some 8 ∧ win.data[1]? = some 0 := by
  obtain ⟨win, hok, -, hcells⟩ :=
    (ccMirror .standard 3 (by decide) .both (.inl rfl) [0, 4] [[9, 4]] (by decide) (by decide)).1
  exact ⟨win, hok, (hcells 0 (by decide)).trans (by decide), (hcells 1 (by decide)).trans (by decide)⟩

end Gui
