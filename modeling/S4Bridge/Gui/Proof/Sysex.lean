import S4Bridge.Bridge.Proof.Directions
import S4Bridge.Gui.Proof.Window

/-!
# The raw-USB SysEx decoder

`routeSysexToByteMap` takes a tuple with the header of a raw-USB frame and pairs of values after it,
whatever the values.

* `nibbleData_packetOf`: values below 16 are the nibbles of the bytes they make.
* `routeSysex_raised`: a pair that makes no byte raises.
* `decodes_iff`: when the decoder does what is asked of it.
-/

namespace Gui

open Bridge

/-! ## Pairs of values -/

/-- The bytes the pairs make. -/
def packetOf (nibbles : List (Fin 128)) : List UInt8 := (joinNibbles nibbles).map UInt8.ofNat

/-- The first values of the pairs. -/
def highs : List (Fin 128) → List (Fin 128)
  | hi :: _ :: rest => hi :: highs rest
  | _ => []

/-- What the decoder takes for a packet: the header and pairs of values. -/
def Framed (data nibbles : List (Fin 128)) : Prop :=
  nibbles ≠ [] ∧ nibbles.length % 2 = 0 ∧ data = rawHeader ++ nibbles

theorem joinNibbles_lt (nibbles : List (Fin 128)) :
    (∀ v ∈ joinNibbles nibbles, v < 256) ↔ ∀ hi ∈ highs nibbles, hi.val < 16 := by
  match nibbles with
  | [] => simp [joinNibbles, highs]
  | [_] => simp [joinNibbles, highs]
  | hi :: lo :: rest =>
    rw [joinNibbles, highs, List.forall_mem_cons, List.forall_mem_cons, joined_lt,
      joinNibbles_lt rest]

theorem nibbleData_lt {packet : List UInt8} {x : Fin 128} (h : x ∈ nibbleData packet) :
    x.val < 16 := by
  obtain ⟨b, -, h⟩ := List.mem_flatMap.1 h
  have hb := b.toNat_lt
  have hhi : (b >>> 4).toNat = b.toNat >>> 4 := Bytes.toNat_shiftRight b (k := 4) (by decide)
  rcases List.mem_pair.1 h with rfl | rfl
  · rw [toNat_dataBits, hhi, Nat.shiftRight_eq_div_pow]
    omega
  · rw [toNat_dataBits, Bytes.toNat_and_0F]
    omega

/-- The two nibbles of a pair's byte. -/
theorem nibbles_joined {hi lo : Fin 128} (hhi : hi.val < 16) (hlo : lo.val < 16) :
    dataBits (UInt8.ofNat ((hi.val <<< 4) ||| lo.val) >>> 4) = hi ∧
      dataBits (UInt8.ofNat ((hi.val <<< 4) ||| lo.val) &&& 0x0F) = lo := by
  have hlt : lo.val < 2 ^ 4 := hlo
  have hvalue : (hi.val <<< 4) ||| lo.val = hi.val * 16 + lo.val := by
    rw [← Nat.shiftLeft_add_eq_or_of_lt hlt, Nat.shiftLeft_eq]
  have hbyte : (UInt8.ofNat ((hi.val <<< 4) ||| lo.val)).toNat = hi.val * 16 + lo.val := by
    rw [hvalue, UInt8.toNat_ofNat']
    omega
  have hshift : (UInt8.ofNat ((hi.val <<< 4) ||| lo.val) >>> 4).toNat =
      (hi.val * 16 + lo.val) >>> 4 := by
    rw [← hbyte]
    exact Bytes.toNat_shiftRight _ (k := 4) (by decide)
  constructor
  · apply Fin.ext
    rw [toNat_dataBits, hshift, Nat.shiftRight_eq_div_pow]
    omega
  · apply Fin.ext
    rw [toNat_dataBits, Bytes.toNat_and_0F, hbyte]
    omega

/-- **Values below 16** are the nibbles of the bytes they make. -/
theorem nibbleData_packetOf {nibbles : List (Fin 128)} (heven : nibbles.length % 2 = 0)
    (hsmall : ∀ x ∈ nibbles, x.val < 16) : nibbleData (packetOf nibbles) = nibbles := by
  match nibbles with
  | [] => rfl
  | [_] => cases heven
  | hi :: lo :: rest =>
    obtain ⟨hhi, hsmall⟩ := List.forall_mem_cons.1 hsmall
    obtain ⟨hlo, hsmall⟩ := List.forall_mem_cons.1 hsmall
    obtain ⟨h1, h2⟩ := nibbles_joined hhi hlo
    have hrest : nibbleData (packetOf rest) = rest :=
      nibbleData_packetOf (by simp only [List.length_cons] at heven; omega) hsmall
    have hcons : nibbleData (packetOf (hi :: lo :: rest)) =
        dataBits (UInt8.ofNat ((hi.val <<< 4) ||| lo.val) >>> 4) ::
          dataBits (UInt8.ofNat ((hi.val <<< 4) ||| lo.val) &&& 0x0F) ::
            nibbleData (packetOf rest) := rfl
    rw [hcons, h1, h2, hrest]

/-- Only one packet has the values as its nibbles. -/
theorem packetOf_nibbleData (packet : List UInt8) : packetOf (nibbleData packet) = packet := by
  have hjoin : joinNibbles (nibbleData packet) = packet.map UInt8.toNat :=
    joinNibbles_frameData packet
  rw [packetOf, hjoin, List.map_map]
  simp [Function.comp_def]

/-! ## The decoder -/

section
variable {app : App} {win : MapWindow} {data nibbles : List (Fin 128)}

/-- Other tuples are ignored. -/
theorem routeSysex_unframed (hwin : app.byteMapWin = some win) (hno : ∀ nibbles, ¬ Framed data nibbles) :
    app.routeSysexToByteMap (.sysex data) = .ok app := by
  unfold App.routeSysexToByteMap
  simp only [hwin]
  split
  · rfl
  · split
    · rfl
    · rename_i hhead
      obtain ⟨hdata, hne⟩ := eq_rawHeader_append hhead
      split
      · rfl
      · rename_i heven
        exact absurd ⟨hne, not_not.1 heven, hdata⟩ (hno (data.drop 4))

theorem Framed.goodHeader (hframed : Framed data nibbles) :
    ¬ (data.length < 5 ∨ data[0]? ≠ some 0x7D ∨ data[1]? ≠ some 0x53 ∨ data[2]? ≠ some 0x34 ∨
      data[3]? ≠ some 0x02) ∧ data.drop 4 = nibbles ∧ ¬ nibbles.length % 2 ≠ 0 := by
  obtain ⟨hne, heven, rfl⟩ := hframed
  exact ⟨not_badHeader hne, rfl, fun h => h heven⟩

/-- Pairs after the header make a packet. -/
theorem routeSysex_framed (hwin : app.byteMapWin = some win) (halive : win.alive = true)
    (hframed : Framed data nibbles) (hhigh : ∀ hi ∈ highs nibbles, hi.val < 16) :
    app.routeSysexToByteMap (.sysex data) =
      (win.updatePacket app.baseChannelVar (packetOf nibbles) .sysex).lift
        fun win => { app with byteMapWin := some win } := by
  obtain ⟨hhead, hdrop, hodd⟩ := hframed.goodHeader
  have hbytes : pyBytes (joinNibbles nibbles) = .ok (packetOf nibbles) :=
    pyBytes_eq_ok ((joinNibbles_lt nibbles).2 hhigh)
  unfold App.routeSysexToByteMap
  simp only [hwin, halive, Bool.not_true, Bool.false_eq_true, if_false, hhead, hdrop, hodd, hbytes]

/-- A pair that makes no byte raises. -/
theorem routeSysex_overflow (hwin : app.byteMapWin = some win) (halive : win.alive = true)
    (hframed : Framed data nibbles) (hhigh : ¬ ∀ hi ∈ highs nibbles, hi.val < 16) :
    app.routeSysexToByteMap (.sysex data) =
      .raise app (.valueError "bytes must be in range(0, 256)") := by
  obtain ⟨hhead, hdrop, hodd⟩ := hframed.goodHeader
  have hbytes : pyBytes (joinNibbles nibbles) =
      .error (.valueError "bytes must be in range(0, 256)") :=
    if_neg fun h => hhigh ((joinNibbles_lt nibbles).1 h)
  unfold App.routeSysexToByteMap
  simp only [hwin, halive, Bool.not_true, Bool.false_eq_true, if_false, hhead, hdrop, hodd, hbytes]

/-- **When the decoder raises**: at a pair that makes no byte, and where the bit panel is refreshed
without a base channel. -/
theorem routeSysex_raised (hwin : app.byteMapWin = some win) (halive : win.alive = true) :
    (app.routeSysexToByteMap (.sysex data)).raised = none ↔ ∀ nibbles, Framed data nibbles →
      (∀ hi ∈ highs nibbles, hi.val < 16) ∧
        (app.baseChannelVar = none → ¬ win.ChangesSelected (packetOf nibbles) .sysex) := by
  by_cases hframed : ∃ nibbles, Framed data nibbles
  · obtain ⟨nibbles, hframed⟩ := hframed
    have hone : ∀ nibbles', Framed data nibbles' → nibbles' = nibbles := fun nibbles' h =>
      List.append_cancel_left (h.2.2.symm.trans hframed.2.2)
    have hall (p : List (Fin 128) → Prop) : (∀ nibbles', Framed data nibbles' → p nibbles') ↔ p nibbles :=
      ⟨fun h => h nibbles hframed, fun h nibbles' h' => hone nibbles' h' ▸ h⟩
    rw [hall]
    by_cases hhigh : ∀ hi ∈ highs nibbles, hi.val < 16
    · rw [routeSysex_framed hwin halive hframed hhigh, Effect.lift_raised,
        MapWindow.updatePacket_raised]
      exact (and_iff_right hhigh).symm
    · rw [routeSysex_overflow hwin halive hframed hhigh]
      exact ⟨fun h => (by cases h), fun h => absurd h.1 hhigh⟩
  · rw [routeSysex_unframed hwin (not_exists.1 hframed)]
    exact ⟨fun _ nibbles h => absurd ⟨nibbles, h⟩ hframed, fun _ => rfl⟩

/-! ## What is asked of it -/

/-- Nothing is raised, and the grid is left alone or overwritten by a packet whose raw-USB frame holds
the tuple. -/
def Decodes (app : App) (win : MapWindow) (data : List (Fin 128)) : Prop :=
  (app.routeSysexToByteMap (.sysex data)).raised = none ∧
    ((app.routeSysexToByteMap (.sysex data)).state = app ∨
      ∃ packet, rawSysexFrame packet = 0xF0 :: data.map dataByte ++ [0xF7] ∧
        (app.routeSysexToByteMap (.sysex data)).state = { app with
          byteMapWin := some { win with
            toByteMapWindow := win.toByteMapWindow.updatePacket packet .sysex } })

theorem frame_iff {packet : List UInt8} :
    rawSysexFrame packet = 0xF0 :: data.map dataByte ++ [0xF7] ↔ data = frameData packet := by
  constructor
  · intro h
    rw [rawSysexFrame_eq] at h
    have hmap := List.append_cancel_right (List.cons.inj h).2
    exact (List.map_injective_iff.2 (Function.LeftInverse.injective dataBits_dataByte) hmap).symm
  · rintro rfl
    exact rawSysexFrame_eq packet

/-- A tuple is a frame's if and only if its values are nibbles. -/
theorem framed_image (hframed : Framed data nibbles) {packet : List UInt8} :
    data = frameData packet ↔ (∀ x ∈ nibbles, x.val < 16) ∧ packet = packetOf nibbles := by
  obtain ⟨-, heven, rfl⟩ := hframed
  constructor
  · intro h
    obtain rfl : nibbles = nibbleData packet := List.append_cancel_left h
    exact ⟨fun x hx => nibbleData_lt hx, (packetOf_nibbleData packet).symm⟩
  · rintro ⟨hsmall, rfl⟩
    rw [frameData, nibbleData_packetOf heven hsmall]
    rfl

/-- **The raw-USB SysEx decoder**: it does what is asked of it but for a tuple that has the header and
pairs of values of which one is not a nibble (unless the bytes they make are on the grid
already), or that changes the selected cell while the base channel's field holds no number. -/
theorem decodes_iff (hwin : app.byteMapWin = some win) (halive : win.alive = true) :
    Decodes app win data ↔ ∀ nibbles, Framed data nibbles →
      (∀ hi ∈ highs nibbles, hi.val < 16) ∧
        (win.Shows (packetOf nibbles) .sysex ∨
          (∀ x ∈ nibbles, x.val < 16) ∧
            (app.baseChannelVar = none → ¬ win.ChangesSelected (packetOf nibbles) .sysex)) := by
  have hraised : (app.routeSysexToByteMap (.sysex data)).raised = none ↔ _ :=
    routeSysex_raised hwin halive
  constructor
  · rintro ⟨hnone, hstate⟩ nibbles hframed
    obtain ⟨hhigh, hpanel⟩ := hraised.1 hnone nibbles hframed
    refine ⟨hhigh, ?_⟩
    have hroute := routeSysex_framed hwin halive hframed hhigh
    have hwindow := MapWindow.updatePacket_window app.baseChannelVar win
      ((MapWindow.updatePacket_raised app.baseChannelVar win (packetOf nibbles) .sysex).2 hpanel)
    rcases hstate with hsame | ⟨packet, hframe, -⟩
    · refine .inl ((win.updatePacket_eq_self_iff _ _).1 ?_)
      rw [hroute, Effect.lift_state, hwindow] at hsame
      have hwins := congrArg App.byteMapWin hsame
      rw [hwin] at hwins
      exact congrArg MapWindow.toByteMapWindow (Option.some.inj hwins)
    · exact .inr ⟨((framed_image hframed).1 (frame_iff.1 hframe)).1, hpanel⟩
  · intro h
    have hnone : (app.routeSysexToByteMap (.sysex data)).raised = none :=
      hraised.2 fun nibbles hframed => ⟨(h nibbles hframed).1,
        (h nibbles hframed).2.elim (fun hshows _ => hshows.not_changesSelected) (·.2)⟩
    refine ⟨hnone, ?_⟩
    by_cases hframed : ∃ nibbles, Framed data nibbles
    · obtain ⟨nibbles, hframed⟩ := hframed
      obtain ⟨hhigh, hcase⟩ := h nibbles hframed
      have hroute := routeSysex_framed hwin halive hframed hhigh
      rw [hroute, Effect.lift_raised] at hnone
      rw [hroute, Effect.lift_state, MapWindow.updatePacket_window app.baseChannelVar win hnone]
      rcases hcase with hshows | ⟨hsmall, -⟩
      · refine .inl ?_
        rw [(win.updatePacket_eq_self_iff _ _).2 hshows]
        obtain ⟨logTree, counts, counterTree, panel, outPort, byteMapWin, baseChannelVar⟩ := app
        obtain rfl : byteMapWin = some win := hwin
        rfl
      · exact .inr ⟨packetOf nibbles, frame_iff.2 ((framed_image hframed).2 ⟨hsmall, rfl⟩), rfl⟩
    · rw [routeSysex_unframed hwin (not_exists.1 hframed)]
      exact .inl rfl

end

/-- The byte map as it opens. -/
def openedMap : App := { byteMapWin := some .new }

/-- The frame of the packet 0x1F. -/
theorem decodes_iff_packet : Decodes openedMap .new [0x7D, 0x53, 0x34, 0x02, 0x01, 0x0F] ↔
    ∀ nibbles, Framed [0x7D, 0x53, 0x34, 0x02, 0x01, 0x0F] nibbles →
      (∀ hi ∈ highs nibbles, hi.val < 16) ∧
        (MapWindow.new.Shows (packetOf nibbles) .sysex ∨
          (∀ x ∈ nibbles, x.val < 16) ∧ (openedMap.baseChannelVar = none →
            ¬ MapWindow.new.ChangesSelected (packetOf nibbles) .sysex)) :=
  decodes_iff rfl rfl

/-- A first value of 0x10 makes 0x100, which is no byte. -/
theorem not_decodes_pair : ¬ Decodes openedMap .new [0x7D, 0x53, 0x34, 0x02, 0x10, 0x00] := by
  rintro ⟨hnone, -⟩
  cases hnone

end Gui
