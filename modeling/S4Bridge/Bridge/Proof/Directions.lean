import S4Bridge.Bridge.Proof.Codec
import S4Bridge.Bridge.Proof.Feedback
import S4Bridge.Gui.Proof.Events

/-!
# The two directions of the SysEx format

The byte after `F0 7D 53 34` tells a raw-USB frame (02) from an LED-out message, but `encode_output`
does not look at it: it accepts every raw-USB frame, and the GUI takes what it accepts for a packet
exactly when the payload is 02 and nibble pairs (`takenAsRaw_iff`).
-/

namespace Bridge

open Gui Device Protocol

/-! ## What the byte map takes for a packet -/

/-- `_route_sysex_to_byte_map` hands a packet to the window. -/
def TakenAsRaw (msg : Message) : Prop :=
  ∃ raw, raw ≠ [] ∧ ∀ win base, win.alive = true →
    routeSysexToByteMap ⟨some win, base⟩ msg = .ok ⟨some (win.updatePacket raw .sysex), base⟩

/-- The application does, whatever else it is doing. -/
def TakenByApp (msg : Message) : Prop :=
  ∃ raw, raw ≠ [] ∧ ∀ (app : App) win base ts, win.alive = true → app.baseChannelVar = some base →
    app.view base = ⟨some win, base⟩ →
    ∃ app', (app.handleEvent ⟨msg, ts⟩).result = .ok app' ∧
      app'.view base = ⟨some (win.updatePacket raw .sysex), base⟩

/-- Of a message that is no control change or note, the application makes what the byte map does. -/
theorem takenAsRaw_iff_app {msg : Message} (hparse : parseMsg msg = none) :
    TakenAsRaw msg ↔ TakenByApp msg := by
  have hroute (view : ByteMapView) : Gui.handleEvent view msg = routeSysexToByteMap view msg := by
    rw [Gui.handleEvent, hparse]
  constructor
  · rintro ⟨raw, hne, htaken⟩
    refine ⟨raw, hne, fun app win base ts halive hbase hwin => ?_⟩
    have hview := handleEvent_view app hbase ⟨msg, ts⟩
    rw [hwin, hroute, htaken win base halive] at hview
    cases hresult : (app.handleEvent ⟨msg, ts⟩).result with
    | error e =>
      rw [hresult] at hview
      cases hview
    | ok app' =>
      rw [hresult] at hview
      exact ⟨app', rfl, Except.ok.inj hview⟩
  · rintro ⟨raw, hne, htaken⟩
    refine ⟨raw, hne, fun win base halive => ?_⟩
    let app : App := { byteMapWin := some ⟨win, none⟩, baseChannelVar := some base }
    have hbase : app.baseChannelVar = some base := rfl
    obtain ⟨app', hresult, hshows⟩ := htaken app win base 0 halive hbase rfl
    have hview := handleEvent_view app hbase ⟨msg, 0⟩
    rw [hresult, hroute] at hview
    exact hview.symm.trans (congrArg Except.ok hshows)

/-- Pairs whose first element is a nibble. -/
def nibblePairs : List UInt8 → Bool
  | [] => true
  | hi :: _ :: rest => decide (hi < 0x10) && nibblePairs rest
  | [_] => false

theorem joined_lt (hi lo : Fin 128) : (hi.val <<< 4) ||| lo.val < 256 ↔ hi.val < 16 := by
  have hmul : hi.val <<< 4 = hi.val * 16 := Nat.shiftLeft_eq _ _
  constructor
  · intro h
    have hle : hi.val <<< 4 ≤ (hi.val <<< 4) ||| lo.val := Nat.left_le_or
    omega
  · intro h
    have hshift : hi.val <<< 4 < 2 ^ 8 := by omega
    exact Nat.or_lt_two_pow hshift (by omega)

theorem nibblePairs_iff (nibbles : List (Fin 128)) :
    nibblePairs (nibbles.map dataByte) = true ↔
      nibbles.length % 2 = 0 ∧ ∀ v ∈ joinNibbles nibbles, v < 256 := by
  match nibbles with
  | [] => simp [nibblePairs, joinNibbles]
  | [_] => simp [nibblePairs]
  | hi :: lo :: rest =>
    have ih := nibblePairs_iff rest
    have hhi : dataByte hi < 0x10 ↔ hi.val < 16 := by
      rw [UInt8.lt_iff_toNat_lt, toNat_dataByte]
      rfl
    have hlen : (hi :: lo :: rest).length % 2 = rest.length % 2 := by
      simp only [List.length_cons]
      omega
    rw [List.map_cons, List.map_cons, nibblePairs, Bool.and_eq_true, decide_eq_true_iff, ih, hhi,
      joinNibbles, hlen, List.forall_mem_cons, joined_lt]
    exact and_left_comm

/-- A packet changes some window. -/
theorem exists_updatePacket_ne {raw : List UInt8} (hne : raw ≠ []) :
    ∃ win : ByteMapWindow, win.alive = true ∧ win.updatePacket raw .sysex ≠ win := by
  obtain ⟨b, rest, rfl⟩ := List.exists_cons_of_ne_nil hne
  refine ⟨⟨Vector.replicate maxBytes (b + 1), .both, true⟩, rfl, fun h => ?_⟩
  have hcell := getElem?_updatePacket ⟨Vector.replicate maxBytes (b + 1), .both, true⟩ (b :: rest)
    .sysex (i := 0) (by decide)
  rw [h] at hcell
  rw [if_pos ⟨rfl, Nat.succ_pos _⟩, Vector.getElem?_eq_getElem (by decide),
    Vector.getElem_replicate] at hcell
  have hb : b + 1 = b := Option.some.inj hcell
  have hval := congrArg UInt8.toNat hb
  rw [UInt8.toNat_add] at hval
  have hlt := b.toNat_lt
  have hone : (1 : UInt8).toNat = 1 := rfl
  omega

theorem not_takenAsRaw_of_ignored {msg : Message}
    (h : ∀ win base, win.alive = true →
      routeSysexToByteMap ⟨some win, base⟩ msg = .ok ⟨some win, base⟩) : ¬ TakenAsRaw msg := by
  rintro ⟨raw, hne, htaken⟩
  obtain ⟨win, halive, hchanged⟩ := exists_updatePacket_ne hne
  have hsame := (htaken win 1 halive).symm.trans (h win 1 halive)
  simp only [Except.ok.injEq, ByteMapView.mk.injEq, Option.some.injEq, and_true] at hsame
  exact hchanged hsame

theorem eq_rawHeader_append {data : List (Fin 128)}
    (h : ¬ (data.length < 5 ∨ data[0]? ≠ some 0x7D ∨ data[1]? ≠ some 0x53 ∨ data[2]? ≠ some 0x34 ∨
      data[3]? ≠ some 0x02)) :
    data = rawHeader ++ data.drop 4 ∧ data.drop 4 ≠ [] := by
  simp only [not_or, not_lt, ne_eq, not_not] at h
  obtain ⟨hlen, h0, h1, h2, h3⟩ := h
  match data with
  | a :: b :: c :: d :: e :: rest =>
    simp only [List.getElem?_cons_zero, List.getElem?_cons_succ, Option.some.injEq] at h0 h1 h2 h3
    subst h0 h1 h2 h3
    exact ⟨rfl, List.cons_ne_nil _ _⟩

theorem pyBytes_eq_ok {values : List Nat} (h : ∀ v ∈ values, v < 256) :
    pyBytes values = .ok (values.map UInt8.ofNat) := if_pos h

/-- **The messages taken for a packet** are those with the header of a raw-USB frame and nibble
pairs after it. -/
theorem takenAsRaw_sysex (data : List (Fin 128)) :
    TakenAsRaw (.sysex data) ↔
      ∃ nibbles, nibbles ≠ [] ∧ data = rawHeader ++ nibbles ∧
        nibblePairs (nibbles.map dataByte) = true := by
  constructor
  · intro htaken
    by_cases hhead : data.length < 5 ∨ data[0]? ≠ some 0x7D ∨ data[1]? ≠ some 0x53 ∨
        data[2]? ≠ some 0x34 ∨ data[3]? ≠ some 0x02
    · refine absurd htaken (not_takenAsRaw_of_ignored fun win base halive => ?_)
      simp only [routeSysexToByteMap, halive, Bool.not_true, Bool.false_eq_true, if_false,
        if_pos hhead]
    by_cases hodd : (data.drop 4).length % 2 ≠ 0
    · refine absurd htaken (not_takenAsRaw_of_ignored fun win base halive => ?_)
      simp only [routeSysexToByteMap, halive, Bool.not_true, Bool.false_eq_true, if_false,
        if_neg hhead, if_pos hodd]
    obtain ⟨hdata, hne⟩ := eq_rawHeader_append hhead
    refine ⟨data.drop 4, hne, hdata, (nibblePairs_iff _).2 ⟨not_not.1 hodd, ?_⟩⟩
    by_contra hbig
    obtain ⟨raw, -, hok⟩ := htaken
    have herror := hok (.new .both) 1 rfl
    have hraise : pyBytes (joinNibbles (data.drop 4)) =
        .error (.valueError "bytes must be in range(0, 256)") := if_neg hbig
    simp only [routeSysexToByteMap, ByteMapWindow.new, Bool.not_true, Bool.false_eq_true, if_false,
      if_neg hhead, if_neg hodd, hraise] at herror
    cases herror
  · rintro ⟨nibbles, hne, rfl, hpairs⟩
    obtain ⟨heven, hlt⟩ := (nibblePairs_iff nibbles).1 hpairs
    refine ⟨(joinNibbles nibbles).map UInt8.ofNat, ?_, fun win base halive =>
      route_rawHeader hne heven (pyBytes_eq_ok hlt) halive base⟩
    rcases nibbles with - | ⟨hi, - | ⟨lo, rest⟩⟩
    · exact absurd rfl hne
    · cases hpairs
    · exact List.cons_ne_nil _ _

/-! ## What `encode_output` makes of the frames -/

theorem rawSysexFrame_eq_wrapOutput (packet : List UInt8) :
    rawSysexFrame packet = wrapOutput (0x02 :: nibbles packet) := rfl

/-- The payload of an envelope of data bytes. -/
theorem data_of_wrapOutput {data : List (Fin 128)} {payload : List UInt8}
    (h : 0xF0 :: data.map dataByte ++ [0xF7] = wrapOutput payload) :
    ∃ rest, data = [0x7D, 0x53, 0x34].map dataBits ++ rest ∧ payload = rest.map dataByte := by
  have hdata : data.map dataByte = [0x7D, 0x53, 0x34] ++ payload :=
    List.append_cancel_right (List.cons.inj h).2
  have hbits := congrArg (List.map dataBits) hdata
  have hid : dataBits ∘ dataByte = id := funext dataBits_dataByte
  rw [List.map_map, hid, List.map_id, List.map_append] at hbits
  refine ⟨payload.map dataBits, hbits, ?_⟩
  rw [hbits, List.map_append] at hdata
  exact (List.append_cancel_left hdata).symm

theorem takenAsRaw_envelope (rest : List (Fin 128)) :
    TakenAsRaw (.sysex ([0x7D, 0x53, 0x34].map dataBits ++ rest)) ↔
      ∃ nibbles, nibbles ≠ [] ∧ rest.map dataByte = 0x02 :: nibbles ∧
        nibblePairs nibbles = true := by
  rw [takenAsRaw_sysex]
  constructor
  · rintro ⟨nibbles, hne, hdata, hpairs⟩
    have hrest : rest = dataBits 0x02 :: nibbles := List.append_cancel_left hdata
    refine ⟨nibbles.map dataByte, fun h => hne (List.map_eq_nil_iff.1 h), ?_, hpairs⟩
    rw [hrest]
    rfl
  · rintro ⟨nibbles, hne, hrest, hpairs⟩
    obtain ⟨type, tail, rfl, htype, rfl⟩ := List.map_eq_cons_iff.1 hrest
    refine ⟨tail, fun h => hne (by rw [h]; rfl), ?_, hpairs⟩
    rw [← dataBits_dataByte type, htype]
    rfl

variable (errorName : Int → String) (options : UsbOptions) {device : UsbDevice}

/-- **The directions are confused**: every raw-USB frame is accepted and written back to the device,
and an accepted message is taken for a raw packet, by the byte map and by the application, unless its
payload is something else than 02 and nibble pairs. -/
theorem directions_iff (hopen : device.handle ≠ none) (hconn : device.disconnected = false)
    (hout : options.outputEndpoint ≠ 0) (mido : Mido) (s : FeedbackState) :
    (∀ packet env,
      (encodeOutput s.protocol (rawSysexFrame packet)).2 = some (0x02 :: nibbles packet) ∧
      (feedback errorName options device s (rawSysexFrame packet) env).1.attempts =
        s.attempts ++ [0x02 :: nibbles packet] ∧
      (writeOutput errorName options device (0x02 :: nibbles packet) env.transfer).1 =
        some (0x02 :: nibbles packet)) ∧
    ∀ (data : List (Fin 128)) (payload : List UInt8),
      (encodeOutput s.protocol (0xF0 :: data.map dataByte ++ [0xF7])).2 = some payload →
      (¬ TakenAsRaw (mido.decode (0xF0 :: data.map dataByte ++ [0xF7])) ↔
        ∀ nibbles, payload = 0x02 :: nibbles → nibbles = [] ∨ nibblePairs nibbles = false) ∧
      (TakenAsRaw (mido.decode (0xF0 :: data.map dataByte ++ [0xF7])) ↔
        TakenByApp (mido.decode (0xF0 :: data.map dataByte ++ [0xF7]))) := by
  refine ⟨fun packet env => ?_, fun data payload haccepted => ⟨?_, ?_⟩⟩
  · have hsome := (encodeOutput_eq_some s.protocol (rawSysexFrame packet) _).2
      (rawSysexFrame_eq_wrapOutput packet)
    refine ⟨hsome, ?_, ?_⟩
    · rw [feedback_open errorName options hopen hconn, hsome]
      rfl
    · exact writeOutput_open errorName options hopen hout _ _
  · obtain ⟨rest, hdata, rfl⟩ := data_of_wrapOutput ((encodeOutput_eq_some _ _ _).1 haccepted)
    rw [mido.decode_sysex, hdata, takenAsRaw_envelope]
    constructor
    · intro hnot nibbles hpayload
      by_contra hpairs
      rw [not_or, Bool.not_eq_false] at hpairs
      exact hnot ⟨nibbles, hpairs.1, hpayload, hpairs.2⟩
    · rintro hall ⟨nibbles, hne, hpayload, hpairs⟩
      rcases hall nibbles hpayload with h | h
      · exact hne h
      · rw [hpairs] at h
        cases h
  · exact takenAsRaw_iff_app (by rw [mido.decode_sysex]; rfl)

/-- The frame of the packet `12`, and an LED-out message. -/
theorem directions_iff_echo :
    (encodeOutput (.new 0 0 .byte) (rawSysexFrame [0x12])).2 = some [0x02, 0x01, 0x02] ∧
      ¬ TakenAsRaw (Mido.standard.decode [0xF0, 0x7D, 0x53, 0x34, 0x01, 0x02, 0xF7]) := by
  obtain ⟨hecho, htaken⟩ := directions_iff (fun _ => "") { outputEndpoint := 8 }
    (by decide : ({ handle := some 0 } : UsbDevice).handle ≠ none) rfl (by decide) .standard
    ⟨.new 0 0 .byte, []⟩
  refine ⟨(hecho [0x12] ⟨false, ⟨.ok, []⟩⟩).1, ?_⟩
  refine (htaken ([0x7D, 0x53, 0x34, 0x01, 0x02].map dataBits) [0x01, 0x02] (by decide)).1.2 ?_
  intro nibbles hpayload
  cases hpayload

/-- Neither half holds, at the frame of the packet `12`. -/
theorem not_directions_echo :
    (¬ ∀ packet, (encodeOutput (.new 0 0 .byte) (rawSysexFrame packet)).2 = none) ∧
      ¬ ∀ message payload, (encodeOutput (.new 0 0 .byte) message).2 = some payload →
        ¬ TakenAsRaw (Mido.standard.decode message) := by
  refine ⟨fun h => absurd (h [0x12]) (by decide), fun h => ?_⟩
  refine h (rawSysexFrame [0x12]) [0x02, 0x01, 0x02] (by decide)
    ⟨[0x12], List.cons_ne_nil _ _, fun win base halive => ?_⟩
  exact route_rawSysexFrame .standard (List.cons_ne_nil _ _) halive base

end Bridge
