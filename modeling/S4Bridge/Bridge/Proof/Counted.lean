import S4Bridge.Bridge.Proof.Undisturbed
import S4Bridge.Gui.Proof.Tables
import S4Bridge.Protocol.Proof.Deadzone

/-!
# The counters under the bridge

In Byte mode the control changes at the address of a byte are as many as there are neighbouring packets
between which the byte's 7-bit value moves beyond the deadzone (`length_ccAt_packets`); frames do not
count, and the tester counts each control change for its address (`published_keys`). So the tester's
counters tell how often each byte has moved, whatever went wrong with the device meanwhile
(`counters_count_moves`).
-/

namespace Bridge

open Device Protocol Gui DeltaFilter

variable {T : Tables} {options : AppOptions} {s : RunBridge}

/-! ## Keys -/

/-- The key a control change counts for. -/
def addressKey (a : Address) : Key := (.cc, (a.1.toNat : Int) + 1, (a.2.toNat : Int))

theorem addressKey_injective : Function.Injective addressKey := by
  rintro ⟨channel, controller⟩ ⟨channel', controller'⟩ h
  simp only [addressKey, Prod.mk.injEq, true_and] at h
  obtain ⟨hchannel, hcontroller⟩ := h
  have hchannels : channel.toNat = channel'.toNat := by omega
  have hcontrollers : controller.toNat = controller'.toNat := by omega
  rw [UInt8.toNat_inj.1 hchannels, UInt8.toNat_inj.1 hcontrollers]

/-- The key of the control changes of byte `i`. -/
def byteKey (base : UInt8) (i : Nat) : Key :=
  (.cc, ((base.toNat + i / 128) % 16 : Nat) + 1, (i % 128 : Nat))

theorem addressKey_rawAddress (base : UInt8) (i : Nat) :
    addressKey (rawAddress base i) = byteKey base i := by
  have hchannel : (base.toNat + i / 128) % 16 % 256 = (base.toNat + i / 128) % 16 := by omega
  have hcontroller : i % 128 % 256 = i % 128 := by omega
  simp only [addressKey, rawAddress, byteKey, UInt8.toNat_ofNat', hchannel, hcontroller]

/-- The key of a message in bytes. -/
def keyOf (mido : Mido) (bytes : List UInt8) : Option Key := Item.key ⟨mido.decode bytes, 0⟩

theorem keyOf_frame (mido : Mido) (packet : List UInt8) :
    keyOf mido (rawSysexFrame packet) = none := by
  rw [keyOf, rawSysexFrame_eq, mido.decode_sysex]
  rfl

theorem keyOf_makeCc (mido : Mido) (channel controller value : UInt8) :
    keyOf mido (makeCc channel controller value).bytes =
      some (addressKey (channel &&& 0x0F, controller &&& 0x7F)) := by
  rw [keyOf, decode_makeCc]
  rfl

/-- As many messages count for an address as give it a value. -/
theorem count_addressKey (mido : Mido) (a : Address) {ms : List MidiMessage}
    (hms : ∀ m ∈ ms, ∃ channel controller value, m = makeCc channel controller value) :
    (ms.filterMap fun m => keyOf mido m.bytes).count (addressKey a) = (ms.filterMap (ccAt a)).length := by
  induction ms with
  | nil => rfl
  | cons m ms ih =>
    obtain ⟨channel, controller, value, rfl⟩ := hms m (.head _)
    have hrest := ih fun m hm => hms m (.tail _ hm)
    rw [List.filterMap_cons, keyOf_makeCc, List.filterMap_cons, ccAt, ccOf_makeCc, Option.bind_some]
    simp only [List.count_cons, hrest]
    by_cases ha : (channel &&& 0x0F, controller &&& 0x7F) = a
    · simp [ha]
    · have hne : addressKey (channel &&& 0x0F, controller &&& 0x7F) ≠ addressKey a :=
        fun h => ha (addressKey_injective h)
      simp [ha, hne]

/-! ## What is published -/

theorem frame_cases {it : Iteration} {frame : List UInt8}
    (h : (iterate T options s it).2.frame = some frame) : ∃ packet, frame = rawSysexFrame packet := by
  cases hraw : options.rawSysex with
  | true =>
    obtain ⟨packet, -, hframe⟩ := frame_of_packet hraw h
    exact ⟨packet, hframe⟩
  | false =>
    by_cases hit : s.ending = none ∧ it.packet ≠ []
    · rw [iterate_packet hit.1 hit.2, publishRawSysex, hraw] at h
      cases h
    · rw [(iterate_quiet options hit).1] at h
      cases h

/-- Where every control change is sent, a run publishes those of its packets. -/
theorem run_ccs {its : List Iteration}
    (h : ∀ it ∈ its, it.packet ≠ [] ∧ ∀ k, it.ccOutcome k = .noErr) (hs : s.ending = none) :
    ((bridge T options).outs s its).map (·.ccs) =
      ((decoder T).outs s.protocol (its.map (·.packet))).map (List.map (·.bytes)) := by
  induction its generalizing s with
  | nil => rfl
  | cons it its ih =>
    obtain ⟨hne, hsent⟩ := h it (.head _)
    have hccs := sendAll_noErr
      (fun m (hm : m ∈ (decodeInput T s.protocol it.packet).2) => mem_decodeInput hm) hsent
    have hstep : (bridge T options).step s it = iterate T options s it := rfl
    have hdecode : (decoder T).step s.protocol it.packet = decodeInput T s.protocol it.packet := rfl
    rw [Machine.outs_cons, hstep, iterate_packet hs hne, hccs]
    refine List.cons_eq_cons.2 ⟨rfl, ?_⟩
    exact ih (fun it hit => h it (.tail _ hit)) rfl

/-- The frames count for no key. -/
theorem published_keys (mido : Mido) (s : RunBridge) (its : List Iteration) :
    (((bridge T options).outs s its).flatMap (·.messages)).filterMap (keyOf mido) =
      (((bridge T options).outs s its).flatMap (·.ccs)).filterMap (keyOf mido) := by
  rw [List.filterMap_flatMap, List.filterMap_flatMap]
  refine List.flatMap_congr fun out hout => ?_
  rw [Published.messages, List.filterMap_append]
  cases hframe : out.frame with
  | none => rfl
  | some frame =>
    obtain ⟨s', it, -, rfl⟩ := Machine.mem_outs _ hout
    obtain ⟨packet, rfl⟩ := frame_cases hframe
    rw [Option.toList_some, List.filterMap_cons_none (keyOf_frame mido packet)]
    rfl

/-! ## Moves -/

/-- How often byte `i` moves beyond the deadzone from one packet to the next. -/
def moves (deadzone : UInt8) (i : Nat) (packets : List (List UInt8)) : Nat :=
  (packets.zip packets.tail).countP fun change =>
    (min deadzone 127).toNat < movement i change.1 change.2

theorem isSome_report (deadzone : UInt8) (i : Nat) (previous packet : List UInt8) :
    (report (movedBeyond deadzone) (sample i previous) (sample i packet)).isSome =
      decide (deadzone.toNat < movement i previous packet) := by
  unfold sample movement
  cases previous[i]? with
  | none => simp
  | some a =>
    cases packet[i]? with
    | none => simp
    | some b =>
      rw [Option.map_some, Option.map_some, report_some, movedBeyond]
      by_cases h : deadzone.toNat < Nat.dist (Bytes.high7 a).toNat (Bytes.high7 b).toNat <;> simp [h]

theorem countP_moves (deadzone : UInt8) (i : Nat) (packets : List (List UInt8)) :
    ((filter (movedBeyond (min deadzone 127))).outs none (packets.map (sample i))).countP
      Option.isSome = moves deadzone i packets := by
  rw [countP_outs]
  cases packets with
  | nil => rfl
  | cons first packets =>
    rw [List.map_cons, List.zip_cons_cons, List.countP_cons, report_none_left]
    have hpairs : (sample i first :: packets.map (sample i)).zip (packets.map (sample i)) =
        ((first :: packets).zip packets).map (Prod.map (sample i) (sample i)) := by
      rw [← List.map_cons, List.zip_map]
    rw [hpairs, List.countP_map]
    refine (Nat.add_zero _).trans (List.countP_congr fun change _ => ?_)
    rw [Function.comp_apply, Prod.map_fst, Prod.map_snd, isSome_report]

theorem length_flatten_toList {α : Type*} (os : List (Option α)) :
    (os.map Option.toList).flatten.length = os.countP Option.isSome := by
  induction os with
  | nil => rfl
  | cons o os ih =>
    rw [List.map_cons, List.flatten_cons, List.length_append, ih, List.countP_cons]
    cases o <;> simp [Nat.add_comm]

/-- The control changes at the address of byte `i`. -/
theorem length_ccAt_packets (base deadzone : UInt8) {i : Nat} (hi : i < 2048)
    {packets : List (List UInt8)} (hlength : ∀ packet ∈ packets, packet.length ≤ 2048) :
    ((messages base deadzone .byte packets).flatten.filterMap (ccAt (rawAddress base i))).length =
      moves deadzone i packets := by
  have hmask : rawAddress base i = rawAddress (base &&& 0x0F) i := (rawAddress_mask base i).symm
  have hfilter : (messages base deadzone .byte packets).map
      (List.filterMap (ccAt (rawAddress (base &&& 0x0F) i))) =
        ((filter (movedBeyond (min deadzone 127))).outs none (packets.map (sample i))).map
          Option.toList := @outs_byteFilter (.new base deadzone .byte) rfl i hi packets hlength
  rw [hmask, List.filterMap_flatten, hfilter, ← countP_moves]
  exact length_flatten_toList _

/-- In Byte mode every message has the key of a byte. -/
theorem keyOf_messages (mido : Mido) {base deadzone : UInt8} {packets : List (List UInt8)}
    (hlength : ∀ packet ∈ packets, packet.length ≤ 2048) {m : MidiMessage}
    (hm : m ∈ (messages base deadzone .byte packets).flatten) :
    ∃ i < 2048, keyOf mido m.bytes = some (byteKey base i) := by
  rw [messages, outs_decoder, ← List.map_flatten] at hm
  obtain ⟨⟨c, m⟩, hmarked, rfl⟩ := List.mem_map.1 hm
  obtain ⟨i, -, ⟨packet, hpacket, hi⟩, v, -, rfl⟩ := mem_outs_byteMode rfl hmarked
  obtain ⟨hchannel, hcontroller⟩ := rawAddress_lt (base &&& 0x0F) i
  refine ⟨i, Nat.lt_of_lt_of_le hi (hlength packet hpacket), ?_⟩
  show keyOf mido (rawCc (base &&& 0x0F) i v).bytes = _
  rw [rawCc, keyOf_makeCc, Bytes.and_0F_of_lt _ hchannel, Bytes.and_7F_of_lt _ hcontroller, Prod.mk.eta,
    rawAddress_mask, addressKey_rawAddress]

/-! ## The whole -/

variable (errorName : Int → String) (usb : UsbOptions)

/-- The keys of what a run of the whole bridge publishes. -/
theorem run_keys (mido : Mido) (options : AppOptions) (start : StartInput) {inputs : List LoopInput}
    (hsent : ∀ x ∈ inputs, ∀ k, x.ccOutcome k = .noErr) :
    let first := runBridgeStart errorName options usb start
    let outs := (hotswap errorName .shipped options usb).outs first inputs
    let calls := reads errorName .shipped options usb first inputs
    let packets := (calls.map (·.handed)).filter (· ≠ [])
    (outs.flatMap (·.published.messages)).filterMap (keyOf mido) =
      (messages options.midiBaseChannel options.inputDeadzone options.inputDecodeMode
        packets).flatten.filterMap fun m => keyOf mido m.bytes := by
  intro first outs calls packets
  have hits : ∀ it ∈ undisturbedRun inputs outs,
      it.packet ≠ [] ∧ ∀ k, it.ccOutcome k = .noErr := by
    intro it hit
    obtain ⟨x, hx, -, -, call, -, hhanded, rfl⟩ := mem_undisturbedRun hit
    exact ⟨hhanded, hsent x hx⟩
  have hpackets : (undisturbedRun inputs outs).map (·.packet) = packets := by
    have hreports : reports (undisturbedRun inputs outs) = packets :=
      reports_undisturbedRun inputs outs (Machine.length_outs ..)
    rw [← hreports, reports, List.filter_eq_self.2]
    intro packet hpacket
    obtain ⟨it, hit, rfl⟩ := List.mem_map.1 hpacket
    exact decide_eq_true (hits it hit).1
  have hstart : (RunBridge.start options).ending = none := rfl
  have hccs : ((bridge .shipped options).outs (.start options) (undisturbedRun inputs outs)).map (·.ccs) =
      _ := run_ccs hits hstart
  rw [run_published, published_keys, List.flatMap_def, hccs, hpackets, ← List.map_flatten,
    List.filterMap_map]
  rfl

/-- **The counters tell how often the bytes have moved**: a tester that has handled all messages of a
run of the bridge in Byte mode, whatever went wrong with the device meanwhile and whatever was done in
the tester, has a row for each byte that has moved beyond the deadzone from one packet to the next,
with how often it has, and no other rows. -/
theorem counters_count_moves (mido : Mido) (base deadzone : UInt8) (rawSysex : Bool)
    (start : StartInput) (inputs : List LoopInput)
    (hsent : ∀ x ∈ inputs, ∀ k, x.ccOutcome k = .noErr) (pyInt : PyInt)
    (events : List (Pump.Event Item TableCall)) :
    let options : AppOptions := ⟨base, deadzone, .byte, rawSysex⟩
    let first := runBridgeStart errorName options usb start
    let outs := (hotswap errorName .shipped options usb).outs first inputs
    let calls := reads errorName .shipped options usb first inputs
    let packets := (calls.map (·.handed)).filter (· ≠ [])
    let tester := (tablePump pyInt).final App.start.armed events
    (∀ packet ∈ packets, packet.length ≤ 2048) → tester.phase ≠ .dead → tester.queue = [] →
      (Pump.arrived events).map (·.msg) =
          (outs.flatMap (·.published.messages)).map mido.decode →
        (∀ i < 2048, ∀ n, (rowId (byteKey base i), byteKey base i, n) ∈
            tester.inner.counterTree.rows ↔ n = moves deadzone i packets ∧ 0 < n) ∧
          ∀ row ∈ tester.inner.counterTree.rows, ∃ i < 2048, row.2.1 = byteKey base i := by
  intro options first outs calls packets tester hlength halive hqueue harrived
  have hcounted : Counted tester.inner ((tablePump pyInt).handled App.start.armed events) :=
    run_counted pyInt halive
  have hhandled := Pump.handled_append_queue halive
  rw [hqueue, List.append_nil] at hhandled
  have hkeys : ((tablePump pyInt).handled App.start.armed events).filterMap Item.key =
      (messages base deadzone .byte packets).flatten.filterMap fun m => keyOf mido m.bytes := by
    rw [hhandled, ← run_keys errorName usb mido options start hsent]
    have hmsgs := congrArg (List.filterMap fun msg => Item.key ⟨msg, 0⟩) harrived
    rw [List.filterMap_map, List.filterMap_map] at hmsgs
    exact hmsgs
  have hccs : ∀ m ∈ (messages base deadzone .byte packets).flatten,
      ∃ channel controller value, m = makeCc channel controller value := by
    intro m hm
    obtain ⟨ms, hms, hm⟩ := List.mem_flatten.1 hm
    obtain ⟨p, packet, -, rfl⟩ := Machine.mem_outs _ hms
    exact mem_decodeInput hm
  rw [hcounted.rows, hkeys]
  refine ⟨fun i hi n => ?_, fun row hrow => ?_⟩
  · rw [Grouping.mem_tally_row rowId_injective, ← addressKey_rawAddress, count_addressKey mido _ hccs,
      length_ccAt_packets base deadzone hi hlength]
  · obtain ⟨key, hkey, rfl⟩ := List.mem_map.1 hrow
    obtain ⟨m, hm, hof⟩ := List.mem_filterMap.1 (List.mem_eraseDups.1 hkey)
    obtain ⟨i, hi, hbyte⟩ := keyOf_messages mido hlength hm
    exact ⟨i, hi, Option.some.inj (hof.symm.trans hbyte)⟩

/-- The tester gets the bytes published and handles them in one loop. -/
def handling (published : List (List UInt8)) : List (Pump.Event Item TableCall) :=
  published.map (fun bytes => .put ⟨Mido.standard.decode bytes, 0⟩) ++
    [.fire, .turn, .turn, .turn, .turn]

/-- The device is unplugged and comes back between two packets. -/
theorem counters_count_moves_replugged :
    let outs := (hotswap (fun _ => "") .shipped ⟨0, 0, .byte, true⟩ s4Usb).outs
      (runBridgeStart (fun _ => "") ⟨0, 0, .byte, true⟩ s4Usb smoothStart)
      [readsTransfer .ok [5], replugged, readsTransfer .ok [9]]
    ("cc:1:0", (.cc, 1, 0), 1) ∈ ((tablePump noInteger).final App.start.armed
      (handling (outs.flatMap (·.published.messages)))).inner.counterTree.rows := by
  intro outs
  have hrun : outs.flatMap (·.published.messages) =
        [rawSysexFrame [5], rawSysexFrame [9], [0xB0, 0, 4]] ∧
      ((outs.filterMap (·.read)).map (·.handed)).filter (· ≠ []) = [[5], [9]] := by
    decide +kernel
  obtain ⟨hpublished, hpackets⟩ := hrun
  have hrows := counters_count_moves (fun _ => "") s4Usb .standard 0 0 true smoothStart
    [readsTransfer .ok [5], replugged, readsTransfer .ok [9]] (by simp [readsTransfer, replugged])
    noInteger (handling (outs.flatMap (·.published.messages)))
  have houts : (hotswap (fun _ => "") .shipped ⟨0, 0, .byte, true⟩ s4Usb).outs
      (runBridgeStart (fun _ => "") ⟨0, 0, .byte, true⟩ s4Usb smoothStart)
      [readsTransfer .ok [5], replugged, readsTransfer .ok [9]] = outs := rfl
  simp only [reads] at hrows
  rw [houts, hpackets, hpublished] at hrows
  rw [hpublished]
  exact ((hrows (by decide) (by decide +kernel) (by decide +kernel) (by decide +kernel)).1 0 (by decide)
    1).2 (by decide)

end Bridge
