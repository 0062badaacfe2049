import S4Bridge.Bridge.Proof.Codec
import S4Bridge.Gui.Proof.Events
import S4Bridge.Lib.ChangeFilter

/-!
# What the loop publishes

* `iterate_frame`, `mem_ccs`: the frame and the control changes of one iteration.
* `frames_published`: over a run the frames are those a change publisher publishes of the packets.
* `rawSysex_mirror`: so the frames are the packets that differ from the last one published and whose
  frame is sent, and a byte map that listens to SysEx only holds, cell by cell, the last of them.
-/

namespace Bridge

open Protocol Gui Latest ChangePublisher

variable {T : Tables} {options : AppOptions} {s : RunBridge} {it : Iteration}

/-! ## Control changes -/

theorem sanitize_makeCc (channel controller value : UInt8) :
    sanitize (makeCc channel controller value).bytes = (makeCc channel controller value).bytes := by
  simp [sanitize, makeCc, Bytes.and_7F_idem]

/-- The control changes published are the first ones, unchanged. -/
theorem sent_isPrefix {ms : List MidiMessage}
    (hms : ∀ m ∈ ms, ∃ channel controller value, m = makeCc channel controller value)
    (outcome : Nat → MidiOutcome) : (sendAll ms outcome).1 <+: ms.map (·.bytes) := by
  induction ms generalizing outcome with
  | nil => exact List.prefix_rfl
  | cons m ms ih =>
    obtain ⟨channel, controller, value, rfl⟩ := hms m (.head _)
    have hrest := ih (fun m' hm' => hms m' (.tail _ hm')) fun k => outcome (k + 1)
    have hsan := sanitize_makeCc channel controller value
    rw [sendAll, send, hsan]
    cases outcome 0 with
    | noErr => exact (List.prefix_cons_inj _).2 hrest
    | packetListFull => exact List.nil_prefix
    | notReceived => exact List.nil_prefix

/-- If nothing fails all of them are. -/
theorem sendAll_noErr {ms : List MidiMessage}
    (hms : ∀ m ∈ ms, ∃ channel controller value, m = makeCc channel controller value)
    {outcome : Nat → MidiOutcome} (hok : ∀ k, outcome k = .noErr) :
    sendAll ms outcome = (ms.map (·.bytes), none) := by
  induction ms generalizing outcome with
  | nil => rfl
  | cons m ms ih =>
    obtain ⟨channel, controller, value, rfl⟩ := hms m (.head _)
    have hrest := ih (fun m' hm' => hms m' (.tail _ hm')) fun k => hok (k + 1)
    rw [sendAll, send, sanitize_makeCc, hok 0, hrest]
    rfl

/-! ## One iteration -/

/-- An iteration of a run that goes on with a packet. -/
theorem iterate_packet (hs : s.ending = none) (hne : it.packet ≠ []) :
    iterate T options s it =
      (⟨(decodeInput T s.protocol it.packet).1,
        (publishRawSysex options s.previousRawSysexPacket it.packet it.sysexOutcome).1,
        (sendAll (decodeInput T s.protocol it.packet).2 it.ccOutcome).2.map .threw⟩,
       ⟨(publishRawSysex options s.previousRawSysexPacket it.packet it.sysexOutcome).2,
        (sendAll (decodeInput T s.protocol it.packet).2 it.ccOutcome).1⟩) := by
  unfold Iteration.packet at hne ⊢
  unfold iterate
  rw [hs]
  cases hr : it.read with
  | packet bytes =>
    rw [hr] at hne
    simp [hne]
  | disconnected => rw [hr] at hne; exact absurd rfl hne
  | threw what => rw [hr] at hne; exact absurd rfl hne

/-- Any other iteration publishes nothing. -/
theorem iterate_quiet (options : AppOptions) (h : ¬ (s.ending = none ∧ it.packet ≠ [])) :
    (iterate T options s it).2 = .nothing ∧
    (iterate T options s it).1.previousRawSysexPacket = s.previousRawSysexPacket := by
  unfold iterate
  cases hs : s.ending with
  | some e => exact ⟨rfl, rfl⟩
  | none =>
    cases hr : it.read with
    | packet bytes =>
      have hnil : bytes = [] := by
        have := not_and.1 h hs
        simpa [Iteration.packet, hr] using this
      simp [hnil]
    | disconnected => cases it.connected <;> exact ⟨rfl, rfl⟩
    | threw what => exact ⟨rfl, rfl⟩

theorem mem_ccs {m : List UInt8} (h : m ∈ (iterate T options s it).2.ccs) :
    ∃ channel controller value, m = (makeCc channel controller value).bytes := by
  by_cases hit : s.ending = none ∧ it.packet ≠ []
  · rw [iterate_packet hit.1 hit.2] at h
    have hcc := fun m (hm : m ∈ (decodeInput T s.protocol it.packet).2) => mem_decodeInput hm
    obtain ⟨m', hm', rfl⟩ := List.mem_map.1 ((sent_isPrefix hcc it.ccOutcome).subset h)
    obtain ⟨channel, controller, value, rfl⟩ := hcc m' hm'
    exact ⟨channel, controller, value, rfl⟩
  · rw [(iterate_quiet options hit).1] at h
    cases h

theorem publishRawSysex_eq (hraw : options.rawSysex = true) (previous packet : List UInt8)
    (outcome : MidiOutcome) :
    publishRawSysex options previous packet outcome =
      if packet ≠ previous ∧ outcome = .noErr then (packet, some (rawSysexFrame packet))
      else (previous, none) := by
  unfold publishRawSysex
  by_cases hp : packet = previous
  · simp [hp]
  · rcases send_rawSysexFrame packet outcome with ⟨what, hsend, hout⟩ | ⟨hsend, hout⟩
    · simp [hraw, hp, hsend, hout]
    · subst hout
      simp [hraw, hp, hsend]

/-- **The frame of one iteration.** -/
theorem iterate_frame (hraw : options.rawSysex = true) (s : RunBridge) (it : Iteration) :
    let published := s.ending = none ∧ it.packet ≠ [] ∧ it.packet ≠ s.previousRawSysexPacket ∧
      it.sysexOutcome = .noErr
    (published ∧ (iterate T options s it).2.frame = some (rawSysexFrame it.packet) ∧
      (iterate T options s it).1.previousRawSysexPacket = it.packet) ∨
    (¬ published ∧ (iterate T options s it).2.frame = none ∧
      (iterate T options s it).1.previousRawSysexPacket = s.previousRawSysexPacket) := by
  intro published
  by_cases hit : s.ending = none ∧ it.packet ≠ []
  · rw [iterate_packet hit.1 hit.2, publishRawSysex_eq hraw]
    by_cases hsend : it.packet ≠ s.previousRawSysexPacket ∧ it.sysexOutcome = .noErr
    · exact .inl ⟨⟨hit.1, hit.2, hsend⟩, by rw [if_pos hsend], by rw [if_pos hsend]⟩
    · exact .inr ⟨fun h => hsend h.2.2, by rw [if_neg hsend], by rw [if_neg hsend]⟩
  · obtain ⟨hout, hprev⟩ := iterate_quiet (T := T) options hit
    exact .inr ⟨fun h => hit ⟨h.1, h.2.1⟩, by rw [hout]; rfl, hprev⟩

theorem frame_of_packet (hraw : options.rawSysex = true) {frame : List UInt8}
    (h : (iterate T options s it).2.frame = some frame) :
    ∃ packet, packet ≠ [] ∧ frame = rawSysexFrame packet := by
  rcases iterate_frame (T := T) hraw s it with ⟨⟨-, hne, -⟩, hframe, -⟩ | ⟨-, hframe, -⟩
  · rw [hframe] at h
    exact ⟨it.packet, hne, (Option.some.inj h).symm⟩
  · rw [hframe] at h
    cases h

/-! ## Runs -/

/-- The state remembers the packet last published, if any. -/
def Remembers (s : RunBridge) (last : Option (List UInt8)) : Prop :=
  s.previousRawSysexPacket = last.getD [] ∧ last ≠ some []

/-- **Frames are published changes.** -/
theorem frames_published (hraw : options.rawSysex = true) (its : List Iteration) :
    ∃ attempts, Remembers ((bridge T options).final (.start options) its)
        (publisher.final none attempts) ∧
      ((bridge T options).outs (.start options) its).map (·.frame) =
        (publisher.outs none attempts).map (Option.map rawSysexFrame) := by
  refine Machine.exists_sim _ (R := Remembers) (fun s last it hR => ?_) ⟨rfl, by simp⟩ its
  obtain ⟨hprev, hlast⟩ := hR
  -- a packet the loop does not publish is an attempt that fails
  rcases iterate_frame (T := T) hraw s it with
    ⟨⟨-, hne, hnew, -⟩, hframe, hprev'⟩ | ⟨-, hframe, hprev'⟩
  · have hdiff : some it.packet ≠ last := by
      rintro rfl
      exact hnew hprev.symm
    refine ⟨(it.packet, true), ?_⟩
    rw [step_publisher, if_pos ⟨hdiff, rfl⟩]
    exact ⟨⟨hprev', fun h => hne (Option.some.inj h)⟩, hframe⟩
  · refine ⟨(it.packet, false), ?_⟩
    rw [step_publisher, if_neg (by simp)]
    exact ⟨⟨hprev'.trans hprev, hlast⟩, hframe⟩

/-- One iteration's messages in the byte map, if it listens to SysEx only. -/
theorem deliver_iterate (mido : Mido) (hraw : options.rawSysex = true) {win : ByteMapWindow}
    (halive : win.alive = true) (hsrc : win.srcVar = .sysexOnly) (base : Int) :
    deliver mido ⟨some win, base⟩ (iterate T options s it).2.messages =
      .ok ⟨some (if (iterate T options s it).2.frame.isSome then win.updatePacket it.packet .sysex
        else win), base⟩ := by
  have hccs : ∀ win' : ByteMapWindow, win'.srcVar = .sysexOnly →
      deliver mido ⟨some win', base⟩ (iterate T options s it).2.ccs = .ok ⟨some win', base⟩ :=
    fun win' h => deliver_ccs_rejected mido (fun m hm => mem_ccs hm) (by rw [h]; rfl) base
  rcases iterate_frame (T := T) hraw s it with
    ⟨⟨-, hne, -⟩, hframe, -⟩ | ⟨-, hframe, -⟩
  · rw [Published.messages, hframe, Option.toList_some, List.singleton_append, deliver_cons,
      handleEvent_rawSysexFrame mido hne halive]
    exact hccs _ ((updatePacket_srcVar win _ _).trans hsrc)
  · rw [Published.messages, hframe]
    exact hccs win hsrc

/-- The messages of a whole run leave the window open and listening. -/
theorem deliver_bridge (mido : Mido) (hraw : options.rawSysex = true) (base : Int)
    (its : List Iteration) {win : ByteMapWindow} (halive : win.alive = true)
    (hsrc : win.srcVar = .sysexOnly) :
    ∃ win', deliver mido ⟨some win, base⟩
        (((bridge T options).outs s its).flatMap Published.messages) = .ok ⟨some win', base⟩ ∧
      win'.alive = true ∧ win'.srcVar = .sysexOnly := by
  induction its generalizing s win with
  | nil => exact ⟨win, rfl, halive, hsrc⟩
  | cons it its ih =>
    let out := (iterate T options s it).2
    let win1 := if out.frame.isSome then win.updatePacket it.packet .sysex else win
    have h1 : win1.alive = true ∧ win1.srcVar = .sysexOnly := by
      simp only [win1]
      split <;> simp [halive, hsrc]
    obtain ⟨win', hok, hopen⟩ := ih (s := (iterate T options s it).1) h1.1 h1.2
    refine ⟨win', ?_, hopen⟩
    rw [Machine.outs_cons, List.flatMap_cons]
    exact (deliver_append mido (deliver_iterate mido hraw halive hsrc base) _).trans hok

/-- The next frame, in terms of the packet last published. -/
theorem frame_of_remembers (hraw : options.rawSysex = true) {last : Option (List UInt8)}
    (h : Remembers s last) (it : Iteration) :
    (iterate T options s it).2.frame =
      if s.ending = none ∧ it.packet ≠ [] ∧ last ≠ some it.packet ∧ it.sysexOutcome = .noErr then
        some (rawSysexFrame it.packet)
      else none := by
  have hnew : it.packet ≠ [] → (last ≠ some it.packet ↔ it.packet ≠ s.previousRawSysexPacket) := by
    intro hne
    rw [h.1]
    cases last with
    | none => simp [hne]
    | some packet => simp [eq_comm]
  rcases iterate_frame (T := T) hraw s it with
    ⟨⟨h1, h2, h3, h4⟩, hframe, -⟩ | ⟨hnot, hframe, -⟩
  · rw [if_pos ⟨h1, h2, (hnew h2).2 h3, h4⟩]
    exact hframe
  · rw [if_neg fun h => hnot ⟨h.1, h.2.1, (hnew h.2.1).1 h.2.2.1, h.2.2.2⟩]
    exact hframe

/-- The byte map before and after one more iteration. -/
theorem deliver_next (mido : Mido) (hraw : options.rawSysex = true) (its : List Iteration)
    (it : Iteration) {start : ByteMapWindow} (halive : start.alive = true)
    (hsrc : start.srcVar = .sysexOnly) (base : Int) :
    let outs := (bridge T options).outs (.start options) its
    let out := (iterate T options ((bridge T options).final (.start options) its) it).2
    ∃ win win',
      deliver mido ⟨some start, base⟩ (outs.flatMap Published.messages) = .ok ⟨some win, base⟩ ∧
      deliver mido ⟨some start, base⟩ ((outs ++ [out]).flatMap Published.messages) =
        .ok ⟨some win', base⟩ ∧
      AppShows mido ⟨some start, base⟩ (outs.flatMap Published.messages) ⟨some win, base⟩ ∧
      AppShows mido ⟨some start, base⟩ ((outs ++ [out]).flatMap Published.messages)
        ⟨some win', base⟩ ∧
      ∀ i < maxBytes, win'.data[i]? =
        if out.frame.isSome ∧ i < it.packet.length then it.packet[i]? else win.data[i]? := by
  intro outs out
  obtain ⟨win, hok, halive', hsrc'⟩ :=
    deliver_bridge (T := T) (s := .start options) mido hraw base its halive hsrc
  let win' := if out.frame.isSome then win.updatePacket it.packet .sysex else win
  have hok' : deliver mido ⟨some start, base⟩ ((outs ++ [out]).flatMap Published.messages) =
      .ok ⟨some win', base⟩ := by
    rw [List.flatMap_append, deliver_append mido hok, List.flatMap_singleton]
    exact deliver_iterate mido hraw halive' hsrc' base
  refine ⟨win, win', hok, hok', appShows_of_deliver hok, appShows_of_deliver hok', fun i hi => ?_⟩
  · simp only [win']
    cases out.frame.isSome with
    | true => simp [getElem?_updatePacket win it.packet .sysex hi, hsrc', SourceFilter.accepts]
    | false => simp

/-- **The raw-USB stream mirrors the packets**: over every run, with failures, disconnects and
reconnects anywhere, the frames published are those of a list of packets without repetitions in a
row, each decoded by the byte map to exactly its packet; the next packet is published if it is not
the last one published and its frame is sent; and a byte map that listens to SysEx only, by itself or
in the application, then holds the packet's bytes where it has any, and is unchanged elsewhere. -/
theorem rawSysex_mirror (mido : Mido) (T : Tables) (options : AppOptions)
    (hraw : options.rawSysex = true) (its : List Iteration) :
    let s := (bridge T options).final (.start options) its
    let outs := (bridge T options).outs (.start options) its
    ∃ packets : List (List UInt8),
      outs.filterMap (·.frame) = packets.map rawSysexFrame ∧
      packets.IsChain (· ≠ ·) ∧
      (∀ packet ∈ packets,
        (∃ data : List (Fin 128), rawSysexFrame packet = 0xF0 :: data.map dataByte ++ [0xF7]) ∧
        ∀ win base, win.alive = true →
          routeSysexToByteMap ⟨some win, base⟩ (mido.decode (rawSysexFrame packet)) =
            .ok ⟨some (win.updatePacket packet .sysex), base⟩) ∧
      ∀ it, let out := (iterate T options s it).2
        out.frame = (if s.ending = none ∧ it.packet ≠ [] ∧ packets.getLast? ≠ some it.packet ∧
          it.sysexOutcome = .noErr then some (rawSysexFrame it.packet) else none) ∧
        ∀ start base, start.alive = true → start.srcVar = .sysexOnly → ∃ win win',
          deliver mido ⟨some start, base⟩ (outs.flatMap Published.messages) =
            .ok ⟨some win, base⟩ ∧
          deliver mido ⟨some start, base⟩ ((outs ++ [out]).flatMap Published.messages) =
            .ok ⟨some win', base⟩ ∧
          AppShows mido ⟨some start, base⟩ (outs.flatMap Published.messages) ⟨some win, base⟩ ∧
          AppShows mido ⟨some start, base⟩ ((outs ++ [out]).flatMap Published.messages)
            ⟨some win', base⟩ ∧
          ∀ i < maxBytes, win'.data[i]? =
            if out.frame.isSome ∧ i < it.packet.length then it.packet[i]? else win.data[i]? := by
  intro s outs
  obtain ⟨attempts, ⟨hprev, hlast⟩, hframes⟩ := frames_published (T := T) hraw its
  let packets := (publisher.outs none attempts).reduceOption
  have hpackets : outs.filterMap (·.frame) = packets.map rawSysexFrame := by
    have h := congrArg List.reduceOption hframes
    rwa [List.reduceOption_map, List.reduceOption, List.filterMap_map] at h
  have hfinal : publisher.final none attempts = packets.getLast? := by
    rw [final_publisher, Option.or_none]
  have hnonempty : ∀ packet ∈ packets, packet ≠ [] := by
    intro packet hmem
    have hframe : rawSysexFrame packet ∈ outs.filterMap (·.frame) :=
      hpackets ▸ List.mem_map_of_mem hmem
    obtain ⟨out, hout, hsome⟩ := List.mem_filterMap.1 hframe
    obtain ⟨s', it, -, rfl⟩ := Machine.mem_outs _ hout
    obtain ⟨packet', hne, heq⟩ := frame_of_packet (T := T) hraw hsome
    rwa [rawSysexFrame_inj heq]
  refine ⟨packets, hpackets, isChain_published none attempts, fun packet hmem => ?_, fun it => ?_⟩
  · exact ⟨⟨frameData packet, rawSysexFrame_eq packet⟩, fun win base halive =>
      route_rawSysexFrame mido (hnonempty packet hmem) halive base⟩
  · have hremembers : Remembers s packets.getLast? := ⟨hfinal ▸ hprev, hfinal ▸ hlast⟩
    exact ⟨frame_of_remembers hraw hremembers it, fun start base halive hsrc =>
      deliver_next mido hraw its it halive hsrc base⟩

theorem rawSysex_mirror_retry :
    ∃ packets : List (List UInt8),
      packets = [[0x90]] ∧
      ((bridge Tables.shipped ⟨0, 0, .byte, true⟩).outs (.start ⟨0, 0, .byte, true⟩)
        [⟨.packet [0x90], true, .notReceived, fun _ => .noErr⟩,
          ⟨.packet [0x90], true, .noErr, fun _ => .noErr⟩]).filterMap (·.frame) =
        packets.map rawSysexFrame ∧
      packets.IsChain (· ≠ ·) := by
  obtain ⟨packets, hframes, hchain, -⟩ :=
    rawSysex_mirror .standard Tables.shipped ⟨0, 0, .byte, true⟩ rfl
      [⟨.packet [0x90], true, .notReceived, fun _ => .noErr⟩,
        ⟨.packet [0x90], true, .noErr, fun _ => .noErr⟩]
  have hmap : packets.map rawSysexFrame = [[0x90]].map rawSysexFrame :=
    hframes.symm.trans (by decide)
  have hinj : Function.Injective rawSysexFrame := fun _ _ => rawSysexFrame_inj
  exact ⟨packets, List.map_injective_iff.2 hinj hmap, hframes, hchain⟩

end Bridge
