import S4Bridge.Bridge.Feedback
import S4Bridge.Protocol.Proof.Encode

/-!
# What reaches `write_output`

While the device is open the callback attempts one write for each packet that is the envelope of a
payload, and nothing it meets leaves it (`feedback_open`). So `read_proc` never abandons a packet
list, and the writes are the payloads of the envelopes, in order (`feedback_isolated`). The packets
are taken for whole messages: a message cut into several is not written (`fragments_iff`).
-/

namespace Bridge

open Device Protocol

/-! ## Envelopes -/

/-- The message is the envelope of a payload. -/
def IsLedOut (message : List UInt8) : Prop := ∃ payload, message = wrapOutput payload

theorem take_drop_wrapOutput (payload : List UInt8) :
    ((wrapOutput payload).drop 4).take ((wrapOutput payload).length - 5) = payload := by
  have hlen : (wrapOutput payload).length - 5 = payload.length := by simp [wrapOutput]
  have hdrop : (wrapOutput payload).drop 4 = payload ++ [0xF7] := rfl
  rw [hlen, hdrop, List.take_left]

instance (message : List UInt8) : Decidable (IsLedOut message) :=
  decidable_of_iff (message = wrapOutput ((message.drop 4).take (message.length - 5)))
    ⟨fun h => ⟨_, h⟩, fun ⟨payload, h⟩ => by rw [h, take_drop_wrapOutput]⟩

/-- The payloads of the envelopes among `messages`. -/
theorem map_wrapOutput_filterMap (p : S4GenericProtocol) (messages : List (List UInt8)) :
    (messages.filterMap fun m => (encodeOutput p m).2).map wrapOutput =
      messages.filter fun m => IsLedOut m := by
  induction messages with
  | nil => rfl
  | cons m messages ih =>
    cases hm : (encodeOutput p m).2 with
    | none =>
      have hnot : ¬ IsLedOut m := by
        rintro ⟨payload, h⟩
        rw [(encodeOutput_eq_some p m payload).2 h] at hm
        cases hm
      rw [List.filter_cons_of_neg (by simpa using hnot), ← ih]
      simp only [List.filterMap_cons, hm]
    | some payload =>
      have hwrap := (encodeOutput_eq_some p m payload).1 hm
      have hled : IsLedOut m := ⟨payload, hwrap⟩
      rw [List.filter_cons_of_pos (by simpa using hled), ← ih, hwrap]
      simp only [List.filterMap_cons, ← hwrap, hm, List.map_cons]

/-! ## One packet, one list, many lists -/

variable (errorName : Int → String) (options : UsbOptions) {device : UsbDevice}

theorem feedback_open (hopen : device.handle ≠ none) (hconn : device.disconnected = false)
    (s : FeedbackState) (message : List UInt8) (env : WriteEnv) :
    feedback errorName options device s message env =
      (⟨(encodeOutput s.protocol message).1,
        s.attempts ++ (encodeOutput s.protocol message).2.toList⟩, .ok ()) := by
  have hgate : (device.disconnected || device.handle.isNone) = false := by
    rw [hconn, Bool.false_or, Option.isNone_eq_false_iff, Option.isSome_iff_ne_none]
    exact hopen
  unfold feedback
  rw [hgate]
  simp only [Bool.false_eq_true, if_false]
  obtain ⟨protocol, found⟩ := encodeOutput s.protocol message
  cases found with
  | none => simp
  | some payload =>
    simp only
    split <;> rfl

/-- An open device with an output endpoint hands every payload to libusb. -/
theorem writeOutput_open (hopen : device.handle ≠ none) (hout : options.outputEndpoint ≠ 0)
    (payload : List UInt8) (transfer : Transferred) :
    (writeOutput errorName options device payload transfer).1 = some payload := by
  have hhandle : device.handle.isNone = false := by
    rw [Option.isNone_eq_false_iff, Option.isSome_iff_ne_none]
    exact hopen
  unfold writeOutput
  rw [hhandle, if_neg (by decide), if_neg hout]
  split
  · rfl
  · split <;> rfl

/-- What the callback's write hands to libusb: all of the payload, unless the device has been closed
since the check or has no output endpoint. -/
theorem writeOutput_attempt (hopen : device.handle ≠ none) (payload : List UInt8)
    (env : WriteEnv) :
    (writeOutput errorName options (if env.closed then { device with handle := none } else device)
      payload env.transfer).1 =
      if env.closed ∨ options.outputEndpoint = 0 then none else some payload := by
  by_cases hclosed : env.closed = true
  · rw [if_pos hclosed, if_pos (.inl hclosed)]
    rfl
  · rw [if_neg hclosed]
    by_cases hout : options.outputEndpoint = 0
    · rw [if_pos (.inr hout)]
      unfold writeOutput
      rw [if_pos hout]
      split <;> rfl
    · rw [if_neg (not_or.2 ⟨hclosed, hout⟩)]
      exact writeOutput_open errorName options hopen hout payload env.transfer

theorem readPackets_open (hopen : device.handle ≠ none) (hconn : device.disconnected = false)
    (s : FeedbackState) (packets : List (List UInt8 × WriteEnv)) :
    ∃ protocol, readPackets errorName options device s packets =
      (⟨protocol, s.attempts ++
        packets.filterMap fun packet => (encodeOutput s.protocol packet.1).2⟩, .ok ()) := by
  induction packets generalizing s with
  | nil => exact ⟨s.protocol, by simp [readPackets]⟩
  | cons packet packets ih =>
    obtain ⟨message, env⟩ := packet
    rw [readPackets, feedback_open errorName options hopen hconn]
    obtain ⟨protocol, hrun⟩ := ih ⟨(encodeOutput s.protocol message).1,
      s.attempts ++ (encodeOutput s.protocol message).2.toList⟩
    refine ⟨protocol, ?_⟩
    simp only [hrun]
    have hrest : (packets.filterMap fun packet =>
        (encodeOutput (encodeOutput s.protocol message).1 packet.1).2) =
        packets.filterMap fun packet => (encodeOutput s.protocol packet.1).2 := by
      simp only [encodeOutput_payload (encodeOutput s.protocol message).1 s.protocol]
    rw [hrest, List.append_assoc, List.filterMap_cons]
    cases (encodeOutput s.protocol message).2 <;> rfl

theorem readProc_open (hopen : device.handle ≠ none) (hconn : device.disconnected = false)
    (s : FeedbackState) (packetList : List (List UInt8 × WriteEnv)) :
    readProc errorName options device s packetList =
      readPackets errorName options device s packetList := by
  obtain ⟨protocol, hrun⟩ := readPackets_open errorName options hopen hconn s packetList
  unfold readProc
  cases packetList with
  | nil => rfl
  | cons packet packets => rw [hrun]; rfl

/-- Packet lists are read like one. -/
theorem readProcs_open (hopen : device.handle ≠ none) (hconn : device.disconnected = false)
    (s : FeedbackState) (lists : List (List (List UInt8 × WriteEnv))) :
    ∃ protocol, readProcs errorName options device s lists =
      (⟨protocol, s.attempts ++
        (lists.flatten.map Prod.fst).filterMap fun m => (encodeOutput s.protocol m).2⟩, .ok ()) := by
  induction lists generalizing s with
  | nil => exact ⟨s.protocol, by simp [readProcs]⟩
  | cons packetList lists ih =>
    obtain ⟨protocol, hone⟩ := readPackets_open errorName options hopen hconn s packetList
    rw [readProcs, readProc_open errorName options hopen hconn, hone]
    obtain ⟨protocol', hrest⟩ := ih ⟨protocol, s.attempts ++
      packetList.filterMap fun packet => (encodeOutput s.protocol packet.1).2⟩
    refine ⟨protocol', ?_⟩
    simp only [hrest]
    rw [List.flatten_cons, List.map_append, List.filterMap_append, List.append_assoc]
    simp only [List.filterMap_map, encodeOutput_payload protocol s.protocol]
    rfl

/-- **Writes are isolated from each other**: whatever the packets hold and however the writes fail,
no exception leaves `read_proc`, and the writes attempted are the payloads of the envelopes among
the packets, each once and in order; of each, libusb is handed all unless the device has been closed
since the check or has no output endpoint. -/
theorem feedback_isolated (hopen : device.handle ≠ none) (hconn : device.disconnected = false)
    (s : FeedbackState) (lists : List (List (List UInt8 × WriteEnv))) :
    (readProcs errorName options device s lists).2 = .ok () ∧
      ∃ sent, (readProcs errorName options device s lists).1.attempts = s.attempts ++ sent ∧
        sent.map wrapOutput = ((lists.flatten.map Prod.fst).filter fun m => IsLedOut m) ∧
        ∀ payload ∈ sent, ∀ env : WriteEnv,
          (writeOutput errorName options
            (if env.closed then { device with handle := none } else device) payload
            env.transfer).1 =
            if env.closed ∨ options.outputEndpoint = 0 then none else some payload := by
  obtain ⟨protocol, hrun⟩ := readProcs_open errorName options hopen hconn s lists
  rw [hrun]
  exact ⟨rfl, _, rfl, map_wrapOutput_filterMap s.protocol _,
    fun payload _ env => writeOutput_attempt errorName options hopen payload env⟩

/-- The first write is short, the second list begins with an empty packet. -/
theorem feedback_isolated_short_write :
    ∃ sent, (readProcs (fun _ => "LIBUSB_ERROR_IO") { outputEndpoint := 8 } { handle := some 0 }
        ⟨.new 0 0 .byte, []⟩
        [[(wrapOutput [1, 2], ⟨false, ⟨.ok, [1]⟩⟩)],
          [([], ⟨false, ⟨.ok, []⟩⟩), (wrapOutput [3], ⟨true, ⟨.ok, [3]⟩⟩)]]).1.attempts =
        [] ++ sent ∧
      sent.map wrapOutput = [wrapOutput [1, 2], wrapOutput [3]] := by
  obtain ⟨-, sent, hsent, hmap, -⟩ := feedback_isolated (fun _ => "LIBUSB_ERROR_IO")
    { outputEndpoint := 8 } (by decide : ({ handle := some 0 } : UsbDevice).handle ≠ none) rfl
    ⟨.new 0 0 .byte, []⟩
    [[(wrapOutput [1, 2], ⟨false, ⟨.ok, [1]⟩⟩)],
      [([], ⟨false, ⟨.ok, []⟩⟩), (wrapOutput [3], ⟨true, ⟨.ok, [3]⟩⟩)]]
  exact ⟨sent, hsent, hmap.trans (by decide)⟩

/-! ## Messages cut into packets -/

/-- A part as long as the whole is all there is, if no part is empty. -/
theorem eq_singleton_of_length_flatten {α : Type*} {parts : List (List α)} {part : List α}
    (hmem : part ∈ parts) (hne : ∀ p ∈ parts, p ≠ [])
    (hlen : parts.flatten.length = part.length) : parts = [part] := by
  obtain ⟨before, after, rfl⟩ := List.append_of_mem hmem
  simp only [List.flatten_append, List.flatten_cons, List.length_append] at hlen
  have hnil : ∀ l : List (List α), (∀ p ∈ l, p ≠ []) → l.flatten.length = 0 → l = [] := by
    intro l hl h0
    cases l with
    | nil => rfl
    | cons p l =>
      rw [List.flatten_cons, List.length_append] at h0
      exact absurd (List.length_eq_zero_iff.1 (by omega)) (hl p (.head _))
  have hbefore := hnil before (fun p hp => hne p (List.mem_append_left _ hp)) (by omega)
  have hafter := hnil after
    (fun p hp => hne p (List.mem_append_right _ (List.mem_cons_of_mem _ hp))) (by omega)
  rw [hbefore, hafter]
  rfl

/-- **A message is written if and only if it comes in one packet**; of the write, libusb is handed all
unless the device has been closed since the check or has no output endpoint. -/
theorem fragments_iff (hopen : device.handle ≠ none) (hconn : device.disconnected = false)
    (s : FeedbackState) (payload : List UInt8) (lists : List (List (List UInt8 × WriteEnv)))
    (hparts : ∀ part ∈ lists.flatten, part.1 ≠ [])
    (hmessage : (lists.flatten.map Prod.fst).flatten = wrapOutput payload) :
    ((readProcs errorName options device s lists).1.attempts = s.attempts ++ [payload] ↔
      lists.flatten.length = 1) ∧
    ∀ env : WriteEnv,
      (writeOutput errorName options (if env.closed then { device with handle := none } else device)
        payload env.transfer).1 =
        if env.closed ∨ options.outputEndpoint = 0 then none else some payload := by
  refine ⟨?_, writeOutput_attempt errorName options hopen payload⟩
  obtain ⟨protocol, hrun⟩ := readProcs_open errorName options hopen hconn s lists
  have hmap := map_wrapOutput_filterMap s.protocol (lists.flatten.map Prod.fst)
  rw [hrun, List.append_cancel_left_eq]
  constructor
  · intro hsent
    rw [hsent] at hmap
    have hfilter : wrapOutput payload ∈
        (lists.flatten.map Prod.fst).filter fun m => IsLedOut m := by
      rw [← hmap]
      exact .head _
    have hmem := (List.mem_filter.1 hfilter).1
    have hone := eq_singleton_of_length_flatten hmem (fun part hpart => by
      obtain ⟨x, hx, rfl⟩ := List.mem_map.1 hpart
      exact hparts x hx) (congrArg List.length hmessage)
    rw [← List.length_map Prod.fst, hone]
    rfl
  · intro hlen
    obtain ⟨part, hpart⟩ := List.length_eq_one_iff.1 hlen
    have hwhole : part.1 = wrapOutput payload := by simpa [hpart] using hmessage
    have hled := (encodeOutput_eq_some s.protocol part.1 payload).2 hwhole
    simp [hpart, hled]

/-- A message in one packet. -/
theorem fragments_iff_whole :
    (readProcs (fun _ => "") { outputEndpoint := 8 } { handle := some 0 } ⟨.new 0 0 .byte, []⟩
      [[([0xF0, 0x7D, 0x53, 0x34, 0x0D, 0x1F, 0xF7], ⟨false, ⟨.ok, [0x0D, 0x1F]⟩⟩)]]).1.attempts =
      [] ++ [[0x0D, 0x1F]] :=
  (fragments_iff (fun _ => "") { outputEndpoint := 8 }
    (by decide : ({ handle := some 0 } : UsbDevice).handle ≠ none) rfl ⟨.new 0 0 .byte, []⟩
    [0x0D, 0x1F]
    [[([0xF0, 0x7D, 0x53, 0x34, 0x0D, 0x1F, 0xF7], ⟨false, ⟨.ok, [0x0D, 0x1F]⟩⟩)]]
    (by decide) (by decide)).1.2 rfl

/-- The message is cut after its header. -/
theorem not_fragments_cut :
    ¬ ∀ (errorName : Int → String) (options : UsbOptions) (device : UsbDevice),
      device.handle ≠ none → device.disconnected = false →
      ∀ (s : FeedbackState) (payload : List UInt8) (lists : List (List (List UInt8 × WriteEnv))),
        (∀ part ∈ lists.flatten, part.1 ≠ []) →
        (lists.flatten.map Prod.fst).flatten = wrapOutput payload →
        (readProcs errorName options device s lists).1.attempts = s.attempts ++ [payload] := by
  intro h
  have hcut := h (fun _ => "") { outputEndpoint := 8 } { handle := some 0 } (by decide) rfl
    ⟨.new 0 0 .byte, []⟩ [0x0D, 0x1F]
    [[([0xF0, 0x7D, 0x53, 0x34], ⟨false, ⟨.ok, []⟩⟩)],
      [([0x0D, 0x1F, 0xF7], ⟨false, ⟨.ok, []⟩⟩)]] (by decide) (by decide)
  exact absurd hcut (by decide)

end Bridge
