import S4Bridge.Bridge.Proof.Handles
import S4Bridge.Bridge.Proof.Publish
import S4Bridge.Protocol.Proof.Encode

/-!
# What is handed to `send`

`runCalls` lists the calls of `CoreMidiBridge::send` a run makes, with how CoreMIDI's part of each
goes; what the run publishes are their results (`published_run`). Every message is a control change
or a SysEx message of data bytes, so the sanitising pass of `send` changes none (`sends_legal`).
-/

namespace Bridge

open Bytes Device Protocol

/-! ## The sanitising pass -/

/-- A channel voice status. -/
def IsChannelVoice (status : UInt8) : Prop := 0x80 ≤ status ∧ status < 0xF0

instance (status : UInt8) : Decidable (IsChannelVoice status) :=
  inferInstanceAs (Decidable (_ ∧ _))

theorem sanitize_cons (status : UInt8) (data : List UInt8) :
    sanitize (status :: data) =
      status :: if IsChannelVoice status then data.map (· &&& 0x7F) else data := by
  rw [sanitize]
  by_cases h : IsChannelVoice status
  · rw [if_pos h, if_pos ⟨(and_80_ne_zero status).2 h.1, h.2⟩]
  · rw [if_neg h, if_neg fun hc => h ⟨(and_80_ne_zero status).1 hc.1, hc.2⟩]

theorem sanitize_idem (message : List UInt8) : sanitize (sanitize message) = sanitize message := by
  cases message with
  | nil => rfl
  | cons status data =>
    rw [sanitize_cons, sanitize_cons]
    split
    · simp only [List.map_map, Function.comp_def, and_7F_idem]
    · rfl

theorem length_sanitize (message : List UInt8) : (sanitize message).length = message.length := by
  cases message with
  | nil => rfl
  | cons status data =>
    rw [sanitize_cons]
    split <;> simp

theorem head?_sanitize (message : List UInt8) : (sanitize message).head? = message.head? := by
  cases message with
  | nil => rfl
  | cons status data =>
    rw [sanitize_cons]
    rfl

theorem sanitize_data {status : UInt8} (h : IsChannelVoice status) (data : List UInt8) :
    ∀ b ∈ (sanitize (status :: data)).tail, b < 0x80 := by
  rw [sanitize_cons, if_pos h]
  intro b hb
  obtain ⟨x, -, rfl⟩ := List.mem_map.1 hb
  exact and_7F_lt x

/-! ## Legal messages -/

/-- A control change: a status of B0 to BF and two data bytes. -/
def IsControlChange (message : List UInt8) : Prop :=
  ∃ status controller value : UInt8, message = [status, controller, value] ∧
    0xB0 ≤ status ∧ status ≤ 0xBF ∧ controller < 0x80 ∧ value < 0x80

/-- What the bridge may send. -/
def IsLegal (message : List UInt8) : Prop := IsControlChange message ∨ LegalSysEx message

theorem isControlChange_makeCc (channel controller value : UInt8) :
    IsControlChange (makeCc channel controller value).bytes := by
  have hlt : (channel &&& 0x0F).toNat < 16 := UInt8.lt_iff_toNat_lt.1 (and_0F_lt channel)
  have hstatus : (0xB0 ||| (channel &&& 0x0F)).toNat = 0xB0 + (channel &&& 0x0F).toNat := by
    rw [status_byte (and_0F_lt channel), UInt8.toNat_ofNat']
    omega
  refine ⟨_, _, _, rfl, ?_, ?_, and_7F_lt controller, and_7F_lt value⟩
  · rw [UInt8.le_iff_toNat_le, hstatus]
    exact Nat.le_add_right _ _
  · rw [UInt8.le_iff_toNat_le, hstatus]
    show _ ≤ 0xBF
    omega

theorem nibbles_lt {packet : List UInt8} {n : UInt8} (h : n ∈ nibbles packet) : n < 0x10 := by
  obtain ⟨b, -, hn⟩ := List.mem_flatMap.1 h
  rcases List.mem_cons.1 hn with rfl | hn
  · exact and_0F_lt _
  · obtain rfl := List.mem_singleton.1 hn
    exact and_0F_lt _

theorem legalSysEx_rawSysexFrame (packet : List UInt8) : LegalSysEx (rawSysexFrame packet) := by
  refine ⟨[0x7D, 0x53, 0x34, 0x02] ++ nibbles packet, fun b hb => ?_, rfl⟩
  rcases List.mem_append.1 hb with hb | hb
  · simp only [List.mem_cons, List.not_mem_nil, or_false] at hb
    rcases hb with rfl | rfl | rfl | rfl <;> decide
  · exact UInt8.lt_trans (nibbles_lt hb) (by decide)

theorem IsLegal.sanitize {message : List UInt8} (h : IsLegal message) :
    sanitize message = message := by
  rcases h with ⟨status, controller, value, rfl, -, -, hc, hv⟩ | ⟨data, -, rfl⟩
  · rw [sanitize_cons]
    split
    · rw [List.map_cons, List.map_cons, and_7F_of_lt _ hc, and_7F_of_lt _ hv]
      rfl
    · rfl
  · rw [List.cons_append, sanitize_cons, if_neg (by decide)]

/-! ## The calls of one iteration -/

/-- A call of `send`: the message, and how CoreMIDI's part of it goes. -/
abbrev SendCall := List UInt8 × MidiOutcome

/-- What a call publishes. -/
def SendCall.published (call : SendCall) : Option (List UInt8) :=
  match send call.1 call.2 with
  | .ok sent => sent
  | .error _ => none

/-- The calls of `sendAll`. -/
def sendCalls : List MidiMessage → (Nat → MidiOutcome) → List SendCall
  | [], _ => []
  | message :: rest, outcome =>
    (message.bytes, outcome 0) ::
      match send message.bytes (outcome 0) with
      | .error _ => []
      | .ok _ => sendCalls rest fun k => outcome (k + 1)

variable (T : Tables) (options : AppOptions)

/-- The calls of an iteration. -/
def iterateCalls (s : RunBridge) (it : Iteration) : List SendCall :=
  if s.ending = none ∧ it.packet ≠ [] then
    (if options.rawSysex && it.packet ≠ s.previousRawSysexPacket then
      [(rawSysexFrame it.packet, it.sysexOutcome)] else []) ++
    sendCalls (decodeInput T s.protocol it.packet).2 it.ccOutcome
  else []

theorem published_sendCalls (messages : List MidiMessage) (outcome : Nat → MidiOutcome) :
    (sendAll messages outcome).1 = (sendCalls messages outcome).filterMap SendCall.published := by
  induction messages generalizing outcome with
  | nil => rfl
  | cons message rest ih =>
    rw [sendAll, sendCalls, List.filterMap_cons, SendCall.published]
    cases hsend : send message.bytes (outcome 0) with
    | error what => simp
    | ok sent =>
      simp only [ih]
      cases sent <;> rfl

theorem published_iterate (s : RunBridge) (it : Iteration) :
    (iterate T options s it).2.messages =
      (iterateCalls T options s it).filterMap SendCall.published := by
  unfold iterateCalls
  by_cases h : s.ending = none ∧ it.packet ≠ []
  · rw [if_pos h, iterate_packet h.1 h.2, List.filterMap_append, ← published_sendCalls]
    unfold publishRawSysex
    by_cases hframe : (options.rawSysex && decide (it.packet ≠ s.previousRawSysexPacket)) = true
    · rw [if_pos hframe, if_pos hframe, List.filterMap_cons, SendCall.published]
      cases send (rawSysexFrame it.packet) it.sysexOutcome with
      | error what => rfl
      | ok sent => cases sent <;> rfl
    · rw [if_neg hframe, if_neg hframe]
      rfl
  · rw [if_neg h, (iterate_quiet options h).1]
    rfl

theorem sendCalls_legal {messages : List MidiMessage} (h : ∀ m ∈ messages, IsControlChange m.bytes)
    (outcome : Nat → MidiOutcome) : ∀ call ∈ sendCalls messages outcome, IsLegal call.1 := by
  induction messages generalizing outcome with
  | nil => exact fun call hcall => (by cases hcall)
  | cons message rest ih =>
    intro call hcall
    rw [sendCalls] at hcall
    rcases List.mem_cons.1 hcall with rfl | hcall
    · exact .inl (h message (.head _))
    · split at hcall
      · cases hcall
      · exact ih (fun m hm => h m (.tail _ hm)) _ call hcall

/-- Every message handed to `send` is legal. -/
theorem iterateCalls_legal (s : RunBridge) (it : Iteration) :
    ∀ call ∈ iterateCalls T options s it, IsLegal call.1 := by
  intro call hcall
  unfold iterateCalls at hcall
  split at hcall
  · rcases List.mem_append.1 hcall with hcall | hcall
    · obtain rfl := List.mem_singleton.1 (List.mem_ite_nil_right.1 hcall).2
      exact .inr (legalSysEx_rawSysexFrame it.packet)
    · refine sendCalls_legal (fun m hm => ?_) it.ccOutcome call hcall
      obtain ⟨channel, controller, value, rfl⟩ := mem_decodeInput hm
      exact isControlChange_makeCc channel controller value
  · cases hcall

/-! ## Runs -/

variable (errorName : Int → String) (usb : UsbOptions)

/-- The calls of a turn: those of the iteration over what it read, by the protocol object as the
feedback left it. -/
def turnCalls (s : BridgeRun) (x : LoopInput) : List SendCall :=
  match (hotswapStep errorName T options usb s x).2.read with
  | none => []
  | some call =>
    let fed := readProcs errorName usb (lookAtRunning s.world x.signalled).now.device
      ⟨s.loop.protocol, []⟩ x.feedback
    iterateCalls T options { s.loop with protocol := fed.1.protocol }
      ⟨.packet call.handed, true, x.sysexOutcome, x.ccOutcome⟩

def runCalls : BridgeRun → List LoopInput → List SendCall
  | _, [] => []
  | s, x :: inputs =>
    turnCalls T options errorName usb s x ++
      runCalls (hotswapStep errorName T options usb s x).1 inputs

theorem published_readTurn (w : History Host) (loop : RunBridge) (x : LoopInput) :
    ∃ handed, (readTurn errorName T options usb w loop x).2.read =
        some ⟨w.now, x.transfer, handed⟩ ∧
      (readTurn errorName T options usb w loop x).2.published.messages =
        (iterateCalls T options loop ⟨.packet handed, true, x.sysexOutcome, x.ccOutcome⟩).filterMap
          SendCall.published := by
  have hfinish : ∀ w' it, it.sysexOutcome = x.sysexOutcome → it.ccOutcome = x.ccOutcome →
      (finishTurn T options w' loop (ReadCall.mk w.now x.transfer) it).2.published.messages =
        (iterateCalls T options loop
          ⟨.packet it.packet, true, x.sysexOutcome, x.ccOutcome⟩).filterMap
            SendCall.published := by
    intro w' it hsysex hcc
    rw [finishTurn_out, published_iterate, ← hsysex, ← hcc]
    rfl
  have hnothing : (iterateCalls T options loop
      ⟨.packet [], true, x.sysexOutcome, x.ccOutcome⟩) = [] := if_neg fun h => h.2 rfl
  cases hread : readInput errorName usb w.now.device x.transfer with
  | mk device result =>
    by_cases hgone : readResult device result = .disconnected
    · rcases readTurn_gone_cases hread hgone with hturn | ⟨exit, -, -, hturn⟩
      · rw [hturn]
        exact ⟨[], rfl, by rw [hnothing]; rfl⟩
      · rw [hturn]
        exact ⟨_, by rw [finishTurn_out], hfinish _ _ rfl rfl⟩
    · rw [readTurn_read hread hgone]
      exact ⟨_, by rw [finishTurn_out], hfinish _ _ rfl rfl⟩

theorem published_turn (s : BridgeRun) (x : LoopInput) :
    (hotswapStep errorName T options usb s x).2.published.messages =
      (turnCalls T options errorName usb s x).filterMap SendCall.published := by
  unfold turnCalls hotswapStep
  split
  · simp only
    split
    · rfl
    · generalize readProcs errorName usb (lookAtRunning s.world x.signalled).now.device
        ⟨s.loop.protocol, []⟩ x.feedback = fed
      obtain ⟨fed, result⟩ := fed
      cases result with
      | error what => rfl
      | ok u =>
        obtain ⟨handed, hread, hpublished⟩ := published_readTurn T options errorName usb
          (lookAtRunning s.world x.signalled) { s.loop with protocol := fed.protocol } x
        simp only
        rw [hread, hpublished]
  · rfl

/-- What a run publishes is what comes of its calls of `send`. -/
theorem published_run (s : BridgeRun) (inputs : List LoopInput) :
    ((hotswap errorName T options usb).outs s inputs).flatMap (·.published.messages) =
      (runCalls T options errorName usb s inputs).filterMap SendCall.published := by
  induction inputs generalizing s with
  | nil => rfl
  | cons x inputs ih =>
    rw [Machine.outs_cons, List.flatMap_cons, ih, runCalls, List.filterMap_append,
      ← published_turn]
    rfl

theorem runCalls_legal (s : BridgeRun) (inputs : List LoopInput) :
    ∀ call ∈ runCalls T options errorName usb s inputs, IsLegal call.1 := by
  induction inputs generalizing s with
  | nil => exact fun call h => (by cases h)
  | cons x inputs ih =>
    intro call hcall
    rcases List.mem_append.1 hcall with hcall | hcall
    · unfold turnCalls at hcall
      split at hcall
      · cases hcall
      · exact iterateCalls_legal T options _ _ call hcall
    · exact ih _ call hcall

/-- **Everything the bridge sends is legal MIDI and passes `send` unchanged**, in every run, with any
tables and options: what the run publishes is what comes of its calls of `send`, and all of them are
legal. The sanitising pass itself is idempotent, keeps the length and the first byte and leaves data
bytes after a channel voice status. -/
theorem sends_legal (start : StartInput) (inputs : List LoopInput) :
    let first := runBridgeStart errorName options usb start
    let calls := runCalls T options errorName usb first inputs
    ((hotswap errorName T options usb).outs first inputs).flatMap (·.published.messages) =
      calls.filterMap SendCall.published ∧
    (∀ call ∈ calls,
      IsLegal call.1 ∧ sanitize call.1 = call.1 ∧ send call.1 .noErr = .ok (some call.1)) ∧
    ∀ message : List UInt8, sanitize (sanitize message) = sanitize message ∧
      (sanitize message).length = message.length ∧ (sanitize message).head? = message.head? ∧
      ∀ status, message.head? = some status → IsChannelVoice status →
        ∀ b ∈ (sanitize message).tail, b < 0x80 := by
  intro first calls
  refine ⟨published_run T options errorName usb first inputs, fun call hcall => ?_, fun message =>
    ⟨sanitize_idem message, length_sanitize message, head?_sanitize message,
      fun status hstatus hvoice => ?_⟩⟩
  · have hlegal := runCalls_legal T options errorName usb _ inputs call hcall
    refine ⟨hlegal, hlegal.sanitize, ?_⟩
    have hne : call.1.isEmpty = false := by
      rcases hlegal with ⟨status, controller, value, hbytes, -⟩ | ⟨data, -, hbytes⟩
      · rw [hbytes]
        rfl
      · rw [hbytes]
        rfl
    simp only [send, hne, Bool.false_eq_true, if_false, hlegal.sanitize]
  · cases message with
    | nil => cases hstatus
    | cons first data =>
      obtain rfl := Option.some.inj hstatus
      exact sanitize_data hvoice data

end Bridge
