import S4Bridge.Bridge.Proof.Reads

/-!
# Feedback while the bridge connects

CoreMIDI may call the callback between any two steps of the device object. `Event`s interleave the
states a run of the bridge goes through with the messages delivered, each handled in one step. The
callback lets a message pass when the device is open and not known to be gone; what that says about
`s4_mk1_init` follows from what holds of the device at every moment (`Sound`). A handle is open, and
`disconnected` false, from `libusb_open` on, so a message is written before the device is ready
exactly if one arrives between `libusb_open` and the end of `s4_mk1_init`, or before the next attempt
where one of the two has failed (`gate_iff`).
-/

namespace Bridge

open Device Startup Protocol

/-! ## Interleavings -/

/-- One step of the whole program after `CoreMidiBridge` is there. -/
inductive Event
  /-- The device object comes to this state. -/
  | moved (host : Host)
  /-- A message comes, and a write of its payload would end so. -/
  | message (bytes : List UInt8) (transfer : Transferred)

def Event.host? : Event → Option Host
  | .moved host => some host
  | .message _ _ => none

/-- A call of the callback: the state it finds, its message and what it hands to libusb. -/
structure Delivery where
  host : Host
  bytes : List UInt8
  written : List (List UInt8)

variable (errorName : Int → String) (usb : UsbOptions)

/-- The callback as one step: what it hands to libusb for the device's output endpoint. -/
def deliverFeedback (host : Host) (protocol : S4GenericProtocol) (bytes : List UInt8)
    (transfer : Transferred) : S4GenericProtocol × Delivery :=
  let fed := (feedback errorName usb host.device ⟨protocol, []⟩ bytes ⟨false, transfer⟩).1
  let handed := fed.attempts.filterMap fun payload =>
    (writeOutput errorName usb host.device payload transfer).1
  (fed.protocol, ⟨host, bytes, handed⟩)

/-- The device object and the protocol object, as the callback finds them. -/
def gate : Machine (Host × S4GenericProtocol) Event (Option Delivery) where
  step
    | (_, protocol), .moved host => ((host, protocol), none)
    | (host, protocol), .message bytes transfer =>
      let (protocol, delivery) := deliverFeedback errorName usb host protocol bytes transfer
      ((host, protocol), some delivery)

def deliveries (host : Host) (protocol : S4GenericProtocol) (events : List Event) :
    List Delivery :=
  ((gate errorName usb).outs (host, protocol) events).filterMap id

/-! ## The gate -/

/-- The last successful `libusb_open` was followed by all of `open` and `s4_mk1_init`. -/
def Initialized (host : Host) : Prop :=
  ∃ e ∈ Ledger.newest host.handles, e.data.initialized = true

/-- The handle is open, and `open` or `s4_mk1_init` has not completed on it. -/
def HalfOpen (host : Host) : Prop :=
  ∃ e ∈ Ledger.newest host.handles, e.releases = 0 ∧ e.data.initialized = false

instance (host : Host) : Decidable (Initialized host) := Option.decidableExistsMem _

instance (host : Host) : Decidable (HalfOpen host) := Option.decidableExistsMem _

theorem Initialized.not_halfOpen {host : Host} (h : Initialized host) : ¬ HalfOpen host := by
  obtain ⟨e, he, hinit⟩ := h
  rintro ⟨e', he', -, hnot⟩
  rw [Option.mem_unique he he', hnot] at hinit
  cases hinit

/-- When the callback hands something to libusb. -/
theorem written_ne_nil (host : Host) (protocol : S4GenericProtocol) (bytes : List UInt8)
    (transfer : Transferred) :
    (deliverFeedback errorName usb host protocol bytes transfer).2.written ≠ [] ↔
      host.device.handle ≠ none ∧ host.device.disconnected = false ∧
        usb.outputEndpoint ≠ 0 ∧ IsLedOut bytes := by
  by_cases hopen : host.device.handle = none
  · simp [deliverFeedback, feedback, hopen]
  by_cases hconn : host.device.disconnected = true
  · simp [deliverFeedback, feedback, hconn]
  rw [Bool.not_eq_true] at hconn
  have hfed : (feedback errorName usb host.device ⟨protocol, []⟩ bytes ⟨false, transfer⟩).1.attempts =
      (encodeOutput protocol bytes).2.toList := by
    rw [feedback_open errorName usb hopen hconn]
    rfl
  have hled : IsLedOut bytes ↔ (encodeOutput protocol bytes).2 ≠ none := by
    rw [Option.ne_none_iff_exists']
    exact exists_congr fun payload => (encodeOutput_eq_some protocol bytes payload).symm
  rw [hled]
  simp only [deliverFeedback, hfed]
  by_cases hout : usb.outputEndpoint = 0
  · have hnone : ∀ payload, (writeOutput errorName usb host.device payload transfer).1 = none := by
      intro payload
      unfold writeOutput
      rw [if_pos hout]
      split <;> rfl
    simp [hnone, hout]
  · cases (encodeOutput protocol bytes).2 with
    | none => simp
    | some payload => simp [writeOutput_open errorName usb hopen hout, hopen, hconn, hout]

/-- At a moment of the device object, the callback writes before the device is ready only if the
handle is half open. -/
theorem written_iff {host : Host} (hsound : Sound host) (protocol : S4GenericProtocol)
    (bytes : List UInt8) (transfer : Transferred) :
    ((deliverFeedback errorName usb host protocol bytes transfer).2.written ≠ [] →
      Initialized host) ↔
    (IsLedOut bytes → usb.outputEndpoint ≠ 0 → ¬ HalfOpen host) := by
  obtain ⟨list, config, hmoment⟩ := hsound
  rw [written_ne_nil]
  constructor
  · intro h hled hout hhalf
    obtain ⟨e, he, hheld, hnot⟩ := hhalf
    have hopen : host.device.handle ≠ none := by
      intro hnone
      have hsettled := hmoment.handles
      rw [hnone] at hsettled
      have hreleased := hsettled.returned e (List.mem_of_getLast? he)
      omega
    have hconn : host.device.disconnected = false := by
      by_contra hgone
      obtain ⟨id, hid⟩ := Option.ne_none_iff_exists'.1 hopen
      obtain ⟨e', he'⟩ := hmoment.exists_current hid
      have hinit := hmoment.gone (by simpa using hgone) e' he'
      rw [Option.mem_unique he (hmoment.current_eq he').2, hinit] at hnot
      cases hnot
    exact (h ⟨hopen, hconn, hout, hled⟩).not_halfOpen ⟨e, he, hheld, hnot⟩
  · rintro h ⟨hopen, -, hout, hled⟩
    obtain ⟨id, hid⟩ := Option.ne_none_iff_exists'.1 hopen
    obtain ⟨e, he⟩ := hmoment.exists_current hid
    obtain ⟨hheld, hnewest⟩ := hmoment.current_eq he
    refine ⟨e, hnewest, ?_⟩
    by_contra hnot
    exact h hled hout ⟨e, hnewest, hheld, by simpa using hnot⟩

/-! ## Runs -/

/-- Every call of the callback is one of `deliverFeedback`, at a state of the device object. -/
theorem deliveries_sound {host : Host} (hhost : Sound host) (protocol : S4GenericProtocol)
    {events : List Event} (hmoved : ∀ host ∈ events.filterMap Event.host?, Sound host) :
    ∀ d ∈ deliveries errorName usb host protocol events, Sound d.host ∧
      ∃ protocol transfer, d = (deliverFeedback errorName usb d.host protocol d.bytes transfer).2 := by
  have houts := (Machine.invariant (gate errorName usb) (I := fun s => Sound s.1)
    (P := fun out => ∀ d, out = some d → Sound d.host ∧
      ∃ protocol transfer, d = (deliverFeedback errorName usb d.host protocol d.bytes transfer).2)
    events (fun s event hevent hs => by
      cases event with
      | moved host =>
        exact ⟨hmoved host (List.mem_filterMap.2 ⟨_, hevent, rfl⟩), fun d h => (by cases h)⟩
      | message bytes transfer =>
        refine ⟨hs, fun d h => ?_⟩
        obtain rfl := Option.some.inj h
        exact ⟨hs, s.2, transfer, rfl⟩) (s := (host, protocol)) hhost).2
  intro d hd
  obtain ⟨out, hout, hsome⟩ := List.mem_filterMap.1 hd
  exact houts out hout d hsome

variable (T : Tables) (options : AppOptions)

/-- **The gate**: from the moment `CoreMidiBridge` is there, and however messages and steps of the
device object interleave, every payload is written to a device that is ready exactly if no LED-out
message comes while a handle is open that is not (or there is no output endpoint). -/
theorem gate_iff (start : StartInput) (inputs : List LoopInput) (events : List Event)
    (hevents : events.filterMap Event.host? =
      ((hotswap errorName T options usb).final
        (runBridgeStart errorName options usb start) inputs).world.moments.drop
        (runBridgeStart errorName options usb start).world.moments.length) :
    let first := runBridgeStart errorName options usb start
    let calls := deliveries errorName usb first.world.now first.loop.protocol events
    (∀ d ∈ calls, d.written ≠ [] → Initialized d.host) ↔
      ∀ d ∈ calls, IsLedOut d.bytes → usb.outputEndpoint ≠ 0 → ¬ HalfOpen d.host := by
  intro first calls
  have hsound := (run_sound errorName T options usb start inputs).1.holds.always
  have hfirst : Sound first.world.now := (runBridgeStart_sound start).holds.always.1
  have hmoved : ∀ host ∈ events.filterMap Event.host?, Sound host := by
    intro host hhost
    rw [hevents] at hhost
    exact hsound.of_mem_moments (List.mem_of_mem_drop hhost)
  have hcalls : ∀ d ∈ calls, _ := deliveries_sound errorName usb hfirst first.loop.protocol hmoved
  refine forall₂_congr fun d hd => ?_
  obtain ⟨hhost, protocol, transfer, heq⟩ := hcalls d hd
  have hiff := written_iff errorName usb hhost protocol d.bytes transfer
  rw [← heq] at hiff
  exact hiff

/-- An LED-out message for one LED. -/
def ledMessage : Event := .message [0xF0, 0x7D, 0x53, 0x34, 0x0D, 0x1F, 0xF7] ⟨.ok, [0x0D, 0x1F]⟩

/-- The main loop is reached and the message comes. -/
theorem gate_iff_ready :
    let first := runBridgeStart (fun _ => "") ⟨0, 0, .byte, false⟩ s4Usb smoothStart
    let calls := deliveries (fun _ => "") s4Usb first.world.now first.loop.protocol
      [ledMessage]
    (∀ d ∈ calls, d.written ≠ [] → Initialized d.host) ∧
      calls.map (·.written) = [[[0x0D, 0x1F]]] := by
  intro first calls
  refine ⟨(gate_iff (fun _ => "") s4Usb .shipped ⟨0, 0, .byte, false⟩ smoothStart [] _ ?_).2 ?_, ?_⟩
  · exact List.drop_length.symm
  · decide +kernel
  · decide +kernel

/-- The device goes and comes back, but its interface cannot be claimed: the handle stays open, and
a message that comes before the next attempt is written. -/
theorem not_gate_busy :
    ¬ ∀ (errorName : Int → String) (usb : UsbOptions) (T : Tables) (options : AppOptions)
      (start : StartInput), (runBridgeStart errorName options usb start).phase = .looping →
      ∀ (inputs : List LoopInput) (events : List Event), events.filterMap Event.host? =
        ((hotswap errorName T options usb).final
          (runBridgeStart errorName options usb start) inputs).world.moments.drop
          (runBridgeStart errorName options usb start).world.moments.length →
      let first := runBridgeStart errorName options usb start
      ∀ d ∈ deliveries errorName usb first.world.now first.loop.protocol events,
        d.written ≠ [] → Initialized d.host := by
  intro h
  let busy : ConnectAttempt := ⟨false, { smoothOpen [⟨some (0x17CC, 0xBAFF)⟩] [] with
    claimRc := ⟨-6, by decide⟩ }, smoothCall⟩
  let inputs : List LoopInput :=
    [⟨false, [], ⟨⟨-4, by decide⟩, []⟩, [busy], .noErr, fun _ => .noErr⟩]
  let first := runBridgeStart (fun _ => "") ⟨0, 0, .byte, false⟩ s4Usb smoothStart
  let states := ((hotswap (fun _ => "") .shipped ⟨0, 0, .byte, false⟩ s4Usb).final first
    inputs).world.moments.drop first.world.moments.length
  have hstates : (states.map Event.moved ++ [ledMessage]).filterMap Event.host? = states := by
    rw [List.filterMap_append, List.filterMap_map]
    exact (List.append_nil _).trans List.filterMap_some
  exact absurd (h (fun _ => "") s4Usb .shipped ⟨0, 0, .byte, false⟩ smoothStart
    (by decide +kernel) inputs _ hstates) (by decide +kernel)

end Bridge
