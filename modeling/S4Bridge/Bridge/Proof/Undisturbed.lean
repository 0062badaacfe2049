import S4Bridge.Bridge.Proof.Combined
import S4Bridge.Bridge.Proof.Legal
import S4Bridge.Bridge.Proof.Reads
import S4Bridge.Lib.Lists

/-!
# The bridge without its troubles

What a run of the whole bridge publishes is what its main loop would publish of the packets it was
handed, had the device never been gone and no feedback come (`published_undisturbed`): timeouts,
disconnects, reconnects and feedback leave no trace in the MIDI stream. Feedback changes the protocol
object it shares with the loop only in that a warning has been given, which decoding does not read
(`unwarned`). Of the bytes the device sends, those that come with a code other than 0 are not handed
on (`handed_iff`).
-/

namespace Protocol

/-- The object as if no warning had been given. -/
def S4GenericProtocol.unwarned (p : S4GenericProtocol) : S4GenericProtocol :=
  { p with warnedAboutLedProtocol := false }

theorem unwarned_encodeOutput (p : S4GenericProtocol) (message : List UInt8) :
    (encodeOutput p message).1.unwarned = p.unwarned := by
  unfold encodeOutput
  simp only
  split
  · split <;> rfl
  · rfl

theorem decodeInput_unwarned (T : Tables) (p : S4GenericProtocol) (report : List UInt8) :
    decodeInput T p.unwarned report =
      ((decodeInput T p report).1.unwarned, (decodeInput T p report).2) := by
  unfold decodeInput
  cases hprevious : p.previousReport.isEmpty with
  | true =>
    have hsame : p.unwarned.previousReport.isEmpty = true := hprevious
    rw [if_pos hsame, if_pos rfl]
    rfl
  | false =>
    have hsame : ¬ p.unwarned.previousReport.isEmpty = true := by
      show ¬ p.previousReport.isEmpty = true
      simp [hprevious]
    rw [if_neg hsame, if_neg (by simp)]
    rfl

end Protocol

namespace Bridge

open Device Protocol

variable {errorName : Int → String} {T : Tables} {options : AppOptions} {usb : UsbOptions}

/-! ## Feedback -/

theorem unwarned_feedback (errorName : Int → String) (usb : UsbOptions) (device : UsbDevice)
    (s : FeedbackState) (message : List UInt8) (env : WriteEnv) :
    (feedback errorName usb device s message env).1.protocol.unwarned = s.protocol.unwarned := by
  have hencode := unwarned_encodeOutput s.protocol message
  unfold feedback
  split
  · rfl
  · split
    · rename_i h
      rw [h] at hencode
      exact hencode
    · rename_i h
      rw [h] at hencode
      simp only
      split <;> exact hencode

theorem unwarned_readPackets (errorName : Int → String) (usb : UsbOptions) (device : UsbDevice)
    (s : FeedbackState) (packets : List (List UInt8 × WriteEnv)) :
    (readPackets errorName usb device s packets).1.protocol.unwarned = s.protocol.unwarned := by
  induction packets generalizing s with
  | nil => rfl
  | cons packet packets ih =>
    have hone := unwarned_feedback errorName usb device s packet.1 packet.2
    rw [readPackets]
    split
    · rename_i h
      rw [h] at hone
      exact hone
    · rename_i h
      rw [h] at hone
      rw [ih, hone]

theorem unwarned_readProcs (errorName : Int → String) (usb : UsbOptions) (device : UsbDevice)
    (s : FeedbackState) (lists : List (List (List UInt8 × WriteEnv))) :
    (readProcs errorName usb device s lists).1.protocol.unwarned = s.protocol.unwarned := by
  induction lists generalizing s with
  | nil => rfl
  | cons packets lists ih =>
    have hone : (readProc errorName usb device s packets).1.protocol.unwarned =
        s.protocol.unwarned := by
      have hpackets := unwarned_readPackets errorName usb device s packets
      unfold readProc
      split
      · rfl
      · split
        · rename_i h
          rw [h] at hpackets
          exact hpackets
        · rename_i h
          rw [h] at hpackets
          exact hpackets
    rw [readProcs]
    split
    · rename_i h
      rw [h] at hone
      exact hone
    · rename_i h
      rw [h] at hone
      rw [ih, hone]

/-! ## Iterations -/

/-- The loop's state as if no warning had been given. -/
def RunBridge.unwarned (s : RunBridge) : RunBridge := { s with protocol := s.protocol.unwarned }

theorem iterate_unwarned (T : Tables) (options : AppOptions) (s : RunBridge) (it : Iteration) :
    iterate T options s.unwarned it =
      ((iterate T options s it).1.unwarned, (iterate T options s it).2) := by
  by_cases hend : s.ending = none
  · by_cases hpacket : it.packet = []
    · unfold iterate
      cases hread : it.read with
      | packet bytes =>
        have hnil : bytes = [] := by simpa [Iteration.packet, hread] using hpacket
        simp [RunBridge.unwarned, hend, hnil]
      | disconnected => cases hconn : it.connected <;> simp [RunBridge.unwarned, hend]
      | threw what => simp [RunBridge.unwarned, hend]
    · have hend' : s.unwarned.ending = none := hend
      have hdecode := decodeInput_unwarned T s.protocol it.packet
      rw [iterate_packet hend' hpacket, iterate_packet hend hpacket]
      show (RunBridge.mk (decodeInput T s.protocol.unwarned it.packet).1 _ _, Published.mk _ _) = _
      simp only [RunBridge.unwarned, hdecode]
  · have hsome : s.ending.isSome = true := Option.isSome_iff_ne_none.2 hend
    have hsome' : s.unwarned.ending.isSome = true := hsome
    unfold iterate
    rw [if_pos hsome, if_pos hsome']

/-- An iteration without a packet changes nothing but how the run ends. -/
theorem iterate_idle (T : Tables) (options : AppOptions) (s : RunBridge) {it : Iteration}
    (hpacket : it.packet = []) :
    (iterate T options s it).2 = .nothing ∧
      (iterate T options s it).1.protocol = s.protocol ∧
      ((iterate T options s it).1.ending = none → (iterate T options s it).1 = s) := by
  refine ⟨(iterate_quiet options fun h => h.2 hpacket).1, ?_⟩
  unfold iterate
  split
  · exact ⟨rfl, fun _ => rfl⟩
  · cases hread : it.read with
    | packet bytes =>
      have hnil : bytes = [] := by simpa [Iteration.packet, hread] using hpacket
      simp [hnil]
    | disconnected => cases it.connected <;> simp
    | threw what => simp

/-! ## Turns -/

/-- The iteration of an undisturbed loop that answers to a turn: the turn handed over a packet, and
the loop's messages meet what they met there. -/
def undisturbed (x : LoopInput) (out : LoopOutput) : Option Iteration :=
  match out.read with
  | none => none
  | some call =>
    if call.handed.isEmpty then none
    else some ⟨.packet call.handed, true, x.sysexOutcome, x.ccOutcome⟩

/-- A turn that went from `loop` to `next` and answered with `out` is an iteration of the
undisturbed loop, or nothing. -/
structure Answers (T : Tables) (options : AppOptions) (loop : RunBridge) (x : LoopInput)
    (next : BridgeRun) (out : LoopOutput) : Prop where
  published : out.published =
    ((undisturbed x out).map fun it => (iterate T options loop.unwarned it).2).getD .nothing
  state : next.phase = .looping → next.loop.ending = none ∧ next.loop.unwarned =
    ((undisturbed x out).map fun it => (iterate T options loop.unwarned it).1).getD loop.unwarned

theorem Answers.nothing {loop : RunBridge} {x : LoopInput} {next : BridgeRun}
    {read : Option ReadCall} (hread : ∀ call, read = some call → call.handed = [])
    (hnext : next.phase = .looping → next.loop = loop ∧ loop.ending = none) :
    Answers T options loop x next ⟨read, .nothing⟩ := by
  have hnone : undisturbed x ⟨read, .nothing⟩ = none := by
    unfold undisturbed
    cases read with
    | none => rfl
    | some call => simp [hread call rfl]
  refine ⟨by rw [hnone]; rfl, fun h => ?_⟩
  obtain ⟨hloop, hend⟩ := hnext h
  rw [hnone, hloop]
  exact ⟨hend, rfl⟩

theorem finishTurn_answers {loop : RunBridge} {w w' : History Host} {x : LoopInput}
    {it : Iteration} (hit : it.packet ≠ [] → it = ⟨.packet it.packet, true, x.sysexOutcome, x.ccOutcome⟩) :
    Answers T options loop x
      (finishTurn T options w loop (ReadCall.mk w'.now x.transfer) it).1
      (finishTurn T options w loop (ReadCall.mk w'.now x.transfer) it).2 := by
  have hnext : (finishTurn T options w loop (ReadCall.mk w'.now x.transfer) it).1.phase = .looping →
      (iterate T options loop it).1.ending = none ∧
      (finishTurn T options w loop (ReadCall.mk w'.now x.transfer) it).1.loop =
        (iterate T options loop it).1 := by
    unfold finishTurn
    simp only
    split
    · rename_i hnone
      exact fun _ => ⟨hnone, rfl⟩
    · exact fun h => (by cases h)
    · exact fun h => (by cases h)
  rw [finishTurn_out]
  by_cases hpacket : it.packet = []
  · obtain ⟨hout, -, hsame⟩ := iterate_idle T options loop hpacket
    rw [hout]
    refine .nothing (fun call h => ?_) fun h => ?_
    · rw [← Option.some.inj h]
      exact hpacket
    · obtain ⟨hnone, hloop⟩ := hnext h
      exact ⟨hloop.trans (hsame hnone), hsame hnone ▸ hnone⟩
  · have hsome : undisturbed x ⟨some ⟨w'.now, x.transfer, it.packet⟩,
        (iterate T options loop it).2⟩ = some it := by
      unfold undisturbed
      simp only
      rw [if_neg (by simpa using hpacket), ← hit hpacket]
    refine ⟨?_, fun h => ?_⟩
    · rw [hsome]
      show _ = (iterate T options loop.unwarned it).2
      rw [iterate_unwarned]
    · obtain ⟨hnone, hloop⟩ := hnext h
      rw [hsome, hloop]
      show _ ∧ _ = (iterate T options loop.unwarned it).1
      rw [iterate_unwarned]
      exact ⟨hnone, rfl⟩

theorem readTurn_answers (w : History Host) (loop : RunBridge) (x : LoopInput) :
    Answers T options loop x (readTurn errorName T options usb w loop x).1
      (readTurn errorName T options usb w loop x).2 := by
  cases hread : readInput errorName usb w.now.device x.transfer with
  | mk device result =>
    by_cases hgone : readResult device result = .disconnected
    · rcases readTurn_gone_cases hread hgone with hturn | ⟨exit, -, -, hturn⟩
      · rw [hturn]
        refine .nothing (fun call h => ?_) fun h => (by cases h)
        rw [← Option.some.inj h]
      · rw [hturn]
        exact finishTurn_answers fun h => absurd rfl h
    · rw [readTurn_read hread hgone]
      refine finishTurn_answers fun h => ?_
      cases hresult : readResult device result with
      | packet bytes => rfl
      | disconnected => exact absurd hresult hgone
      | threw what =>
        rw [hresult] at h
        exact absurd rfl h

/-- **One turn**: it publishes what the undisturbed loop does of the packet handed over, if any. -/
theorem hotswapStep_answers (errorName : Int → String) (T : Tables) (options : AppOptions)
    (usb : UsbOptions) (s : BridgeRun) (x : LoopInput) :
    ∃ loop, loop.unwarned = s.loop.unwarned ∧
      Answers T options loop x (hotswapStep errorName T options usb s x).1
        (hotswapStep errorName T options usb s x).2 := by
  have hquiet : ∀ next : BridgeRun, next.phase ≠ .looping →
      Answers T options s.loop x next .nothing := fun next hnext =>
    .nothing (fun call h => (by cases h)) fun h => absurd h hnext
  unfold hotswapStep
  split
  · rename_i hphase
    simp only
    split
    · exact ⟨s.loop, rfl, hquiet _ (by simp [leave])⟩
    · have hfed := unwarned_readProcs errorName usb
        (lookAtRunning s.world x.signalled).now.device ⟨s.loop.protocol, []⟩ x.feedback
      split
      · exact ⟨s.loop, rfl, hquiet _ (by simp [leave])⟩
      · rename_i fed heq
        rw [heq] at hfed
        refine ⟨{ s.loop with protocol := fed.protocol }, ?_, readTurn_answers _ _ x⟩
        show RunBridge.mk fed.protocol.unwarned _ _ = RunBridge.mk s.loop.protocol.unwarned _ _
        rw [hfed]
  · rename_i hphase
    exact ⟨s.loop, rfl, hquiet _ hphase⟩

/-! ## Runs -/

/-- The iterations of the undisturbed loop that answer to a run. -/
def undisturbedRun (inputs : List LoopInput) (outs : List LoopOutput) : List Iteration :=
  (inputs.zip outs).filterMap fun turn => undisturbed turn.1 turn.2

variable (errorName : Int → String) (T : Tables) (options : AppOptions) (usb : UsbOptions)

/-- After the loop nothing more answers. -/
theorem idle_undisturbed {s : BridgeRun} (h : s.phase ≠ .looping) (inputs : List LoopInput) :
    ((hotswap errorName T options usb).outs s inputs).flatMap (·.published.messages) = [] ∧
      undisturbedRun inputs ((hotswap errorName T options usb).outs s inputs) = [] := by
  induction inputs with
  | nil => exact ⟨rfl, rfl⟩
  | cons x inputs ih =>
    have hstep : (hotswap errorName T options usb).step s x = (s, .nothing) :=
      hotswapStep_idle errorName T options usb h x
    rw [Machine.outs_cons, hstep]
    exact ih

/-- A run from a state of the main loop, and the undisturbed run from the same state. -/
theorem run_undisturbed {s : BridgeRun} (hs : s.phase = .looping) (inputs : List LoopInput) :
    let outs := (hotswap errorName T options usb).outs s inputs
    let last := (hotswap errorName T options usb).final s inputs
    let its := undisturbedRun inputs outs
    outs.flatMap (·.published.messages) =
        ((bridge T options).outs s.loop.unwarned its).flatMap (·.messages) ∧
      (last.phase = .looping →
        last.loop.unwarned = (bridge T options).final s.loop.unwarned its) := by
  induction inputs generalizing s with
  | nil => exact ⟨rfl, fun _ => rfl⟩
  | cons x inputs ih =>
    obtain ⟨loop, hloop, hpublished, hstate⟩ :=
      hotswapStep_answers errorName T options usb s x
    rw [hloop] at hpublished hstate
    have hstep : (hotswap errorName T options usb).step s x =
      hotswapStep errorName T options usb s x := rfl
    simp only [Machine.outs_cons, Machine.final_cons, hstep]
    generalize hotswapStep errorName T options usb s x = turn at hpublished hstate
    obtain ⟨next, out⟩ := turn
    simp only at hpublished hstate ⊢
    -- the turn's own iteration, if it has one, comes first
    have hits : ∀ outs, undisturbedRun (x :: inputs) (out :: outs) =
        (undisturbed x out).toList ++ undisturbedRun inputs outs := by
      intro outs
      unfold undisturbedRun
      rw [List.zip_cons_cons, List.filterMap_cons]
      cases undisturbed x out <;> rfl
    rw [hits, List.flatMap_cons, hpublished]
    by_cases hnext : next.phase = .looping
    · obtain ⟨hrest, hlast⟩ := ih hnext
      obtain ⟨-, hsame⟩ := hstate hnext
      rw [hsame] at hrest hlast
      cases hanswer : undisturbed x out with
      | none =>
        rw [hanswer] at hrest hlast
        exact ⟨hrest, hlast⟩
      | some it =>
        rw [hanswer] at hrest hlast
        exact ⟨congrArg (Published.messages _ ++ ·) hrest, hlast⟩
    · obtain ⟨hrest, hnone⟩ := idle_undisturbed errorName T options usb hnext inputs
      have hend := (idle_run errorName T options usb hnext inputs).1
      rw [hrest, hnone, hend]
      refine ⟨?_, fun h => absurd h hnext⟩
      cases undisturbed x out <;> simp [Published.messages, Published.nothing, bridge]

theorem loop_runBridgeStart (start : StartInput) :
    (runBridgeStart errorName options usb start).loop = .start options := by
  unfold runBridgeStart
  simp only
  split
  · rfl
  · split
    · rfl
    · rfl
    · split <;> rfl
    · rfl

/-- What a whole run publishes, and the undisturbed one. -/
theorem run_published (start : StartInput) (inputs : List LoopInput) :
    let first := runBridgeStart errorName options usb start
    let outs := (hotswap errorName T options usb).outs first inputs
    outs.flatMap (·.published.messages) = ((bridge T options).outs (.start options)
      (undisturbedRun inputs outs)).flatMap (·.messages) := by
  intro first outs
  by_cases hfirst : first.phase = .looping
  · have hrun := (run_undisturbed errorName T options usb hfirst inputs).1
    rwa [loop_runBridgeStart] at hrun
  · obtain ⟨hnothing, hnone⟩ := idle_undisturbed errorName T options usb hfirst inputs
    rw [show undisturbedRun inputs outs = [] from hnone]
    exact hnothing

/-- **Troubles leave no trace**: over every run of the whole bridge, the messages published are those
of the undisturbed loop on the packets handed over, and while the run goes on its protocol object and
the last frame are those of that loop but for the warning. -/
theorem published_undisturbed (start : StartInput) (inputs : List LoopInput) :
    let first := runBridgeStart errorName options usb start
    let outs := (hotswap errorName T options usb).outs first inputs
    let last := (hotswap errorName T options usb).final first inputs
    let its := undisturbedRun inputs outs
    outs.flatMap (·.published.messages) =
        ((bridge T options).outs (.start options) its).flatMap (·.messages) ∧
      (last.phase = .looping →
        last.loop.unwarned = (bridge T options).final (.start options) its) := by
  intro first outs last its
  refine ⟨run_published errorName T options usb start inputs, fun hlast => ?_⟩
  by_cases hfirst : first.phase = .looping
  · have hrun := (run_undisturbed errorName T options usb hfirst inputs).2 hlast
    rwa [loop_runBridgeStart] at hrun
  · have hsame : last = first := (idle_run errorName T options usb hfirst inputs).1
    exact absurd (hsame ▸ hlast) hfirst

/-! ## The bytes -/

/-- The undisturbed loop reads the packets handed over. -/
theorem packets_undisturbedRun (inputs : List LoopInput) (outs : List LoopOutput)
    (hlen : outs.length = inputs.length) :
    (undisturbedRun inputs outs).map (·.packet) =
      ((outs.filterMap (·.read)).map (·.handed)).filter (· ≠ []) := by
  induction inputs generalizing outs with
  | nil =>
    obtain rfl := List.eq_nil_of_length_eq_zero hlen
    rfl
  | cons x inputs ih =>
    cases outs with
    | nil => cases hlen
    | cons out outs =>
      have hrest := ih outs (Nat.succ.inj hlen)
      unfold undisturbedRun at hrest ⊢
      rw [List.zip_cons_cons, List.filterMap_cons, List.filterMap_cons]
      cases hread : out.read with
      | none => simpa [undisturbed, hread] using hrest
      | some call =>
        by_cases hhanded : call.handed = []
        · simpa [undisturbed, hread, hhanded] using hrest
        · simpa [undisturbed, hread, hhanded, Iteration.packet] using hrest

/-- What is handed on of each transfer. -/
theorem handed_run {s : BridgeRun} (hs : RunSound usb s) (hsize : 0 < usb.reportSize)
    (inputs : List LoopInput) : ∀ call ∈ reads errorName T options usb s inputs,
      (call.transfer.rc.val = 0 ∧ call.handed = call.transfer.data) ∨
      (call.transfer.rc.val ≠ 0 ∧ call.handed = []) := by
  induction inputs generalizing s with
  | nil => exact fun call h => (by cases h)
  | cons x inputs ih =>
    by_cases hphase : s.phase = .looping
    · have hrest := ih (hotswapStep_sound errorName T options hs x).1
      rw [reads_cons]
      rcases hotswapStep_cases errorName T options hs hphase hsize x with
        ⟨hread, -, -⟩ | ⟨host, handed, hread, -, -, hleads⟩
      · rw [hread]
        exact hrest
      · rw [hread]
        refine List.forall_mem_cons.2 ⟨?_, hrest⟩
        cases hleads with
        | packet hrc _ => exact .inl ⟨hrc, rfl⟩
        | timeout hrc _ _ =>
          refine .inr ⟨?_, rfl⟩
          rw [hrc]
          decide
        | gone hrc _ =>
          refine .inr ⟨?_, rfl⟩
          rcases hrc with h | h
          · rw [h]
            decide
          · rw [h]
            decide
        | crashed hrc _ => exact .inr ⟨fun h => hrc (.inl h), rfl⟩
    · rw [(idle_run errorName T options usb hphase (x :: inputs)).2]
      exact fun call h => (by cases h)

/-- **The bytes received** all reach `decode_input` exactly if no transfer that returns an error has
transferred any: what the run publishes is what the undisturbed loop makes of the packets handed on. -/
theorem handed_iff (hsize : 0 < usb.reportSize) (start : StartInput) (inputs : List LoopInput) :
    let first := runBridgeStart errorName options usb start
    let calls := reads errorName T options usb first inputs
    let outs := (hotswap errorName T options usb).outs first inputs
    let its := undisturbedRun inputs outs
    its.map (·.packet) = (calls.map (·.handed)).filter (· ≠ []) ∧
    outs.flatMap (·.published.messages) =
      ((bridge T options).outs (.start options) its).flatMap (·.messages) ∧
    ((calls.map (·.handed)).flatten = (calls.map (·.transfer.data)).flatten ↔
      ∀ call ∈ calls, call.transfer.rc.val ≠ 0 → call.transfer.data = []) := by
  intro first calls outs its
  refine ⟨packets_undisturbedRun inputs outs (Machine.length_outs ..),
    run_published errorName T options usb start inputs, ?_⟩
  have hrun : ∀ call ∈ calls, _ :=
    handed_run errorName T options usb (runBridgeStart_sound start) hsize inputs
  rw [Lists.flatten_map_eq_iff fun call hcall => (hrun call hcall).imp And.right And.right]
  constructor
  · intro h call hcall hzero
    rcases hrun call hcall with ⟨hrc, -⟩ | ⟨-, hnil⟩
    · exact absurd hrc hzero
    · exact (h call hcall).symm.trans hnil
  · intro h call hcall
    rcases hrun call hcall with ⟨-, hdata⟩ | ⟨hzero, hnil⟩
    · exact hdata
    · exact hnil.trans (h call hcall hzero).symm

/-- A packet and a timeout without data. -/
theorem handed_iff_packet :
    let calls := reads (fun _ => "") .shipped ⟨0, 0, .byte, false⟩ s4Usb
      (runBridgeStart (fun _ => "") ⟨0, 0, .byte, false⟩ s4Usb smoothStart)
      [readsTransfer .ok [1, 2], readsTransfer ⟨-7, by decide⟩ []]
    (calls.map (·.handed)).flatten = (calls.map (·.transfer.data)).flatten :=
  (handed_iff (fun _ => "") .shipped ⟨0, 0, .byte, false⟩ s4Usb (by decide) smoothStart _).2.2.2
    (by decide +kernel)

/-- A timeout with data. -/
theorem not_handed_timeout :
    ¬ ∀ (errorName : Int → String) (T : Tables) (options : AppOptions) (usb : UsbOptions),
      0 < usb.reportSize → ∀ (start : StartInput) (inputs : List LoopInput),
      (∀ what, ((hotswap errorName T options usb).final
        (runBridgeStart errorName options usb start) inputs).phase ≠ .exited (.threw what)) →
      let calls := reads errorName T options usb (runBridgeStart errorName options usb start) inputs
      (calls.map (·.handed)).flatten = (calls.map (·.transfer.data)).flatten := by
  intro h
  have hlooping : ((hotswap (fun _ => "") .shipped ⟨0, 0, .byte, false⟩ s4Usb).final
      (runBridgeStart (fun _ => "") ⟨0, 0, .byte, false⟩ s4Usb smoothStart)
      [readsTransfer ⟨-7, by decide⟩ [5]]).phase = .looping := by decide +kernel
  have hlost := h (fun _ => "") .shipped ⟨0, 0, .byte, false⟩ s4Usb (by decide) smoothStart
    [readsTransfer ⟨-7, by decide⟩ [5]] (fun what hthrew => by cases hlooping.symm.trans hthrew)
  exact absurd hlost (by decide +kernel)

/-! ## The byte map -/

theorem reports_undisturbedRun (inputs : List LoopInput) (outs : List LoopOutput)
    (hlen : outs.length = inputs.length) :
    reports (undisturbedRun inputs outs) =
      ((outs.filterMap (·.read)).map (·.handed)).filter (· ≠ []) := by
  rw [reports, packets_undisturbedRun inputs outs hlen, List.filter_filter]
  simp only [Bool.and_self]

/-- An iteration of the undisturbed loop has the packet and the sends of a turn. -/
theorem mem_undisturbedRun {inputs : List LoopInput} {outs : List LoopOutput} {it : Iteration}
    (h : it ∈ undisturbedRun inputs outs) :
    ∃ x ∈ inputs, ∃ out ∈ outs, ∃ call, out.read = some call ∧ call.handed ≠ [] ∧
      it = ⟨.packet call.handed, true, x.sysexOutcome, x.ccOutcome⟩ := by
  obtain ⟨⟨x, out⟩, hturn, hanswer⟩ := List.mem_filterMap.1 h
  obtain ⟨hx, hout⟩ := List.of_mem_zip hturn
  unfold undisturbed at hanswer
  cases hread : out.read with
  | none =>
    simp only [hread] at hanswer
    cases hanswer
  | some call =>
    simp only [hread] at hanswer
    split at hanswer
    · cases hanswer
    · rename_i hhanded
      exact ⟨x, hx, out, hout, call, hread, by simpa using hhanded, (Option.some.inj hanswer).symm⟩

/-- Where every message is sent, the undisturbed loop meets no trouble. -/
theorem clean_undisturbedRun {n : Nat} {inputs : List LoopInput} {outs : List LoopOutput}
    (hsent : ∀ x ∈ inputs, x.sysexOutcome = .noErr ∧ ∀ k, x.ccOutcome k = .noErr)
    (hlength : ∀ call ∈ outs.filterMap (·.read), call.handed = [] ∨ call.handed.length = n) :
    ∀ it ∈ undisturbedRun inputs outs, Clean n it := by
  intro it hit
  obtain ⟨x, hx, out, hout, call, hread, -, rfl⟩ := mem_undisturbedRun hit
  have hmem : call ∈ outs.filterMap (·.read) := List.mem_filterMap.2 ⟨out, hout, hread⟩
  exact ⟨fun _ h => (by cases h), rfl, (hsent x hx).1, (hsent x hx).2, hlength call hmem⟩

open Gui in
/-- **The byte map follows the device through reconnects**: after a run of the whole bridge with both
feeds, no deadzone, packets of one length and no failed send, whatever went wrong with the device
meanwhile, each cell of the byte map, by itself or in the application, shows its byte of the last
packet, with the lowest bit cleared if the byte's 7-bit value moved at the last change. -/
theorem mirrored_through_troubles (mido : Mido) (base : UInt8) (hb : base < 16) (n : Nat)
    (hn : n ≤ 512) (start : StartInput) (inputs : List LoopInput)
    (hsent : ∀ x ∈ inputs, x.sysexOutcome = .noErr ∧ ∀ k, x.ccOutcome k = .noErr) :
    let options : AppOptions := ⟨base, 0, .byte, true⟩
    let first := runBridgeStart errorName options usb start
    let outs := (hotswap errorName .shipped options usb).outs first inputs
    let calls := reads errorName .shipped options usb first inputs
    let packets := (calls.map (·.handed)).filter (· ≠ [])
    let ms := outs.flatMap (·.published.messages)
    (∀ call ∈ calls, call.handed = [] ∨ call.handed.length = n) → packets ≠ [] →
      ∃ win, deliver mido ⟨some (.new .both), base.toNat + 1⟩ ms =
          .ok ⟨some win, base.toNat + 1⟩ ∧
        AppShows mido ⟨some (.new .both), base.toNat + 1⟩ ms ⟨some win, base.toNat + 1⟩ ∧
        ∀ i < n, win.data[i]? = some (if movedLast i packets then
          (packets.getLastD []).getD i 0 &&& 0xFE else (packets.getLastD []).getD i 0) := by
  intro options first outs calls packets ms hlength hne
  have hpackets : reports (undisturbedRun inputs outs) = packets :=
    reports_undisturbedRun inputs outs (Machine.length_outs ..)
  obtain ⟨win, hok, hsynced⟩ := deliver_synced_run mido hb hn (undisturbedRun inputs outs)
    (clean_undisturbedRun hsent hlength) (synced_start base n)
  rw [List.nil_append, hpackets] at hsynced
  rw [← run_published errorName .shipped options usb start inputs] at hok
  exact ⟨win, hok, appShows_of_deliver hok, fun i hi => hsynced.cells i hi hne⟩

/-- A turn in which the device is gone, not there at the first attempt, and back at the second; its
start-up goes as well as the first one did, whose transfers it finds in the table. -/
def replugged : LoopInput :=
  let found := smoothOpen [⟨some (0x17CC, 0xBAFF)⟩] [[⟨1, [⟨0x84, 2⟩, ⟨0x01, 2⟩]⟩]]
  let again (k : Nat) : Startup.CallEnv :=
    { Startup.smoothCall k with rounds := (Startup.smoothCall k).rounds.map fun round =>
      { round with completions := round.completions.map fun c => { c with id := c.id + 58 } } }
  ⟨false, [], ⟨⟨-4, by decide⟩, []⟩,
    [⟨false, smoothOpen [] [], Startup.smoothCall⟩, ⟨false, found, again⟩], .noErr, fun _ => .noErr⟩

theorem mirrored_through_troubles_replugged :
    let outs := (hotswap (fun _ => "") .shipped ⟨0, 0, .byte, true⟩ s4Usb).outs
      (runBridgeStart (fun _ => "") ⟨0, 0, .byte, true⟩ s4Usb smoothStart)
      [readsTransfer .ok [5], replugged, readsTransfer .ok [9]]
    ∃ win, Gui.deliver .standard ⟨some (.new .both), 1⟩ (outs.flatMap (·.published.messages)) =
        .ok ⟨some win, 1⟩ ∧ win.data[0]? = some 8 := by
  intro outs
  obtain ⟨win, hok, -, hcells⟩ := mirrored_through_troubles (fun _ => "") s4Usb .standard 0 (by decide)
    1 (by decide) smoothStart [readsTransfer .ok [5], replugged, readsTransfer .ok [9]]
    (by simp [readsTransfer, replugged]) (by decide +kernel) (by decide +kernel)
  exact ⟨win, hok, (hcells 0 (by decide)).trans (by decide +kernel)⟩

end Bridge
