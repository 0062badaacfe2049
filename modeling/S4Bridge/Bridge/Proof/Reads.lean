import S4Bridge.Bridge.Proof.Handles
import S4Bridge.Bridge.Proof.Publish
import S4Bridge.Startup.Proof.Lifecycle

/-!
# What becomes of the transfers

`hotswapStep_cases` says once what a turn makes of the transfer it reads: a packet, nothing, a new
connection, or an exception that leaves `run_bridge`. So the bridge survives exactly the codes
`read_input` knows (`trouble_iff`).
-/

namespace Bridge

open Device Startup Protocol

variable {errorName : Int → String} {T : Tables} {options : AppOptions} {usb : UsbOptions}

/-! ## Feedback never ends the process -/

theorem readProcs_ok (errorName : Int → String) (usb : UsbOptions) (device : UsbDevice)
    (s : FeedbackState) (lists : List (List (List UInt8 × WriteEnv))) :
    (readProcs errorName usb device s lists).2 = .ok () := by
  induction lists generalizing s with
  | nil => rfl
  | cons packets lists ih =>
    have hproc : (readProc errorName usb device s packets).2 = .ok () := by
      unfold readProc
      split
      · rfl
      · split <;> rfl
    rw [readProcs]
    split
    · rename_i hthrew
      rw [hthrew] at hproc
      cases hproc
    · exact ih _

/-! ## One transfer -/

/-- The codes `read_input` does not throw at. -/
def Survivable (rc : Int) : Prop :=
  rc = 0 ∨ rc = libusbErrorTimeout ∨ rc = libusbErrorNoDevice ∨ rc = libusbErrorIo

instance (rc : Int) : Decidable (Survivable rc) := inferInstanceAs (Decidable (_ ∨ _))

theorem readInput_open (errorName : Int → String) {device : UsbDevice}
    (hopen : device.handle ≠ none) (hsize : 0 < usb.reportSize) (transfer : Transferred) :
    readInput errorName usb device transfer =
      if transfer.rc.val = libusbErrorTimeout then (device, .ok [])
      else if transfer.rc.val = libusbErrorNoDevice ∨ transfer.rc.val = libusbErrorIo then
        ({ device with disconnected := true }, .ok [])
      else if transfer.rc.val < 0 then
        (device, .error (checkMessage errorName "USB input transfer failed" transfer.rc))
      else (device, .ok transfer.data) := by
  have hsome : device.handle.isNone = false := by
    rw [Option.isNone_eq_false_iff, Option.isSome_iff_ne_none]
    exact hopen
  unfold readInput
  rw [hsome, if_neg (by decide), if_neg (by omega)]

/-- Where a transfer leads: what it hands to `decode_input`, and the state after the turn. -/
inductive Leads (usb : UsbOptions) (x : LoopInput) (before : Host) :
    List UInt8 → BridgeRun → Prop
  | packet {next : BridgeRun} : x.transfer.rc.val = 0 →
      (next.phase = .looping ∧ next.world.now.device.handle = before.device.handle) ∨
        (∃ what, next.phase = .exited (.threw what)) ∧ (∃ k, x.ccOutcome k ≠ .noErr) →
      Leads usb x before x.transfer.data next
  | timeout {next : BridgeRun} : x.transfer.rc.val = libusbErrorTimeout →
      next.phase = .looping → next.world.now.device.handle = before.device.handle →
      Leads usb x before [] next
  | gone {next : BridgeRun} :
      x.transfer.rc.val = libusbErrorNoDevice ∨ x.transfer.rc.val = libusbErrorIo →
      (next.phase = .looping ∧
        ReadySince usb.interfaceNumber before.handles.length next.world.now) ∨
      next.phase = .connecting ∨
      (next.phase = .exited (.returned 0) ∧ next.world.now.running = false) →
      Leads usb x before [] next
  | crashed {next : BridgeRun} : ¬ Survivable x.transfer.rc.val →
      (∃ what, next.phase = .exited (.threw what)) → Leads usb x before [] next

/-! ## The end of a turn -/

theorem finishTurn_none {w : History Host} {loop : RunBridge} {it : Iteration}
    (h : (iterate T options loop it).1.ending = none) (call : List UInt8 → ReadCall) :
    (finishTurn T options w loop call it).1.phase = .looping ∧
      (finishTurn T options w loop call it).1.world = w := by
  unfold finishTurn
  simp only [h]
  exact ⟨trivial, trivial⟩

theorem finishTurn_stopped {w : History Host} {loop : RunBridge} {it : Iteration}
    (h : (iterate T options loop it).1.ending = some .stopped) (call : List UInt8 → ReadCall) :
    (finishTurn T options w loop call it).1.phase = .exited (.returned 0) ∧
      (finishTurn T options w loop call it).1.world.now.running = w.now.running := by
  unfold finishTurn
  simp only [h]
  exact ⟨rfl, running_closeHandle⟩

theorem finishTurn_threw {w : History Host} {loop : RunBridge} {it : Iteration} {what : String}
    (h : (iterate T options loop it).1.ending = some (.threw what))
    (call : List UInt8 → ReadCall) :
    (finishTurn T options w loop call it).1.phase = .exited (.threw what) := by
  unfold finishTurn
  simp only [h]
  rfl

theorem iterate_empty {loop : RunBridge} (h : loop.ending = none) {it : Iteration}
    (hread : it.read = .packet []) : (iterate T options loop it).1.ending = none := by
  unfold iterate
  rw [h, hread]
  exact h

theorem iterate_threw {loop : RunBridge} (h : loop.ending = none) {it : Iteration}
    {what : String} (hread : it.read = .threw what) :
    (iterate T options loop it).1.ending = some (.threw what) := by
  unfold iterate
  rw [h, hread]
  rfl

theorem iterate_reconnected {loop : RunBridge} (h : loop.ending = none) {it : Iteration}
    (hread : it.read = .disconnected) (hconn : it.connected = true) :
    (iterate T options loop it).1.ending = none := by
  unfold iterate
  rw [h, hread, hconn]
  exact h

/-- Where `connect` gives up, the loop ends. -/
theorem finishTurn_gaveUp {w : History Host} (hrunning : w.now.running = false)
    {loop : RunBridge} (h : loop.ending = none) {it : Iteration}
    (hread : it.read = .disconnected) (hconn : it.connected = false)
    (call : List UInt8 → ReadCall) :
    (finishTurn T options w loop call it).1.phase = .exited (.returned 0) ∧
      (finishTurn T options w loop call it).1.world.now.running = false := by
  obtain ⟨hphase, hkept⟩ :=
    finishTurn_stopped (w := w) (T := T) (iterate_stopped h hread hconn) call
  exact ⟨hphase, hkept.trans hrunning⟩

/-- A packet is handed on, and the loop left only by a failed send. -/
theorem iterate_ending (T : Tables) (options : AppOptions) {loop : RunBridge}
    (h : loop.ending = none) (it : Iteration) {bytes : List UInt8}
    (hread : it.read = .packet bytes) :
    (iterate T options loop it).1.ending = none ∨
      (∃ what, (iterate T options loop it).1.ending = some (.threw what)) ∧
        ∃ k, it.ccOutcome k ≠ .noErr := by
  have hpacket : it.packet = bytes := by rw [Iteration.packet, hread]
  by_cases hne : it.packet = []
  · exact .inl (iterate_empty h (by rw [hread, ← hpacket, hne]))
  · rw [iterate_packet h hne]
    by_cases hsent : ∀ k, it.ccOutcome k = .noErr
    · left
      rw [sendAll_noErr (fun _ hm => mem_decodeInput hm) hsent]
      rfl
    · simp only
      cases (sendAll (decodeInput T loop.protocol it.packet).2 it.ccOutcome).2 with
      | none => exact .inl rfl
      | some what => exact .inr ⟨⟨what, rfl⟩, not_forall.1 hsent⟩

/-! ## The turn -/

theorem readTurn_packet {w : History Host} (hconn : w.now.device.disconnected = false)
    {loop : RunBridge} {x : LoopInput} {bytes : List UInt8}
    (hread : readInput errorName usb w.now.device x.transfer = (w.now.device, .ok bytes)) :
    readTurn errorName T options usb w loop x =
      finishTurn T options (w.step (·.setDevice w.now.device)) loop (ReadCall.mk w.now x.transfer)
        ⟨.packet bytes, true, x.sysexOutcome, x.ccOutcome⟩ := by
  have hresult : readResult w.now.device (.ok bytes) = .packet bytes := by
    simp [readResult, hconn]
  rw [readTurn_read hread (by simp [hresult]), hresult]

/-- A turn that finds the device gone. -/
theorem readTurn_gone {w : History Host} (hw : w.Holds Sound Quiet)
    (hready : Ready usb.interfaceNumber w.now) {x : LoopInput}
    (hread : readInput errorName usb w.now.device x.transfer =
      ({ w.now.device with disconnected := true }, .ok []))
    {loop : RunBridge} (hend : loop.ending = none)
    (hgone : x.transfer.rc.val = libusbErrorNoDevice ∨ x.transfer.rc.val = libusbErrorIo) :
    ∃ handed, (readTurn errorName T options usb w loop x).2.read =
        some ⟨w.now, x.transfer, handed⟩ ∧
      Leads usb x w.now handed (readTurn errorName T options usb w loop x).1 := by
  have hset := holds_step hw (·.setDevice { w.now.device with disconnected := true })
    (setDevice_quiet hw.now rfl fun _ => ready_initialized hready)
  obtain ⟨-, -, hsince⟩ := connect_keeps errorName usb hset x.attempts
  have hstopped := connect_stopped errorName usb
    (w.step (·.setDevice { w.now.device with disconnected := true })) x.attempts
  rcases readTurn_gone_cases hread rfl with hturn | ⟨exit, hexit, hne, hturn⟩
  · rw [hturn]
    exact ⟨[], rfl, .gone hgone (.inr (.inl rfl))⟩
  · rw [hturn]
    refine ⟨[], finishTurn_read _ _ _ _, .gone hgone ?_⟩
    let it : Iteration := ⟨.disconnected, exit = .connected, x.sysexOutcome, x.ccOutcome⟩
    by_cases hconnected : exit = .connected
    · have hnone : (iterate T options loop it).1.ending = none :=
        iterate_reconnected hend rfl (decide_eq_true hconnected)
      obtain ⟨hphase, hworld⟩ := finishTurn_none hnone (ReadCall.mk w.now x.transfer)
      refine .inl ⟨hphase, ?_⟩
      rw [hworld]
      exact hsince (hexit.trans (congrArg some hconnected))
    · have hrunning := ((hstopped exit hexit).resolve_left hconnected).resolve_left hne
      exact .inr (.inr (finishTurn_gaveUp hrunning hend rfl (decide_eq_false hconnected) _))

theorem readTurn_leads (errorName : Int → String) (T : Tables) (options : AppOptions)
    {w : History Host} (hw : w.Holds Sound Quiet)
    (hready : Ready usb.interfaceNumber w.now) (hconn : w.now.device.disconnected = false)
    (hsize : 0 < usb.reportSize) {loop : RunBridge} (hend : loop.ending = none) (x : LoopInput) :
    ∃ handed, (readTurn errorName T options usb w loop x).2.read =
        some ⟨w.now, x.transfer, handed⟩ ∧
      Leads usb x w.now handed (readTurn errorName T options usb w loop x).1 := by
  have hread := readInput_open errorName (ready_open hready) hsize x.transfer
  by_cases htimeout : x.transfer.rc.val = libusbErrorTimeout
  · rw [if_pos htimeout] at hread
    rw [readTurn_packet hconn hread]
    have hnone : (iterate T options loop
        ⟨.packet [], true, x.sysexOutcome, x.ccOutcome⟩).1.ending = none := iterate_empty hend rfl
    obtain ⟨hphase, hworld⟩ := finishTurn_none hnone (ReadCall.mk w.now x.transfer)
    refine ⟨[], finishTurn_read _ _ _ _, .timeout htimeout hphase ?_⟩
    rw [hworld]
    rfl
  rw [if_neg htimeout] at hread
  by_cases hgone : x.transfer.rc.val = libusbErrorNoDevice ∨ x.transfer.rc.val = libusbErrorIo
  · rw [if_pos hgone] at hread
    exact readTurn_gone hw hready hread hend hgone
  rw [if_neg hgone] at hread
  by_cases hneg : x.transfer.rc.val < 0
  · rw [if_pos hneg] at hread
    rw [readTurn_read hread (by simp [readResult])]
    have hthrew : (iterate T options loop ⟨.threw (checkMessage errorName
        "USB input transfer failed" x.transfer.rc), true, x.sysexOutcome, x.ccOutcome⟩).1.ending =
        some (.threw _) := iterate_threw hend rfl
    refine ⟨[], finishTurn_read _ _ _ _, .crashed ?_ ⟨_, finishTurn_threw hthrew _⟩⟩
    rintro (h | h | h | h)
    · omega
    · exact htimeout h
    · exact hgone (.inl h)
    · exact hgone (.inr h)
  · rw [if_neg hneg] at hread
    have hzero : x.transfer.rc.val = 0 := Int.le_antisymm x.transfer.rc.2 (Int.not_lt.1 hneg)
    rw [readTurn_packet hconn hread]
    refine ⟨x.transfer.data, finishTurn_read _ _ _ _, .packet hzero ?_⟩
    have hending := iterate_ending T options hend
      ⟨.packet x.transfer.data, true, x.sysexOutcome, x.ccOutcome⟩ rfl
    rcases hending with hnone | ⟨⟨what, hthrew⟩, hfailed⟩
    · obtain ⟨hphase, hworld⟩ := finishTurn_none hnone (ReadCall.mk w.now x.transfer)
      refine .inl ⟨hphase, ?_⟩
      rw [hworld]
      rfl
    · exact .inr ⟨⟨what, finishTurn_threw hthrew _⟩, hfailed⟩

variable (errorName) (T) (options)

/-- **What a turn of the main loop does**: it leaves the loop because `running` is false, or makes
one transfer on the device as it is. -/
theorem hotswapStep_cases {s : BridgeRun} (hs : RunSound usb s) (hphase : s.phase = .looping)
    (hsize : 0 < usb.reportSize) (x : LoopInput) :
    ((hotswapStep errorName T options usb s x).2.read = none ∧
      (hotswapStep errorName T options usb s x).1.phase = .exited (.returned 0) ∧
      (hotswapStep errorName T options usb s x).1.world.now.running = false) ∨
    ∃ host handed, (hotswapStep errorName T options usb s x).2.read =
        some ⟨host, x.transfer, handed⟩ ∧
      host.device = s.world.now.device ∧ host.handles = s.world.now.handles ∧
      Leads usb x host handed (hotswapStep errorName T options usb s x).1 := by
  obtain ⟨hready, hconn, hend⟩ := hs.looping hphase
  obtain ⟨hlook, hhandles, hdevice⟩ := lookAtRunning_keeps hs.holds x.signalled
  unfold hotswapStep
  rw [hphase]
  simp only
  by_cases hrunning : (!(lookAtRunning s.world x.signalled).now.running) = true
  · left
    rw [if_pos hrunning]
    exact ⟨rfl, rfl, running_closeHandle.trans (by simpa using hrunning)⟩
  · right
    rw [if_neg hrunning]
    have hfed := readProcs_ok errorName usb
      (lookAtRunning s.world x.signalled).now.device ⟨s.loop.protocol, []⟩ x.feedback
    generalize readProcs errorName usb (lookAtRunning s.world x.signalled).now.device
      ⟨s.loop.protocol, []⟩ x.feedback = fed at hfed ⊢
    obtain ⟨fed, result⟩ := fed
    obtain rfl : result = .ok () := hfed
    have hcurrent : (lookAtRunning s.world x.signalled).now.current = s.world.now.current := by
      rw [Host.current, Host.current, hdevice, hhandles]
    obtain ⟨e, he, hdata⟩ := hready
    have hend' : ({ s.loop with protocol := fed.protocol } : RunBridge).ending = none := hend
    obtain ⟨handed, hread, hleads⟩ :=
      readTurn_leads errorName T options hlook ⟨e, hcurrent.trans he, hdata⟩
        (by rw [hdevice]; exact hconn) hsize hend' x
    exact ⟨_, handed, hread, hdevice, hhandles, hleads⟩

theorem hotswapStep_idle (usb : UsbOptions) {s : BridgeRun} (h : s.phase ≠ .looping)
    (x : LoopInput) :
    hotswapStep errorName T options usb s x = (s, .nothing) := by
  unfold hotswapStep
  split
  · rename_i hphase
    exact absurd hphase h
  · rfl

/-! ## Runs -/

variable (usb)

/-- The calls of `read_input` a run makes. -/
def reads (s : BridgeRun) (inputs : List LoopInput) : List ReadCall :=
  ((hotswap errorName T options usb).outs s inputs).filterMap (·.read)

theorem reads_cons (s : BridgeRun) (x : LoopInput) (inputs : List LoopInput) :
    reads errorName T options usb s (x :: inputs) =
      (hotswapStep errorName T options usb s x).2.read.toList ++
        reads errorName T options usb (hotswapStep errorName T options usb s x).1 inputs := by
  have hstep : (hotswap errorName T options usb).step s x =
      hotswapStep errorName T options usb s x := rfl
  unfold reads
  rw [Machine.outs_cons, List.filterMap_cons, hstep]
  cases (hotswapStep errorName T options usb s x).2.read <;> rfl

/-- A run that has left the loop stays as it is. -/
theorem idle_run {s : BridgeRun} (h : s.phase ≠ .looping) (inputs : List LoopInput) :
    (hotswap errorName T options usb).final s inputs = s ∧
      reads errorName T options usb s inputs = [] := by
  induction inputs with
  | nil => exact ⟨rfl, rfl⟩
  | cons x inputs ih =>
    have hstep := hotswapStep_idle errorName T options usb h x
    rw [Machine.final_cons, reads_cons]
    show (hotswap errorName T options usb).final (hotswapStep errorName T options usb s x).1 inputs =
      s ∧ _
    rw [hstep]
    exact ih

variable {usb}

/-- `run_bridge` has been left only because `running` is false. -/
def EndsWell (s : BridgeRun) : Prop :=
  ∀ exit, s.phase = .exited exit → exit = .returned 0 ∧ s.world.now.running = false

theorem endsWell_step {s : BridgeRun} (hs : RunSound usb s) (hphase : s.phase = .looping)
    (hsize : 0 < usb.reportSize) {x : LoopInput} (hsent : ∀ k, x.ccOutcome k = .noErr) :
    EndsWell (hotswapStep errorName T options usb s x).1 ↔
      ∀ call, (hotswapStep errorName T options usb s x).2.read = some call →
        Survivable call.transfer.rc.val := by
  rcases hotswapStep_cases errorName T options hs hphase hsize x with
    ⟨hread, hexit, hrunning⟩ | ⟨host, handed, hread, -, -, hleads⟩
  · rw [hread]
    refine ⟨fun _ call h => (by cases h), fun _ exit h => ?_⟩
    rw [hexit] at h
    cases h
    exact ⟨rfl, hrunning⟩
  · rw [hread]
    generalize (hotswapStep errorName T options usb s x).1 = next at hleads ⊢
    have hcall : (∀ call, some (ReadCall.mk host x.transfer handed) = some call →
        Survivable call.transfer.rc.val) ↔ Survivable x.transfer.rc.val := by
      simp
    rw [hcall]
    cases hleads with
    | packet hrc hnext =>
      refine ⟨fun _ => .inl hrc, fun _ exit h => ?_⟩
      rcases hnext with ⟨hloop, -⟩ | ⟨-, k, hk⟩
      · rw [hloop] at h
        cases h
      · exact absurd (hsent k) hk
    | timeout hrc hloop _ =>
      refine ⟨fun _ => .inr (.inl hrc), fun _ exit h => ?_⟩
      rw [hloop] at h
      cases h
    | gone hrc hnext =>
      refine ⟨fun _ => .inr (.inr hrc), fun _ exit h => ?_⟩
      rcases hnext with ⟨hloop, -⟩ | hconnecting | ⟨hexit, hrunning⟩
      · rw [hloop] at h
        cases h
      · rw [hconnecting] at h
        cases h
      · rw [hexit] at h
        cases h
        exact ⟨rfl, hrunning⟩
    | crashed hrc hthrew =>
      obtain ⟨what, hexit⟩ := hthrew
      refine ⟨fun h => ?_, fun h => absurd h hrc⟩
      cases (h _ hexit).1

theorem endsWell_run {s : BridgeRun} (hs : RunSound usb s) (hwell : EndsWell s)
    (hsize : 0 < usb.reportSize) {inputs : List LoopInput}
    (hsent : ∀ x ∈ inputs, ∀ k, x.ccOutcome k = .noErr) :
    EndsWell ((hotswap errorName T options usb).final s inputs) ↔
      ∀ call ∈ reads errorName T options usb s inputs, Survivable call.transfer.rc.val := by
  induction inputs generalizing s with
  | nil => exact ⟨fun _ call h => (by cases h), fun _ => hwell⟩
  | cons x inputs ih =>
    by_cases hphase : s.phase = .looping
    · have hstep := endsWell_step errorName T options hs hphase hsize (hsent x (.head _))
      rw [Machine.final_cons, reads_cons, List.forall_mem_append]
      simp only [Option.mem_toList]
      rw [← hstep]
      by_cases hnext : EndsWell (hotswapStep errorName T options usb s x).1
      · have hrest := ih (hotswapStep_sound errorName T options hs x).1 hnext
          fun y hy => hsent y (.tail _ hy)
        exact hrest.trans (and_iff_right hnext).symm
      · have hleft : (hotswapStep errorName T options usb s x).1.phase ≠ .looping := by
          intro hloop
          refine hnext fun exit hexit => ?_
          rw [hloop] at hexit
          cases hexit
        have hidle := (idle_run errorName T options usb hleft inputs).1
        constructor
        · intro h
          exact absurd (hidle ▸ h) hnext
        · intro h
          exact absurd h.1 hnext
    · obtain ⟨hfinal, hreads⟩ := idle_run errorName T options usb hphase (x :: inputs)
      rw [hfinal, hreads]
      exact ⟨fun _ call h => (by cases h), fun _ => hwell⟩

/-! ## The handles of the reads -/

/-- The device was closed, opened and initialized between two moments. -/
def Reopened (interface : Int) (before after : Host) : Prop :=
  ∃ id id', before.device.handle = some id ∧ after.device.handle = some id' ∧ id < id' ∧
    (∃ e, after.handles[id]? = some e ∧ e.releases = 1) ∧
    ∃ e, after.handles[id']? = some e ∧ e.releases = 0 ∧ e.data = ⟨some interface, true⟩

/-- The handle is not among the first `since`. -/
def HandleSince (since : Nat) (host : Host) : Prop :=
  ∃ id, host.device.handle = some id ∧ since ≤ id

theorem handleSince_step {since : Nat} {s : BridgeRun} (hs : RunSound usb s)
    (hsize : 0 < usb.reportSize) (h : s.phase = .looping → HandleSince since s.world.now)
    (x : LoopInput) :
    ((hotswapStep errorName T options usb s x).1.phase = .looping →
      HandleSince since (hotswapStep errorName T options usb s x).1.world.now) ∧
    ∀ call, (hotswapStep errorName T options usb s x).2.read = some call →
      HandleSince since call.host := by
  by_cases hphase : s.phase = .looping
  · obtain ⟨id, hid, hsince⟩ := h hphase
    have hnewest := hs.holds.now.handles.newest id hid
    rcases hotswapStep_cases errorName T options hs hphase hsize x with
      ⟨hread, hexit, -⟩ | ⟨host, handed, hread, hdevice, hhandles, hleads⟩
    · rw [hread, hexit]
      exact ⟨fun hl => (by cases hl), fun call hc => (by cases hc)⟩
    · have hhost : HandleSince since host := ⟨id, by rw [hdevice]; exact hid, hsince⟩
      refine ⟨fun hloop => ?_, fun call hcall => ?_⟩
      · cases hleads with
        | packet _ hnext =>
          rcases hnext with ⟨-, hhandle⟩ | ⟨⟨what, hexit⟩, -⟩
          · exact ⟨id, hhandle.trans (by rw [hdevice]; exact hid), hsince⟩
          · cases hloop.symm.trans hexit
        | timeout _ _ hhandle => exact ⟨id, hhandle.trans (by rw [hdevice]; exact hid), hsince⟩
        | gone _ hnext =>
          rcases hnext with ⟨-, hready⟩ | hconnecting | ⟨hexit, -⟩
          · obtain ⟨id', hid', hle⟩ := hready.handle
            rw [hhandles] at hle
            exact ⟨id', hid', by omega⟩
          · cases hloop.symm.trans hconnecting
          · cases hloop.symm.trans hexit
        | crashed _ hthrew =>
          obtain ⟨what, hexit⟩ := hthrew
          cases hloop.symm.trans hexit
      · rw [hread] at hcall
        obtain rfl := Option.some.inj hcall
        exact hhost
  · rw [hotswapStep_idle errorName T options usb hphase x]
    exact ⟨fun hl => absurd hl hphase, fun call hc => (by cases hc)⟩

theorem reads_since {since : Nat} {s : BridgeRun} (hs : RunSound usb s)
    (hsize : 0 < usb.reportSize) (h : s.phase = .looping → HandleSince since s.world.now)
    (inputs : List LoopInput) : ∀ call ∈ reads errorName T options usb s inputs,
      Quiet call.host ∧ Ready usb.interfaceNumber call.host ∧ HandleSince since call.host := by
  have houts := (Machine.invariant (hotswap errorName T options usb)
    (I := fun s => RunSound usb s ∧ (s.phase = .looping → HandleSince since s.world.now))
    (P := fun out => CallReady usb out ∧ ∀ call, out.read = some call → HandleSince since call.host)
    inputs (fun s x _ hs => by
      obtain ⟨hnext, hready⟩ := hotswapStep_sound errorName T options hs.1 x
      obtain ⟨hloop, hcall⟩ := handleSince_step errorName T options hs.1 hsize hs.2 x
      exact ⟨⟨hnext, hloop⟩, hready, hcall⟩) ⟨hs, h⟩).2
  intro call hcall
  obtain ⟨out, hout, hread⟩ := List.mem_filterMap.1 hcall
  obtain ⟨hready, hsince⟩ := houts out hout
  exact ⟨(hready call hread).1, (hready call hread).2, hsince call hread⟩

theorem reopened {before after : Host} (hbefore : Quiet before)
    (hopen : Ready usb.interfaceNumber before) (hafter : Quiet after)
    (hready : Ready usb.interfaceNumber after)
    (hsince : HandleSince before.handles.length after) :
    Reopened usb.interfaceNumber before after := by
  obtain ⟨e, hcurrent, -⟩ := hopen
  obtain ⟨id, hid, -⟩ := Option.bind_eq_some_iff.1 hcurrent
  obtain ⟨id', hid', hle⟩ := hsince
  obtain ⟨e', hcurrent', hdata⟩ := hready
  have hnewest := hbefore.handles.newest id hid
  have hnewest' := hafter.handles.newest id' hid'
  have hlt : id < after.handles.length := by omega
  have hget : after.handles[id']? = some e' := by
    rw [Host.current, hid'] at hcurrent'
    exact hcurrent'
  refine ⟨id, id', hid, hid', by omega, ⟨after.handles[id], List.getElem?_eq_getElem hlt, ?_⟩,
    e', hget, (hafter.current_eq hcurrent').1, hdata⟩
  rw [hafter.handles.releases id _ (List.getElem?_eq_getElem hlt), if_neg]
  intro h
  have := Option.some.inj (hid'.symm.trans h)
  omega

/-- After an error that is no timeout, every later read is on a new handle. -/
theorem reads_reopened {s : BridgeRun} (hs : RunSound usb s) (hsize : 0 < usb.reportSize)
    (inputs : List LoopInput) :
    (reads errorName T options usb s inputs).Pairwise fun call later =>
      call.transfer.rc.val ≠ 0 → call.transfer.rc.val ≠ libusbErrorTimeout →
        Reopened usb.interfaceNumber call.host later.host := by
  induction inputs generalizing s with
  | nil => exact .nil
  | cons x inputs ih =>
    have hsound := hotswapStep_sound errorName T options hs x
    rw [reads_cons]
    by_cases hphase : s.phase = .looping
    · rcases hotswapStep_cases errorName T options hs hphase hsize x with
        ⟨hread, -, -⟩ | ⟨host, handed, hread, -, -, hleads⟩
      · rw [hread]
        exact ih hsound.1
      · obtain ⟨hquiet, hready⟩ := hsound.2 _ hread
        rw [hread]
        refine List.pairwise_cons.2 ⟨fun later hlater hzero htimeout => ?_, ih hsound.1⟩
        have hnew : (hotswapStep errorName T options usb s x).1.phase = .looping →
            HandleSince host.handles.length
              (hotswapStep errorName T options usb s x).1.world.now := by
          intro hloop
          cases hleads with
          | packet hrc _ => exact absurd hrc hzero
          | timeout hrc _ _ => exact absurd hrc htimeout
          | gone _ hnext =>
            rcases hnext with ⟨-, hsince⟩ | hconnecting | ⟨hexit, -⟩
            · exact hsince.handle
            · cases hloop.symm.trans hconnecting
            · cases hloop.symm.trans hexit
          | crashed _ hthrew =>
            obtain ⟨what, hexit⟩ := hthrew
            cases hloop.symm.trans hexit
        obtain ⟨hquiet', hready', hsince⟩ :=
          reads_since errorName T options hsound.1 hsize hnew inputs later hlater
        exact reopened hquiet hready hquiet' hready' hsince
    · rw [hotswapStep_idle errorName T options usb hphase x]
      exact ih hs

/-- The options of a bridge for the device. -/
def s4Usb : UsbOptions where
  vendorId := 0x17CC
  productId := 0xBAFF
  alternateSetting := 1
  inputEndpoint := 0x84
  outputEndpoint := 0x01
  reportSize := 512

/-- The device is there, and its start-up goes well. -/
def smoothStart : StartInput where
  contextRc := .ok
  attempts := [⟨false, smoothOpen [⟨some (0x17CC, 0xBAFF)⟩] [[⟨1, [⟨0x84, 2⟩, ⟨0x01, 2⟩]⟩]],
    smoothCall⟩]
  midi := .ok ()

/-- A turn that makes a transfer. -/
def readsTransfer (rc : Rc) (data : List UInt8) : LoopInput :=
  ⟨false, [], ⟨rc, data⟩, [], .noErr, fun _ => .noErr⟩

/-- **USB trouble**: a run past its first `connect` stops for no other reason than `running`, and
reads on only after a complete reconnect, exactly if every transfer it reads returns a code that
`read_input` does not throw at. -/
theorem trouble_iff (hsize : 0 < usb.reportSize) (start : StartInput)
    (hstart : (runBridgeStart errorName options usb start).phase = .looping)
    (inputs : List LoopInput) (hsent : ∀ x ∈ inputs, x.sysexOutcome = .noErr ∧
      ∀ k, x.ccOutcome k = .noErr) :
    let first := runBridgeStart errorName options usb start
    let last := (hotswap errorName T options usb).final first inputs
    ((∀ exit, last.phase = .exited exit → exit = .returned 0 ∧ last.world.now.running = false) ∧
      (reads errorName T options usb first inputs).Pairwise fun call later =>
        call.transfer.rc.val ≠ 0 → call.transfer.rc.val ≠ libusbErrorTimeout →
          Reopened usb.interfaceNumber call.host later.host) ↔
    ∀ call ∈ reads errorName T options usb first inputs, Survivable call.transfer.rc.val := by
  intro first last
  have hsound : RunSound usb first := runBridgeStart_sound start
  have hwell : EndsWell first := by
    intro exit hexit
    rw [hstart] at hexit
    cases hexit
  have hiff := endsWell_run errorName T options hsound hwell hsize fun x hx => (hsent x hx).2
  exact (and_iff_left (reads_reopened errorName T options hsound hsize inputs)).trans hiff

/-- A packet, a timeout, and then the device is gone and `connect` finds two of them. -/
theorem trouble_iff_gone :
    let doubled : ConnectAttempt :=
      ⟨false, smoothOpen (List.replicate 2 ⟨some (0x17CC, 0xBAFF)⟩) [], smoothCall⟩
    let inputs := [readsTransfer .ok [1], readsTransfer ⟨-7, by decide⟩ [],
      ⟨false, [], ⟨⟨-4, by decide⟩, []⟩, [doubled], .noErr, fun _ => .noErr⟩]
    let last := (hotswap (fun _ => "") .shipped ⟨0, 0, .byte, false⟩ s4Usb).final
      (runBridgeStart (fun _ => "") ⟨0, 0, .byte, false⟩ s4Usb smoothStart) inputs
    last.phase = .exited (.returned 0) ∧ last.world.now.running = false := by
  intro doubled inputs
  have hexit : ((hotswap (fun _ => "") .shipped ⟨0, 0, .byte, false⟩ s4Usb).final
      (runBridgeStart (fun _ => "") ⟨0, 0, .byte, false⟩ s4Usb smoothStart) inputs).phase =
      .exited (.returned 0) := by decide +kernel
  have hsent : ∀ x ∈ inputs, x.sysexOutcome = .noErr ∧ ∀ k, x.ccOutcome k = .noErr := by
    simp [inputs, readsTransfer]
  have htrouble := trouble_iff (fun _ => "") .shipped ⟨0, 0, .byte, false⟩
    (by decide : 0 < s4Usb.reportSize) smoothStart (by decide +kernel) inputs hsent
  have hwell := (htrouble.2 (by decide +kernel)).1
  exact ⟨hexit, (hwell _ hexit).2⟩

/-- The device stalls: the read returns LIBUSB_ERROR_PIPE. -/
theorem not_trouble_stall :
    ¬ ∀ (errorName : Int → String) (T : Tables) (options : AppOptions) (usb : UsbOptions),
      0 < usb.reportSize → ∀ start : StartInput,
      (runBridgeStart errorName options usb start).phase = .looping →
      ∀ inputs : List LoopInput, (∀ x ∈ inputs, x.sysexOutcome = .noErr ∧
        ∀ k, x.ccOutcome k = .noErr) →
      ∀ exit, ((hotswap errorName T options usb).final
        (runBridgeStart errorName options usb start) inputs).phase = .exited exit →
        exit = .returned 0 := by
  intro h
  have hstall := h (fun _ => "LIBUSB_ERROR_PIPE") .shipped ⟨0, 0, .byte, false⟩ s4Usb (by decide)
    smoothStart (by decide +kernel) [readsTransfer ⟨-9, by decide⟩ []]
    (fun x hx => by obtain rfl := List.mem_singleton.1 hx; exact ⟨rfl, fun _ => rfl⟩)
    (.threw "USB input transfer failed: LIBUSB_ERROR_PIPE") (by decide +kernel)
  cases hstall

end Bridge
