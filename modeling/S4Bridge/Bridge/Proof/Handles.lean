import S4Bridge.Bridge.Hotswap
import S4Bridge.Bridge.Proof.Connect
import S4Bridge.Bridge.Proof.Feedback

/-!
# The device handles of a run

`RunSound` is what every turn of the main loop keeps: what the device holds is settled, in the loop
the device is ready, and after it nothing is held. So whatever fails when, there is never more than
one open handle, everything obtained is given back once, and `read_input` finds the device open
(`handle_lifecycle`).
-/

namespace Bridge

open Device Startup

variable {errorName : Int → String} {T : Protocol.Tables} {options : AppOptions} {usb : UsbOptions}

structure RunSound (usb : UsbOptions) (s : BridgeRun) : Prop where
  holds : s.world.Holds Sound Quiet
  looping : s.phase = .looping → Ready usb.interfaceNumber s.world.now ∧
    s.world.now.device.disconnected = false ∧ s.loop.ending = none
  exited : ∀ exit, s.phase = .exited exit → s.world.now.device.handle = none

/-- What holds of a call of `read_input`. -/
def CallReady (usb : UsbOptions) (out : LoopOutput) : Prop :=
  ∀ call, out.read = some call → Quiet call.host ∧ Ready usb.interfaceNumber call.host

theorem callReady_nothing : CallReady usb .nothing := fun _ h => by cases h

/-! ## Leaving -/

theorem leave_sound {w : History Host} (hw : w.Holds Sound Quiet) (loop : RunBridge) (exit : Exit) :
    RunSound usb (leave w loop exit) :=
  ⟨holds_step hw (·.closeHandle) (Moment.closeHandle hw.now).1, fun h => (by cases h),
    fun _ _ => (Moment.closeHandle hw.now).2⟩

theorem connecting_sound {w : History Host} (hw : w.Holds Sound Quiet) (loop : RunBridge) :
    RunSound usb ⟨w, loop, .connecting⟩ :=
  ⟨hw, fun h => (by cases h), fun _ h => (by cases h)⟩

theorem runBridgeStart_sound (x : StartInput) :
    RunSound usb (runBridgeStart errorName options usb x) := by
  have hstart : (History.start ({} : Host)).Holds Sound Quiet :=
    ⟨⟨start_closed.quiet.sound, fun s hs => (by cases hs)⟩, start_closed.quiet⟩
  obtain ⟨hkept, -, hready⟩ := connect_keeps errorName usb hstart x.attempts
  unfold runBridgeStart
  simp only
  split
  · exact ⟨hstart, fun h => (by cases h), fun _ _ => rfl⟩
  · generalize connect errorName usb (.start {}) x.attempts = connected at *
    obtain ⟨w, how⟩ := connected
    rcases how with _ | how
    · exact connecting_sound hkept _
    · cases how with
      | initRunning => exact connecting_sound hkept _
      | hardError what => exact leave_sound hkept _ _
      | stopped => exact leave_sound hkept _ _
      | connected =>
        obtain ⟨hready, -, hconn⟩ := hready rfl
        cases x.midi with
        | error what => exact leave_sound hkept _ _
        | ok u => exact ⟨hkept, fun _ => ⟨hready, hconn, rfl⟩, fun _ h => (by cases h)⟩

/-! ## Reading -/

/-- How `read_input` ends on an open device. -/
theorem readInput_cases (errorName : Int → String) (usb : UsbOptions) {device : UsbDevice}
    (hopen : device.handle ≠ none) (transfer : Transferred) :
    (∃ bytes, readInput errorName usb device transfer = (device, .ok bytes)) ∨
    readInput errorName usb device transfer = ({ device with disconnected := true }, .ok []) ∨
    ∃ what, readInput errorName usb device transfer = (device, .error what) ∧
      what ≠ "USB device is not open" := by
  have hsome : device.handle.isNone = false := by
    rw [Option.isNone_eq_false_iff, Option.isSome_iff_ne_none]
    exact hopen
  have htext : ∀ rc, checkMessage errorName "USB input transfer failed" rc ≠
      "USB device is not open" := by
    intro rc h
    have hchars := congrArg (fun s : String => s.toList[4]?) h
    simp [checkMessage] at hchars
  unfold readInput
  rw [hsome]
  simp only [Bool.false_eq_true, if_false]
  split
  · exact .inr (.inr ⟨_, rfl, by decide⟩)
  · split
    · exact .inl ⟨[], rfl⟩
    · split
      · exact .inr (.inl rfl)
      · split
        · exact .inr (.inr ⟨_, rfl, htext _⟩)
        · exact .inl ⟨transfer.data, rfl⟩

theorem setDevice_quiet {host : Host} (h : Quiet host) {device : UsbDevice}
    (hhandle : device.handle = host.device.handle)
    (hgone : device.disconnected = true → ∀ e, host.current = some e → e.data.initialized = true) :
    Quiet (host.setDevice device) := by
  have hcurrent : (host.setDevice device).current = host.current := by
    show device.handle.bind _ = _
    rw [hhandle]
    rfl
  refine ⟨?_, h.lists, h.configs, fun hd e he => hgone hd e (hcurrent ▸ he)⟩
  show Ledger.Settled device.handle host.handles
  rw [hhandle]
  exact h.handles

theorem ready_initialized {host : Host} (h : Ready usb.interfaceNumber host) :
    ∀ e, host.current = some e → e.data.initialized = true := by
  obtain ⟨e, hcurrent, hdata⟩ := h
  intro e' he'
  rw [hcurrent] at he'
  rw [← Option.some.inj he', hdata]

theorem ready_open {host : Host} (h : Ready usb.interfaceNumber host) :
    host.device.handle ≠ none := by
  obtain ⟨e, hcurrent, -⟩ := h
  intro hnone
  rw [Host.current, hnone] at hcurrent
  cases hcurrent

/-! ## Turns -/

theorem finishTurn_sound {w : History Host} (hw : w.Holds Sound Quiet) {loop : RunBridge}
    {call : List UInt8 → ReadCall} {it : Iteration}
    (hready : (iterate T options loop it).1.ending = none →
      Ready usb.interfaceNumber w.now ∧ w.now.device.disconnected = false) :
    RunSound usb (finishTurn T options w loop call it).1 := by
  unfold finishTurn
  simp only
  split
  · rename_i hnone
    obtain ⟨hr, hc⟩ := hready hnone
    exact ⟨hw, fun _ => ⟨hr, hc, hnone⟩, fun _ h => (by cases h)⟩
  · exact leave_sound hw _ _
  · exact leave_sound hw _ _

theorem finishTurn_out (w : History Host) (loop : RunBridge) (call : List UInt8 → ReadCall)
    (it : Iteration) : (finishTurn T options w loop call it).2 =
      ⟨some (call it.packet), (iterate T options loop it).2⟩ := by
  unfold finishTurn
  simp only
  split <;> rfl

theorem finishTurn_read (w : History Host) (loop : RunBridge) (call : List UInt8 → ReadCall)
    (it : Iteration) : (finishTurn T options w loop call it).2.read = some (call it.packet) :=
  congrArg LoopOutput.read (finishTurn_out w loop call it)

theorem iterate_stopped {loop : RunBridge} (h : loop.ending = none) {it : Iteration}
    (hread : it.read = .disconnected) (hnot : it.connected = false) :
    (iterate T options loop it).1.ending = some .stopped := by
  simp [iterate, h, hread, hnot]

section
variable {w : History Host} {loop : RunBridge} {x : LoopInput} {device : UsbDevice}
  {result : Except String (List UInt8)}

/-- A turn that does not find the device gone. -/
theorem readTurn_read
    (hread : readInput errorName usb w.now.device x.transfer = (device, result))
    (hresult : readResult device result ≠ .disconnected) :
    readTurn errorName T options usb w loop x =
      finishTurn T options (w.step (·.setDevice device)) loop (ReadCall.mk w.now x.transfer)
        ⟨readResult device result, true, x.sysexOutcome, x.ccOutcome⟩ := by
  unfold readTurn
  rw [hread]
  cases hcase : readResult device result with
  | disconnected => exact absurd hcase hresult
  | packet bytes | threw what => simp only [hcase]

/-- A turn that finds the device gone: it is still in `connect`, or goes on as `connect` returned. -/
theorem readTurn_gone_cases
    (hread : readInput errorName usb w.now.device x.transfer = (device, result))
    (hresult : readResult device result = .disconnected) :
    let connected := connect errorName usb (w.step (·.setDevice device)) x.attempts
    let call := ReadCall.mk w.now x.transfer
    readTurn errorName T options usb w loop x =
        (⟨connected.1, loop, .connecting⟩, ⟨some (call []), .nothing⟩) ∨
      ∃ exit, connected.2 = some exit ∧ exit ≠ .initRunning ∧
        readTurn errorName T options usb w loop x = finishTurn T options connected.1 loop call
          ⟨.disconnected, exit = .connected, x.sysexOutcome, x.ccOutcome⟩ := by
  unfold readTurn
  rw [hread]
  simp only [hresult]
  generalize connect errorName usb (w.step (·.setDevice device)) x.attempts = connected
  obtain ⟨w1, how⟩ := connected
  rcases how with _ | exit
  · exact .inl rfl
  · cases exit with
    | initRunning => exact .inl rfl
    | connected | stopped | hardError what => exact .inr ⟨_, rfl, by simp, rfl⟩

end

/-- A turn from `read_input` on keeps what the run keeps. -/
theorem readTurn_sound {w : History Host} (hw : w.Holds Sound Quiet)
    (hready : Ready usb.interfaceNumber w.now) (hconn : w.now.device.disconnected = false)
    {loop : RunBridge} (hend : loop.ending = none) (x : LoopInput) :
    RunSound usb (readTurn errorName T options usb w loop x).1 ∧
      CallReady usb (readTurn errorName T options usb w loop x).2 := by
  have hcall : CallReady usb ⟨some ⟨w.now, x.transfer, []⟩, .nothing⟩ := by
    intro call h
    obtain rfl := Option.some.inj h
    exact ⟨hw.now, hready⟩
  have hcall' : ∀ w' it, CallReady usb
      (finishTurn T options w' loop (ReadCall.mk w.now x.transfer) it).2 := by
    intro w' it call h
    rw [finishTurn_read] at h
    obtain rfl := Option.some.inj h
    exact ⟨hw.now, hready⟩
  have hset := holds_step hw (·.setDevice w.now.device) (setDevice_quiet hw.now rfl hw.now.gone)
  rcases readInput_cases errorName usb (ready_open hready) x.transfer with
    ⟨bytes, hread⟩ | hread | ⟨what, hread, -⟩
  · rw [readTurn_read hread (by simp [readResult, hconn])]
    exact ⟨finishTurn_sound hset fun _ => ⟨hready, hconn⟩, hcall' _ _⟩
  · have hlost := holds_step hw (·.setDevice { w.now.device with disconnected := true })
      (setDevice_quiet hw.now rfl fun _ => ready_initialized hready)
    obtain ⟨hkept, -, hafter⟩ := connect_keeps errorName usb hlost x.attempts
    rcases readTurn_gone_cases hread rfl with hturn | ⟨exit, hexit, -, hturn⟩
    · rw [hturn]
      exact ⟨connecting_sound hkept _, hcall⟩
    · rw [hturn]
      refine ⟨finishTurn_sound hkept fun hnone => ?_, hcall' _ _⟩
      by_cases hconnected : exit = .connected
      · obtain ⟨hready1, -, hconn1⟩ := hafter (hexit.trans (congrArg some hconnected))
        exact ⟨hready1, hconn1⟩
      · rw [iterate_stopped hend rfl (decide_eq_false hconnected)] at hnone
        cases hnone
  · rw [readTurn_read hread (by simp [readResult])]
    exact ⟨finishTurn_sound hset fun _ => ⟨hready, hconn⟩, hcall' _ _⟩

theorem hotswapStep_sound (errorName : Int → String) (T : Protocol.Tables) (options : AppOptions)
    {s : BridgeRun} (hs : RunSound usb s) (x : LoopInput) :
    RunSound usb (hotswapStep errorName T options usb s x).1 ∧
      CallReady usb (hotswapStep errorName T options usb s x).2 := by
  unfold hotswapStep
  split
  · rename_i hphase
    obtain ⟨hready, hconn, hend⟩ := hs.looping hphase
    obtain ⟨hlook, hhandles, hdevice⟩ := lookAtRunning_keeps hs.holds x.signalled
    simp only
    split
    · exact ⟨leave_sound hlook _ _, callReady_nothing⟩
    · split
      · exact ⟨leave_sound hlook _ _, callReady_nothing⟩
      · rename_i fed _
        have hend' : ({ s.loop with protocol := fed.protocol } : RunBridge).ending = none := hend
        have hcurrent : (lookAtRunning s.world x.signalled).now.current = s.world.now.current := by
          rw [Host.current, Host.current, hdevice, hhandles]
        refine readTurn_sound hlook ?_ ?_ hend' x
        · obtain ⟨e, he, hdata⟩ := hready
          exact ⟨e, hcurrent.trans he, hdata⟩
        · rw [hdevice]
          exact hconn
  · exact ⟨hs, callReady_nothing⟩

theorem run_sound (errorName : Int → String) (T : Protocol.Tables) (options : AppOptions)
    (usb : UsbOptions) (start : StartInput) (inputs : List LoopInput) :
    RunSound usb ((hotswap errorName T options usb).final
        (runBridgeStart errorName options usb start) inputs) ∧
      ∀ out ∈ (hotswap errorName T options usb).outs
        (runBridgeStart errorName options usb start) inputs, CallReady usb out :=
  Machine.invariant _ (I := RunSound usb) (P := CallReady usb) inputs
    (fun _ x _ hs => hotswapStep_sound errorName T options hs x) (runBridgeStart_sound start)

/-- **The life of the handles**: whatever fails when, at every moment at most the newest handle, list
and descriptor are held and all others have been given back exactly once; when `run_bridge` has been
left all have; and every `read_input` finds the handle open, claimed and initialized. -/
theorem handle_lifecycle (errorName : Int → String) (T : Protocol.Tables) (options : AppOptions)
    (usb : UsbOptions) (start : StartInput) (inputs : List LoopInput) :
    let first := runBridgeStart errorName options usb start
    let last := (hotswap errorName T options usb).final first inputs
    (last.world.Always fun host =>
      Ledger.Single host.handles ∧ Ledger.Single host.lists ∧ Ledger.Single host.configs) ∧
    (∀ exit, last.phase = .exited exit → Ledger.Returned last.world.now.handles ∧
      Ledger.Returned last.world.now.lists ∧ Ledger.Returned last.world.now.configs) ∧
    ∀ out ∈ (hotswap errorName T options usb).outs first inputs, ∀ call, out.read = some call →
      (∃ e, Ledger.newest call.host.handles = some e ∧ e.releases = 0 ∧
        e.data = ⟨some usb.interfaceNumber, true⟩) ∧
      call.host.device.handle.map (· + 1) = some call.host.handles.length ∧
      Ledger.Returned call.host.lists ∧ Ledger.Returned call.host.configs ∧
      (readInput errorName usb call.host.device call.transfer).2 ≠
        .error "USB device is not open" := by
  intro first last
  obtain ⟨hlast, houts⟩ := run_sound errorName T options usb start inputs
  refine ⟨⟨hlast.holds.now.single, fun host hhost => ?_⟩, fun exit hexit => ?_,
    fun out hout call hcall => ?_⟩
  · obtain ⟨list, config, hmoment⟩ := hlast.holds.always.2 host hhost
    exact hmoment.single
  · have hquiet := hlast.holds.now
    have hhandles := hquiet.handles
    rw [hlast.exited exit hexit] at hhandles
    exact ⟨hhandles.returned, hquiet.lists.returned, hquiet.configs.returned⟩
  · obtain ⟨hquiet, hready⟩ := houts out hout call hcall
    obtain ⟨e, hcurrent, hdata⟩ := hready
    obtain ⟨hheld, hnewest⟩ := hquiet.current_eq hcurrent
    obtain ⟨id, hid, -⟩ := Option.bind_eq_some_iff.1 hcurrent
    refine ⟨⟨e, hnewest, hheld, hdata⟩, ?_, hquiet.lists.returned, hquiet.configs.returned, ?_⟩
    · rw [hid]
      exact congrArg some (hquiet.handles.newest id hid)
    · have hopen : call.host.device.handle ≠ none := by simp [hid]
      rcases readInput_cases errorName usb hopen call.transfer with
        ⟨bytes, hread⟩ | hread | ⟨what, hread, hne⟩
      · rw [hread]
        exact fun h => (by cases h)
      · rw [hread]
        exact fun h => (by cases h)
      · rw [hread]
        exact fun h => hne (Except.error.inj h)

end Bridge
