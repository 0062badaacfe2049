import S4Bridge.Probe.Proof.Steps

/-!
# Runs of the probe

* `writeLoop_open`, `streamLoop_open`: what the loops do on an open device, from their steps.
* `probe_lifecycle`: what the probe holds at every moment, and that nothing is held once it is left.
* `write_probe`: a write probe goes through the acts it plans, in order, up to the first that fails.
-/

namespace Probe

open Device Startup Formatted Bridge Args

variable (errorName : Int → String) (options : Args.AppOptions)

/-! ## The loop of cycles -/

theorem writeLoop_open {s : ProbeRun} (hopen : s.world.now.device.handle ≠ none)
    (hout : options.usb.outputEndpoint ≠ 0) (env : Nat → CycleEnv) :
    let acts := Retry.upTo (Act.done options.usb) (plan options env)
    let run := Retry.run (writeCycle errorName options) s (cyclesOf options env)
    Leads options.usb s acts (acts.flatMap (Act.printed options.usb)) run.1 ∧
      run.2 = ((plan options env).find? (!Act.done options.usb ·)).map
        (Act.error errorName options.usb) := by
  intro acts run
  have hrun := @Retry.run_upTo _ _ _ (writeCycle errorName options) s (cyclesOf options env) _
    (cycleActs options) (Act.done options.usb)
    (fun s acts s' => Leads options.usb s acts (acts.flatMap (Act.printed options.usb)) s')
    (fun act what => what = act.error errorName options.usb)
    (fun s => s.world.now.device.handle ≠ none) (Leads.refl _)
    (fun s s' s'' as bs h h' => by
      rw [List.flatMap_append]
      exact h.trans h')
    (fun s cycle s' hs hturn => by
      have hcycle := writeCycle_open errorName options hs hout cycle
      rw [hturn] at hcycle
      have hnone := hcycle.all_done
      have hleads := hcycle.1
      rw [Retry.upTo_eq_self hnone] at hleads
      exact ⟨hleads.handle ▸ hs, hleads, hnone⟩)
    (fun s cycle s' what hs hturn => by
      have hcycle := writeCycle_open errorName options hs hout cycle
      rw [hturn] at hcycle
      obtain ⟨hleads, hresult⟩ := hcycle
      refine ⟨hleads, ?_⟩
      cases hfind : (cycleActs options cycle).find? (!Act.done options.usb ·) with
      | none =>
        rw [hfind] at hresult
        cases hresult
      | some act =>
        rw [hfind] at hresult
        exact ⟨act, rfl, Except.error.inj hresult⟩)
    hopen
  refine ⟨hrun.1, ?_⟩
  rcases hrun.2 with ⟨hnone, hends, -⟩ | ⟨act, what, hfailed, hends, rfl⟩
  · exact hends.trans (congrArg (Option.map (Act.error errorName options.usb)) hnone.symm)
  · exact hends.trans (congrArg (Option.map (Act.error errorName options.usb)) hfailed.symm)

/-! ## Before the loops -/

theorem printDescriptors_closed (list : Except Int (List ListedDevice)) :
    (printDescriptors options.usb (.start {}) {} list).1.1.Holds Sound Closed := by
  have hstart : (History.start ({} : Host)).Holds Sound Quiet :=
    ⟨⟨start_closed.quiet.sound, fun s hs => (by cases hs)⟩, start_closed.quiet⟩
  obtain ⟨hkept, hsame⟩ := printDescriptors_keeps options.usb hstart {} list
  exact ⟨hkept.always, hkept.now, hsame.handle, hsame.disconnected⟩

/-- Not the text of a device that is not open, by its fifth character. -/
def Worded (what : String) : Prop := what.toList[4]? ≠ some 'd'

instance (what : String) : Decidable (Worded what) := inferInstanceAs (Decidable (_ ≠ _))

theorem Worded.ne {what : String} (h : Worded what) : what ≠ "USB device is not open" := by
  rintro rfl
  exact absurd h (by decide)

theorem worded_check {message : String} (hlength : 4 < message.toList.length)
    (hmessage : Worded message) (rc : Int) : Worded (checkMessage errorName message rc) := by
  rwa [Worded, checkMessage, String.toList_append, String.toList_append, List.append_assoc,
    List.getElem?_append_left hlength]

/-- The outcome throws no such text. -/
def OpenWorded (outcome : Outcome) : Prop := ∀ what, outcome = .threw what → Worded what

theorem openWorded_threw {what : String} (h : Worded what) : OpenWorded (.threw what) := by
  rintro _ ⟨rfl⟩
  exact h

theorem openWorded_returned : OpenWorded .returned := fun _ h => by cases h

theorem resolveEndpointTypes_worded (w : History Host) (env : OpenEnv) :
    OpenWorded (resolveEndpointTypes errorName options.usb w env).2 := by
  unfold resolveEndpointTypes
  split
  · exact openWorded_threw (by decide +kernel)
  · split
    · exact openWorded_threw (worded_check errorName (by decide +kernel) (by decide +kernel) _)
    · simp only
      split
      · exact openWorded_threw (by decide +kernel)
      · split
        · exact openWorded_threw (by decide +kernel)
        · exact openWorded_returned

theorem configure_worded (w : History Host) (env : OpenEnv) :
    OpenWorded (configure errorName options.usb w env).2 := by
  unfold configure
  simp only
  split
  · exact openWorded_threw (worded_check errorName (by decide +kernel) (by decide +kernel) _)
  · split
    · exact openWorded_threw (worded_check errorName (by decide +kernel) (by decide +kernel) _)
    · split
      · exact openWorded_threw (worded_check errorName (by decide +kernel) (by decide +kernel) _)
      · exact resolveEndpointTypes_worded errorName options _ env

theorem openDevice_worded (w : History Host) (env : OpenEnv) :
    OpenWorded (openDevice errorName options.usb w env).2 := by
  unfold openDevice
  split
  · exact openWorded_threw (by decide +kernel)
  · simp only
    split
    · exact openWorded_threw (by decide +kernel)
    · split
      · exact openWorded_threw (by decide +kernel)
      · split
        · exact openWorded_threw (worded_check errorName (by decide +kernel) (by decide +kernel) _)
        · exact configure_worded errorName options _ env

/-- How `open` ends on a closed device. -/
theorem openDevice_cases {w : History Host} (hw : w.Holds Sound Closed) (env : OpenEnv) :
    (∃ w', openDevice errorName options.usb w env = (w', .returned) ∧
      (Opens options.usb env ∧ Configures options.usb env) ∧ w'.Holds Sound Quiet ∧
      w'.now.device.handle ≠ none ∧ w'.now.running = w.now.running) ∨
    ∃ w' what, openDevice errorName options.usb w env = (w', .threw what) ∧
      ¬ (Opens options.usb env ∧ Configures options.usb env) ∧ w'.Holds Sound Quiet ∧
      Worded what := by
  have hkeeps := openDevice_keeps errorName options.usb hw env
  have hrunning := openDevice_running errorName options.usb w env
  have hworded := openDevice_worded errorName options w env
  have hreturned : (openDevice errorName options.usb w env).2 = .returned ↔
      Opens options.usb env ∧ Configures options.usb env := by
    by_cases hopens : Opens options.usb env
    · obtain ⟨w1, hconfigure, -⟩ := openDevice_opened errorName options.usb (w := w) hopens
      rw [hconfigure, (configure_spec errorName options.usb env).1]
      exact (and_iff_right hopens).symm
    · exact iff_of_false (openDevice_unopened errorName options.usb hopens).1
        fun h => hopens h.1
  generalize openDevice errorName options.usb w env = opened at *
  obtain ⟨w', outcome⟩ := opened
  cases outcome with
  | running => exact absurd rfl hkeeps.ends
  | returned =>
    have hhandle := (hkeeps.opened rfl).2.1
    exact .inl ⟨w', rfl, hreturned.1 rfl, hkeeps.holds, by rw [hhandle]; simp, hrunning⟩
  | threw what =>
    exact .inr ⟨w', what, rfl, fun h => Outcome.noConfusion (hreturned.2 h), hkeeps.holds,
      hworded what rfl⟩

theorem readError_worded (usb : UsbOptions) (t : Transferred) :
    Worded (readError usb errorName t) := by
  have hsize : Worded "Report size must be > 0" := by decide
  have hfailed : Worded (checkMessage errorName "USB input transfer failed" t.rc) :=
    worded_check errorName (by decide +kernel) (by decide +kernel) _
  unfold readError
  split
  · exact hsize
  · exact hfailed

theorem act_worded (usb : UsbOptions) (a : Act) : Worded (a.error errorName usb) := by
  cases a with
  | write payload t =>
    have hshort : Worded "USB output transfer was short" := by decide +kernel
    have hfailed : Worded (checkMessage errorName "USB output transfer failed" t.rc) :=
      worded_check errorName (by decide +kernel) (by decide +kernel) _
    simp only [Act.error]
    split
    · exact hfailed
    · exact hshort
  | read t => exact readError_worded errorName usb t
  | sleep ms => exact (by decide : Worded "")

/-! ## What the probe holds -/

/-- What holds of the probe at any time: it keeps what it holds, and nothing once it is left. -/
structure ProbeSound (r : ProbeRun × Option Exit) : Prop where
  holds : r.1.world.Holds Singles Kept
  exited : ∀ exit, r.2 = some exit → r.1.world.now.device.handle = none
  worded : ∀ what, r.2 = some (.threw what) → Worded what

theorem leave_probe {s : ProbeRun} (hs : s.world.Holds Singles Kept) {exit : Exit}
    (hexit : ∀ what, exit = .threw what → Worded what) : ProbeSound (leave s exit) := by
  obtain ⟨hkept, hnone⟩ := hs.now.closeHandle
  exact ⟨kept_step hs (·.closeHandle) hkept, fun _ _ => hnone,
    fun what h => hexit what (Option.some.inj h)⟩

theorem writeProbe_sound {s : ProbeRun} (hs : s.world.Holds Sound Closed) (x : ProbeInput) :
    ProbeSound (writeProbe errorName options s x) := by
  have hquiet : s.world.Holds Singles Kept := kept_of_quiet ⟨hs.always, hs.now.quiet⟩
  unfold writeProbe
  split
  · have hrequires : Worded "--write-hex requires --out-ep" := by decide +kernel
    exact leave_probe hquiet fun what h => Exit.threw.inj h ▸ hrequires
  · rename_i hout
    rcases openDevice_cases errorName options hs x.openEnv with
      ⟨w, hopen, -, hw, hhandle, -⟩ | ⟨w, what, hopen, -, hw, hworded⟩
    · rw [hopen]
      obtain ⟨hleads, hends⟩ := writeLoop_open errorName options
        (s := { s with world := w, cout := printWriting options s.cout }) hhandle hout x.cycles
      simp only
      generalize Retry.run (writeCycle errorName options) _ _ = run at hleads hends ⊢
      obtain ⟨s', how⟩ := run
      have hkept := hleads.kept (kept_of_quiet hw)
      cases how with
      | none =>
        have hreturned : ∀ what, Exit.returned 0 = .threw what → Worded what := fun _ h => by
          cases h
        exact leave_probe
          (s := { s' with cout := (s'.cout.putText "Write probe complete.").endl }) hkept hreturned
      | some what =>
        obtain ⟨act, -, rfl⟩ := Option.map_eq_some_iff.1 hends.symm
        exact leave_probe hkept fun what h => Exit.threw.inj h ▸ act_worded errorName _ act
    · rw [hopen]
      exact leave_probe (kept_of_quiet hw) fun _ h => Exit.threw.inj h ▸ hworded

/-! ## The loop of the stream -/

/-- The loop goes on. -/
def goesOn (options : UsbOptions) (x : StreamInput) : Bool :=
  !x.signalled && decide (Readable options x.transfer)

/-- How the loop is left where it does not. -/
def streamExit (errorName : Int → String) (options : UsbOptions) (x : StreamInput) : Exit :=
  if x.signalled then .returned 0 else .threw (readError options errorName x.transfer)

def packetLine (packet : List UInt8) : List Char := (hexDump packet).toList ++ ['\n']

def streamActs (x : StreamInput) : List Act := if x.signalled then [] else [.read x.transfer]

def streamLine (options : UsbOptions) (x : StreamInput) : List Char :=
  if x.signalled then [] else lineOf options packetLine x.transfer

theorem printPacket_text (packet : List UInt8) :
    Stream.Writes (printPacket · packet) (packetLine packet) := by
  rintro s ⟨hbase, hwidth⟩
  refine ⟨⟨hbase, rfl⟩, ?_⟩
  simp [printPacket, Stream.putText, hwidth, packetLine]

theorem streamTurn_open {s : ProbeRun} (hopen : s.world.now.device.handle ≠ none)
    (hrunning : s.world.now.running = true) (x : StreamInput) :
    match streamTurn errorName options s x with
    | .again s' => Leads options.usb s (streamActs x) (streamLine options.usb x) s' ∧
        s'.world.now.running = true ∧ goesOn options.usb x = true
    | .exit s' how => Leads options.usb s (streamActs x) (streamLine options.usb x) s' ∧
        goesOn options.usb x = false ∧ how = streamExit errorName options.usb x := by
  unfold streamTurn lookAtRunning goesOn streamExit streamActs streamLine
  cases hsignal : x.signalled with
  | true =>
    have hkept : s.world.Holds Singles Kept →
        (s.world.step (·.stopRunning)).Holds Singles Kept := fun hw =>
      kept_step hw (·.stopRunning) hw.now.stopRunning
    show Leads options.usb s [] [] { s with world := s.world.step (·.stopRunning) } ∧ _
    refine ⟨⟨hkept, rfl, ?_, fun h => ⟨h, ?_⟩⟩, by simp⟩
    · exact (List.append_nil _).symm
    · exact (List.append_nil _).symm
  | false =>
    obtain ⟨s', hleads, hsame, hread⟩ :=
      readAndPrint_open errorName options printPacket_text hopen x.transfer
    simp only [Bool.false_eq_true, if_false, hrunning, Bool.not_true, hread]
    by_cases hreadable : Readable options.usb x.transfer
    · simp only [if_pos hreadable]
      exact ⟨hleads, hsame.trans hrunning, by simpa using hreadable⟩
    · simp only [if_neg hreadable]
      exact ⟨hleads, by simpa using hreadable⟩

theorem streamLoop_open {s : ProbeRun} (hopen : s.world.now.device.handle ≠ none)
    (hrunning : s.world.now.running = true) (turns : List StreamInput) :
    let made := Retry.upTo (goesOn options.usb) turns
    let run := Retry.run (streamTurn errorName options) s turns
    Leads options.usb s (made.flatMap streamActs) (made.flatMap (streamLine options.usb)) run.1 ∧
      run.2 = (turns.find? (!goesOn options.usb ·)).map (streamExit errorName options.usb) := by
  intro made run
  have hrun := @Retry.run_upTo _ _ _ (streamTurn errorName options) s turns _ (fun x => [x])
    (goesOn options.usb)
    (fun s xs s' =>
      Leads options.usb s (xs.flatMap streamActs) (xs.flatMap (streamLine options.usb)) s')
    (fun x how => how = streamExit errorName options.usb x)
    (fun s => s.world.now.device.handle ≠ none ∧ s.world.now.running = true)
    (Leads.refl _)
    (fun s s' s'' xs ys h h' => by
      rw [List.flatMap_append, List.flatMap_append]
      exact h.trans h')
    (fun s x s' hs hturn => by
      have hstep := streamTurn_open errorName options hs.1 hs.2 x
      rw [hturn] at hstep
      obtain ⟨hleads, hrunning, hgoes⟩ := hstep
      exact ⟨⟨hleads.handle ▸ hs.1, hrunning⟩, by simpa using hleads, by simp [hgoes]⟩)
    (fun s x s' how hs hturn => by
      have hstep := streamTurn_open errorName options hs.1 hs.2 x
      rw [hturn] at hstep
      obtain ⟨hleads, hgoes, hhow⟩ := hstep
      exact ⟨by simpa [Retry.upTo] using hleads, x, by simp [hgoes], hhow⟩)
    ⟨hopen, hrunning⟩
  rw [List.flatMap_singleton'] at hrun
  refine ⟨hrun.1, ?_⟩
  rcases hrun.2 with ⟨hnone, hends, -⟩ | ⟨x, how, hfailed, hends, rfl⟩
  · rw [hnone]
    exact hends
  · rw [hfailed]
    exact hends

theorem streamExit_worded (usb : UsbOptions) (x : StreamInput) (what : String)
    (h : streamExit errorName usb x = .threw what) : Worded what := by
  unfold streamExit at h
  split at h
  · cases h
  · obtain rfl := Exit.threw.inj h
    exact readError_worded errorName usb x.transfer

theorem streamProbe_sound {s : ProbeRun} (hs : s.world.Holds Sound Closed)
    (hrunning : s.world.now.running = true) (x : ProbeInput) (turns : List StreamInput) :
    ProbeSound (streamProbe errorName options s x turns) := by
  unfold streamProbe
  rcases openDevice_cases errorName options hs x.openEnv with
    ⟨w, hopen, -, hw, hhandle, hsame⟩ | ⟨w, what, hopen, -, hw, hworded⟩
  · rw [hopen]
    obtain ⟨hleads, hends⟩ := streamLoop_open errorName options
      (s := { s with world := w }) hhandle (hsame.trans hrunning) turns
    simp only
    generalize Retry.run (streamTurn errorName options) _ _ = run at hleads hends ⊢
    obtain ⟨s', how⟩ := run
    have hkept := hleads.kept (kept_of_quiet hw)
    cases how with
    | none => exact ⟨hkept, fun _ h => (by cases h), fun _ h => (by cases h)⟩
    | some exit =>
      obtain ⟨y, -, rfl⟩ := Option.map_eq_some_iff.1 hends.symm
      exact leave_probe hkept (streamExit_worded errorName options.usb y)
  · rw [hopen]
    exact leave_probe (kept_of_quiet hw) fun _ h => Exit.threw.inj h ▸ hworded

theorem printDevices_running (usb : UsbOptions) (devices : List ListedDevice)
    (s : History Host × Stream) :
    (devices.foldl (printDevice usb) s).1.now.running = s.1.now.running := by
  induction devices generalizing s with
  | nil => rfl
  | cons d devices ih =>
    rw [List.foldl_cons, ih]
    unfold printDevice
    split
    · rfl
    · split
      · rfl
      · simp only
        split <;> rfl

theorem printDescriptors_running (list : Except Int (List ListedDevice)) :
    (printDescriptors options.usb (.start {}) {} list).1.1.now.running = true := by
  cases list with
  | error rc => rfl
  | ok devices => exact printDevices_running options.usb devices _

/-- How the listing ends. -/
theorem printDescriptors_ends (list : Except Int (List ListedDevice)) :
    (printDescriptors options.usb (.start {}) {} list).2 =
      match list with
      | .error _ => .threw "Failed to enumerate USB devices"
      | .ok _ => .returned := by
  cases list <;> rfl

theorem runProbe_sound (x : ProbeInput) (turns : List StreamInput) :
    ProbeSound (runProbe errorName options x turns) := by
  have hclosed := printDescriptors_closed options x.deviceList
  have hrunning := printDescriptors_running options x.deviceList
  have hends := printDescriptors_ends options x.deviceList
  have hinit : Worded (checkMessage errorName "Failed to initialize libusb" x.contextRc) :=
    worded_check errorName (by decide +kernel) (by decide +kernel) _
  have hlist : Worded "Failed to enumerate USB devices" := by decide +kernel
  unfold runProbe
  split
  · refine ⟨kept_of_quiet ⟨⟨start_closed.quiet.sound, fun s hs => (by cases hs)⟩,
      start_closed.quiet⟩, fun _ _ => rfl, fun what h => ?_⟩
    exact Exit.threw.inj (Option.some.inj h) ▸ hinit
  · generalize printDescriptors options.usb (.start {}) {} x.deviceList = printed at *
    obtain ⟨⟨w, cout⟩, outcome⟩ := printed
    have hkept : w.Holds Singles Kept := kept_of_quiet ⟨hclosed.always, hclosed.now.quiet⟩
    have hreturned : ∀ what, Exit.returned 0 = .threw what → Worded what := fun _ h => by cases h
    cases hdevices : x.deviceList with
    | error rc =>
      rw [hdevices] at hends
      obtain rfl : outcome = .threw "Failed to enumerate USB devices" := hends
      exact leave_probe (s := ⟨w, cout, []⟩) hkept fun _ h => Exit.threw.inj h ▸ hlist
    | ok devices =>
      rw [hdevices] at hends
      obtain rfl : outcome = .returned := hends
      simp only
      split
      · exact writeProbe_sound errorName options (s := ⟨w, cout, []⟩) hclosed x
      · split
        · exact leave_probe (s := ⟨w, cout, []⟩) hkept hreturned
        · exact streamProbe_sound errorName options (s := ⟨w, cout, []⟩) hclosed hrunning x turns

/-- **The life of the probe's handles**: whatever fails when, at every moment at most the newest
handle, list and descriptor are held and all others have been given back exactly once; when the probe
has been left, however, all have; and it never calls a device that is not open. -/
theorem probe_lifecycle (x : ProbeInput) (turns : List StreamInput) :
    let run := runProbe errorName options x turns
    (run.1.world.Always fun host => Ledger.Single host.handles ∧ Ledger.Single host.lists ∧
      Ledger.Single host.configs) ∧
    (run.2.isSome → Ledger.Returned run.1.world.now.handles ∧
      Ledger.Returned run.1.world.now.lists ∧ Ledger.Returned run.1.world.now.configs) ∧
    run.2 ≠ some (.threw "USB device is not open") := by
  intro run
  obtain ⟨hholds, hexited, hworded⟩ := runProbe_sound errorName options x turns
  refine ⟨hholds.always, fun hsome => ?_, fun h => (hworded _ h).ne rfl⟩
  obtain ⟨exit, hexit⟩ := Option.isSome_iff_exists.1 hsome
  have hhandles := hholds.now.handles
  have hnone := hexited exit hexit
  rw [show (runProbe errorName options x turns).1.world.now.clearDisconnected.device.handle = none
    from hnone] at hhandles
  exact ⟨hhandles.returned, hholds.now.lists.returned, hholds.now.configs.returned⟩

/-! ## A write probe -/

/-- The device is found and can be opened. -/
structure Started (options : Args.AppOptions) (x : ProbeInput) : Prop where
  context : ¬ x.contextRc.val < 0
  listed : ∃ devices, x.deviceList = .ok devices
  opens : Opens options.usb x.openEnv
  configures : Configures options.usb x.openEnv

/-- Those of the acts that are made. -/
def madeActs (options : UsbOptions) (acts : List Act) : List Act := acts.filter (Act.made options)

/-- What a write probe prints behind the listing: what it is about to do, the responses, and that it
is complete if it is. -/
def writeText (options : Args.AppOptions) (env : Nat → CycleEnv) : List Char :=
  (printWriting options {}).text ++
    (Retry.upTo (Act.done options.usb) (plan options env)).flatMap (Act.printed options.usb) ++
    if (plan options env).all (Act.done options.usb) then "Write probe complete.\n".toList else []

theorem printWriting_text :
    Stream.Writes (printWriting options) (printWriting options {}).text := by
  rintro ⟨text, base, fill, width⟩ ⟨hbase, hwidth⟩
  obtain rfl : base = 10 := hbase
  obtain rfl : width = 0 := hwidth
  unfold printWriting putInt
  simp only
  split <;> exact ⟨⟨rfl, rfl⟩, by
    simp [Stream.putText, Stream.putNat, Stream.put, Stream.hex, Stream.setw, Stream.setfill,
      Stream.dec, List.leftpad]⟩

theorem find?_not_eq_none {α : Type*} {p : α → Bool} {l : List α} :
    l.find? (!p ·) = none ↔ l.all p = true := by
  rw [List.find?_eq_none, List.all_eq_true]
  simp

/-- How a probe of acts ends: with the first that fails. -/
def endOf (errorName : Int → String) (options : Args.AppOptions) (acts : List Act) : Exit :=
  (acts.find? (!Act.done options.usb ·)).elim (.returned 0)
    fun act => .threw (act.error errorName options.usb)

theorem writeProbe_opens {s : ProbeRun} (hs : s.world.Holds Sound Closed) (hplain : s.cout.Plain)
    {x : ProbeInput} (hout : options.usb.outputEndpoint ≠ 0)
    (hopens : Opens options.usb x.openEnv ∧ Configures options.usb x.openEnv) :
    (writeProbe errorName options s x).1.acts =
        s.acts ++ madeActs options.usb (Retry.upTo (Act.done options.usb) (plan options x.cycles)) ∧
      (writeProbe errorName options s x).1.cout.text = s.cout.text ++ writeText options x.cycles ∧
      (writeProbe errorName options s x).2 =
        some (endOf errorName options (plan options x.cycles)) := by
  unfold writeProbe
  rw [if_neg hout]
  rcases openDevice_cases errorName options hs x.openEnv with
    ⟨w, hopen, -, -, hhandle, -⟩ | ⟨w, what, hopen, hnot, -⟩
  · rw [hopen]
    obtain ⟨hwriting, hwritingText⟩ := printWriting_text options s.cout hplain
    obtain ⟨hleads, hends⟩ := writeLoop_open errorName options
      (s := { s with world := w, cout := printWriting options s.cout }) hhandle hout x.cycles
    obtain ⟨hlast, htext⟩ := hleads.text hwriting
    simp only
    generalize Retry.run (writeCycle errorName options) _ _ = run at hleads hends hlast htext ⊢
    obtain ⟨s', how⟩ := run
    have hbefore : s'.cout.text = s.cout.text ++ ((printWriting options {}).text ++
        (Retry.upTo (Act.done options.usb) (plan options x.cycles)).flatMap
          (Act.printed options.usb)) := by
      rw [← List.append_assoc, ← hwritingText]
      exact htext
    have hwidth : s'.cout.width = 0 := hlast.width
    unfold writeText endOf
    cases hfind : (plan options x.cycles).find? (!Act.done options.usb ·) with
    | none =>
      rw [hfind] at hends
      obtain rfl : how = none := hends
      refine ⟨hleads.acts, ?_, rfl⟩
      have hall : (plan options x.cycles).all (Act.done options.usb) = true :=
        find?_not_eq_none.1 hfind
      simp [leave, Stream.putText, hwidth, hbefore, hall]
    | some act =>
      rw [hfind] at hends
      obtain rfl : how = some (act.error errorName options.usb) := hends
      refine ⟨hleads.acts, ?_, rfl⟩
      have hall : (plan options x.cycles).all (Act.done options.usb) = false := by
        rw [Bool.eq_false_iff]
        intro hall
        rw [find?_not_eq_none.2 hall] at hfind
        cases hfind
      simp [leave, hbefore, hall]
  · exact absurd hopens hnot

theorem writeProbe_unopened {s : ProbeRun} (hs : s.world.Holds Sound Closed) {x : ProbeInput}
    (h : options.usb.outputEndpoint = 0 ∨
      ¬ (Opens options.usb x.openEnv ∧ Configures options.usb x.openEnv)) :
    (writeProbe errorName options s x).1.acts = s.acts ∧
      (writeProbe errorName options s x).1.cout = s.cout ∧
      ∃ what, (writeProbe errorName options s x).2 = some (.threw what) := by
  unfold writeProbe
  split
  · exact ⟨rfl, rfl, _, rfl⟩
  · rename_i hout
    rcases openDevice_cases errorName options hs x.openEnv with
      ⟨w, hopen, hopens, -⟩ | ⟨w, what, hopen, -⟩
    · exact absurd hopens (h.resolve_left hout)
    · rw [hopen]
      exact ⟨rfl, rfl, what, rfl⟩

/-- What is printed first. -/
def listingText (options : Args.AppOptions) (list : Except Int (List ListedDevice)) : List Char :=
  match list with
  | .error _ => []
  | .ok devices => listingCode.text (devices.filterMap (listed options.usb))

theorem printDescriptors_plain (list : Except Int (List ListedDevice)) :
    (printDescriptors options.usb (.start {}) {} list).1.2.Plain ∧
    (printDescriptors options.usb (.start {}) {} list).1.2.text = listingText options list := by
  have hplain : Stream.Plain {} := ⟨rfl, rfl⟩
  cases list with
  | error rc => exact ⟨hplain, rfl⟩
  | ok devices => exact printDescriptors_text options.usb (.start {}) hplain devices

/-- A probe that has a listing goes on from there. -/
theorem runProbe_listed {x : ProbeInput} (hcontext : ¬ x.contextRc.val < 0)
    {devices : List ListedDevice} (hdevices : x.deviceList = .ok devices)
    (turns : List StreamInput) :
    ∃ s : ProbeRun, s.world.Holds Sound Closed ∧ s.world.now.running = true ∧ s.cout.Plain ∧
      s.cout.text = listingText options x.deviceList ∧ s.acts = [] ∧
      runProbe errorName options x turns =
        if !options.writePayload.isEmpty then writeProbe errorName options s x
        else if !options.stream then leave s (.returned 0)
        else streamProbe errorName options s x turns := by
  have hclosed := printDescriptors_closed options x.deviceList
  have hrunning := printDescriptors_running options x.deviceList
  have hends := printDescriptors_ends options x.deviceList
  obtain ⟨hplain, htext⟩ := printDescriptors_plain options x.deviceList
  unfold runProbe
  rw [if_neg hcontext]
  generalize printDescriptors options.usb (.start {}) {} x.deviceList = printed at *
  obtain ⟨⟨w, cout⟩, outcome⟩ := printed
  rw [hdevices] at hends
  obtain rfl : outcome = .returned := hends
  exact ⟨⟨w, cout, []⟩, hclosed, hrunning, hplain, htext, rfl, rfl⟩

/-- A probe without one is over. -/
theorem runProbe_unlisted {x : ProbeInput}
    (h : ¬ (¬ x.contextRc.val < 0 ∧ ∃ devices, x.deviceList = .ok devices))
    (turns : List StreamInput) :
    (runProbe errorName options x turns).1.acts = [] ∧
      (runProbe errorName options x turns).1.cout.text = [] ∧
      ∃ what, (runProbe errorName options x turns).2 = some (.threw what) := by
  unfold runProbe
  split
  · exact ⟨rfl, rfl, _, rfl⟩
  · rename_i hcontext
    cases hdevices : x.deviceList with
    | error rc => exact ⟨rfl, rfl, _, rfl⟩
    | ok devices => exact absurd ⟨hcontext, devices, hdevices⟩ h

/-- **A write probe** whose device can be opened, and which has an output endpoint, goes through the acts
it plans, in order, up to the first that fails, prints what it has received meanwhile, and ends as that
act did; any other does nothing but throw. A response that is refused for the report size is the last
of the acts, and no transfer is made for it. -/
theorem write_probe (hpayload : options.writePayload ≠ []) (x : ProbeInput)
    (turns : List StreamInput) :
    let run := runProbe errorName options x turns
    (Started options x ∧ options.usb.outputEndpoint ≠ 0 →
      run.1.acts = madeActs options.usb (Retry.upTo (Act.done options.usb) (plan options x.cycles)) ∧
      run.1.cout.text = listingText options x.deviceList ++ writeText options x.cycles ∧
      run.2 = some (endOf errorName options (plan options x.cycles))) ∧
    (¬ (Started options x ∧ options.usb.outputEndpoint ≠ 0) →
      run.1.acts = [] ∧ ∃ what, run.2 = some (.threw what)) := by
  intro run
  have hsome : (!options.writePayload.isEmpty) = true := by simpa using hpayload
  by_cases hlisted : ¬ x.contextRc.val < 0 ∧ ∃ devices, x.deviceList = .ok devices
  · obtain ⟨hcontext, devices, hdevices⟩ := hlisted
    obtain ⟨s, hclosed, -, hplain, htext, hacts, hrun⟩ :=
      runProbe_listed errorName options hcontext hdevices turns
    simp only [run, hrun, if_pos hsome, ← htext]
    constructor
    · rintro ⟨hstarted, hout⟩
      have hspec := writeProbe_opens errorName options hclosed hplain hout
        ⟨hstarted.opens, hstarted.configures⟩
      rwa [hacts, List.nil_append] at hspec
    · intro hnot
      have hunopened : options.usb.outputEndpoint = 0 ∨
          ¬ (Opens options.usb x.openEnv ∧ Configures options.usb x.openEnv) := by
        by_contra hcontra
        obtain ⟨hout, hopens⟩ := not_or.1 hcontra
        obtain ⟨hopens, hconfigures⟩ := not_not.1 hopens
        exact hnot ⟨⟨hcontext, ⟨devices, hdevices⟩, hopens, hconfigures⟩, hout⟩
      obtain ⟨hsame, -, hthrew⟩ := writeProbe_unopened errorName options hclosed hunopened
      exact ⟨hsame.trans hacts, hthrew⟩
  · obtain ⟨hacts, -, hthrew⟩ := runProbe_unlisted errorName options hlisted turns
    exact ⟨fun h => absurd ⟨h.1.context, h.1.listed⟩ hlisted, fun _ => ⟨hacts, hthrew⟩⟩

/-! ### A device on which the second write is short -/

def twoCycles : Args.AppOptions :=
  { usb := { probeOptions with inputEndpoint := 0x84, reportSize := 64 }
    stream := true
    writePayload := [0x12, 0x34]
    writeRepeat := 3 }

def shortCycles (index : Nat) : CycleEnv where
  write := ⟨.ok, if index = 0 then [0x12, 0x34] else [0x12]⟩
  response := ⟨.ok, [0xA0, 0x01]⟩

def probeInput : ProbeInput where
  contextRc := .ok
  deviceList := .ok [⟨⟨some (0x17CC, 0xBAFF)⟩, .ok, .ok, []⟩]
  openEnv := probeEnv twoEndpoints
  cycles := shortCycles

theorem started_probeInput : Started twoCycles probeInput where
  context := by decide
  listed := ⟨_, rfl⟩
  opens := ⟨_, rfl, by decide, by decide⟩
  configures := ⟨by decide, by decide, by decide, ⟨⟨_, rfl, _, .head _, rfl⟩, .inl rfl⟩,
    ⟨_, .tail _ (.head _), rfl⟩, .inr ⟨_, .head _, rfl⟩⟩

theorem write_probe_short :
    let run := runProbe (fun _ => "") twoCycles probeInput []
    run.1.acts = [.write [0x12, 0x34] ⟨.ok, [0x12, 0x34]⟩, .read ⟨.ok, [0xA0, 0x01]⟩, .sleep 50,
      .write [0x12, 0x34] ⟨.ok, [0x12]⟩] ∧
    run.2 = some (.threw "USB output transfer was short") := by
  intro run
  obtain ⟨hacts, -, hends⟩ := (write_probe (fun _ => "") twoCycles (by decide)
    probeInput []).1 ⟨started_probeInput, by decide⟩
  exact ⟨hacts.trans (by decide), hends.trans (by decide)⟩

end Probe
