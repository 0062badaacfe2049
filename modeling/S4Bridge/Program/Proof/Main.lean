import Mathlib.Logic.Function.Basic
import S4Bridge.Bridge.Proof.Reads
import S4Bridge.Probe.Proof.Runs
import S4Bridge.Program.Main

/-!
# A run of the program

* `new_spec`, `delete_spec`: what a `CoreMidiBridge` makes and gives back.
* `run_code`, `runProbe_code`: the loops return 0.
* `main_settles`: the exit code, and what has been given back when the program ends.
-/

namespace Program

open Device Startup Bridge Args Probe Protocol Ledger

variable (errorName : Int → String)

/-! ## The CoreMIDI objects -/

/-- The object was made, is held and has not been disposed of. -/
def Has (midi : CoreMidi) (object : MidiObject) : Prop :=
  (∃ name, midi.objects object = [⟨name, 0⟩]) ∧ midi.members object = some 0

/-- The object was not made. -/
def Lacks (midi : CoreMidi) (object : MidiObject) : Prop :=
  midi.objects object = [] ∧ midi.members object = none

/-- Every string was released. -/
def Released (midi : CoreMidi) : Prop := Settled none midi.strings

theorem create_spec (object : MidiObject) (name : String) (status : Int) (what : String)
    {midi : CoreMidi} (hstrings : Released midi) (hlacks : Lacks midi object) :
    let made := create object name status what midi
    Released made.state ∧
      (∀ other, other ≠ object → made.state.objects other = midi.objects other ∧
        made.state.members other = midi.members other) ∧
      (made.raised = none ∧ Has made.state object ∨ made.raised ≠ none ∧ Lacks made.state object) := by
  have hreleased := (Settled.acquire hstrings name).release
  intro made
  by_cases hstatus : status ≠ 0
  · have hmade : made = .raise { midi with
        strings := release (acquire midi.strings name) midi.strings.length } what := if_pos hstatus
    rw [hmade]
    exact ⟨hreleased, fun _ _ => ⟨rfl, rfl⟩, .inr ⟨fun h => (by cases h), hlacks⟩⟩
  · have hmade : made = .ok
        { strings := release (acquire midi.strings name) midi.strings.length
          objects := Function.update midi.objects object (acquire (midi.objects object) name)
          members := Function.update midi.members object (some (midi.objects object).length) } :=
      if_neg hstatus
    rw [hmade]
    refine ⟨hreleased, fun other hother => ?_, .inl ⟨rfl, ⟨name, ?_⟩, ?_⟩⟩
    · exact ⟨Function.update_of_ne hother _ _, Function.update_of_ne hother _ _⟩
    · show Function.update _ object _ object = _
      rw [Function.update_self, hlacks.1]
      rfl
    · show Function.update _ object _ object = _
      rw [Function.update_self, hlacks.1]
      rfl

theorem Has.of_same {midi midi' : CoreMidi} {object : MidiObject} (h : Has midi object)
    (hsame : midi'.objects object = midi.objects object ∧ midi'.members object = midi.members object) :
    Has midi' object := by
  rw [Has, hsame.1, hsame.2]
  exact h

theorem Lacks.of_same {midi midi' : CoreMidi} {object : MidiObject} (h : Lacks midi object)
    (hsame : midi'.objects object = midi.objects object ∧ midi'.members object = midi.members object) :
    Lacks midi' object := by
  rw [Lacks, hsame.1, hsame.2]
  exact h

/-- A constructor makes the objects in order, up to the first that fails. -/
inductive Made (midi : CoreMidi) : Option String → Prop
  | all (h : ∀ object, Has midi object) : Made midi none
  | noDestination (what : String) (hclient : Has midi .client) (hsource : Has midi .source)
      (hdestination : Lacks midi .destination) : Made midi (some what)
  | noSource (what : String) (hclient : Has midi .client) (hsource : Lacks midi .source)
      (hdestination : Lacks midi .destination) : Made midi (some what)
  | noClient (what : String) (h : ∀ object, Lacks midi object) : Made midi (some what)

theorem andThen_of_raised {σ ε : Type*} {x : Effect σ ε} (h : x.raised ≠ none)
    (f : σ → Effect σ ε) : x.andThen f = x := by
  unfold Effect.andThen
  split
  · rename_i hnone
    exact absurd hnone h
  · rfl

theorem new_spec (sourceName destinationName : String) (env : CreateEnv) :
    Released (CoreMidi.new sourceName destinationName env).state ∧
      Made (CoreMidi.new sourceName destinationName env).state
        (CoreMidi.new sourceName destinationName env).raised := by
  have hreleased : Released {} := settled_nil
  have hempty (object : MidiObject) : Lacks {} object := ⟨rfl, rfl⟩
  obtain ⟨hstrings, hothers, hclient⟩ := create_spec .client "s4_mk1_usb2midi" env.clientStatus
    "Failed to create CoreMIDI client" hreleased (hempty .client)
  unfold CoreMidi.new
  generalize create .client "s4_mk1_usb2midi" env.clientStatus _ {} = first at *
  have hsource := (hempty .source).of_same (hothers .source (by decide))
  have hdestination := (hempty .destination).of_same (hothers .destination (by decide))
  rcases hclient with ⟨hnone, hclient⟩ | ⟨hraised, hclient⟩
  · rw [Effect.andThen_of_none hnone]
    obtain ⟨hstrings, hothers, hsource⟩ := create_spec .source sourceName env.sourceStatus
      "Failed to create CoreMIDI virtual source" hstrings hsource
    generalize create .source sourceName env.sourceStatus _ first.state = second at *
    have hclient := hclient.of_same (hothers .client (by decide))
    have hdestination := hdestination.of_same (hothers .destination (by decide))
    rcases hsource with ⟨hnone, hsource⟩ | ⟨hraised, hsource⟩
    · rw [Effect.andThen_of_none hnone]
      obtain ⟨hstrings, hothers, hdestination⟩ := create_spec .destination destinationName
        env.destinationStatus "Failed to create CoreMIDI virtual destination" hstrings hdestination
      generalize create .destination destinationName env.destinationStatus _ second.state = third at *
      have hclient := hclient.of_same (hothers .client (by decide))
      have hsource := hsource.of_same (hothers .source (by decide))
      rcases hdestination with ⟨hnone, hdestination⟩ | ⟨hraised, hdestination⟩
      · rw [hnone]
        refine ⟨hstrings, .all fun object => ?_⟩
        cases object
        · exact hclient
        · exact hsource
        · exact hdestination
      · obtain ⟨what, hwhat⟩ := Option.ne_none_iff_exists'.1 hraised
        rw [hwhat]
        exact ⟨hstrings, .noDestination what hclient hsource hdestination⟩
    · rw [andThen_of_raised hraised]
      obtain ⟨what, hwhat⟩ := Option.ne_none_iff_exists'.1 hraised
      rw [hwhat]
      exact ⟨hstrings, .noSource what hclient hsource hdestination⟩
  · rw [andThen_of_raised hraised, andThen_of_raised hraised]
    obtain ⟨what, hwhat⟩ := Option.ne_none_iff_exists'.1 hraised
    rw [hwhat]
    refine ⟨hstrings, .noClient what fun object => ?_⟩
    cases object
    · exact hclient
    · exact hsource
    · exact hdestination

/-- Every object was disposed of. -/
def Disposed (midi : CoreMidi) : Prop := ∀ object, Returned (midi.objects object)

theorem Has.ne_nil {midi : CoreMidi} {object : MidiObject} (h : Has midi object) :
    midi.objects object ≠ [] := by
  obtain ⟨⟨name, hobjects⟩, -⟩ := h
  rw [hobjects]
  exact List.cons_ne_nil _ _

theorem Has.not_disposed {midi : CoreMidi} {object : MidiObject} (h : Has midi object) :
    ¬ Disposed midi := by
  obtain ⟨⟨name, hobjects⟩, -⟩ := h
  intro hdisposed
  have hone := hdisposed object ⟨name, 0⟩ (by rw [hobjects]; exact .head _)
  cases hone

/-- A constructor that throws leaves the client behind if it made one. -/
theorem disposed_iff_of_made {midi : CoreMidi} {what : String} (h : Made midi (some what)) :
    Disposed midi ↔ midi.objects .client = [] ∨ midi.objects .destination ≠ [] := by
  have hleft (hclient : Has midi .client) (hdestination : Lacks midi .destination) :
      ¬ (midi.objects .client = [] ∨ midi.objects .destination ≠ []) :=
    fun h => h.elim hclient.ne_nil fun hne => hne hdestination.1
  cases h with
  | noDestination _ hclient _ hdestination =>
    exact iff_of_false hclient.not_disposed (hleft hclient hdestination)
  | noSource _ hclient _ hdestination =>
    exact iff_of_false hclient.not_disposed (hleft hclient hdestination)
  | noClient _ hlacks =>
    refine iff_of_true (fun object => ?_) (.inl (hlacks .client).1)
    rw [(hlacks object).1]
    exact fun _ h => by cases h

theorem dispose_spec {midi : CoreMidi} {object : MidiObject} (h : Has midi object) :
    (∃ name, (dispose object midi).objects object = [⟨name, 1⟩]) ∧
      (dispose object midi).strings = midi.strings ∧
      ∀ other, other ≠ object → (dispose object midi).objects other = midi.objects other ∧
        (dispose object midi).members other = midi.members other := by
  obtain ⟨⟨name, hobjects⟩, hmember⟩ := h
  have hdispose : dispose object midi = { midi with
      objects := Function.update midi.objects object (release (midi.objects object) 0) } := by
    rw [dispose, hmember]
  rw [hdispose]
  refine ⟨⟨name, ?_⟩, rfl, fun other hother => ⟨Function.update_of_ne hother _ _, rfl⟩⟩
  show Function.update _ object _ object = _
  rw [Function.update_self, hobjects]
  rfl

/-- **The destructor** disposes of every object, once. -/
theorem delete_spec {midi : CoreMidi} (h : ∀ object, Has midi object) :
    Disposed midi.delete ∧ midi.delete.strings = midi.strings ∧
      midi.delete.objects .destination ≠ [] := by
  obtain ⟨⟨source, hsource⟩, hstrings1, hothers1⟩ := dispose_spec (h .source)
  have hdestination1 := (h .destination).of_same (hothers1 .destination (by decide))
  have hclient1 := (h .client).of_same (hothers1 .client (by decide))
  obtain ⟨⟨destination, hdestination⟩, hstrings2, hothers2⟩ := dispose_spec hdestination1
  have hclient2 := hclient1.of_same (hothers2 .client (by decide))
  obtain ⟨⟨client, hclient⟩, hstrings3, hothers3⟩ := dispose_spec hclient2
  have hsources : midi.delete.objects .source = [⟨source, 1⟩] :=
    (hothers3 .source (by decide)).1.trans ((hothers2 .source (by decide)).1.trans hsource)
  have hdestinations : midi.delete.objects .destination = [⟨destination, 1⟩] :=
    (hothers3 .destination (by decide)).1.trans hdestination
  have hclients : midi.delete.objects .client = [⟨client, 1⟩] := hclient
  refine ⟨fun object => ?_, hstrings3.trans (hstrings2.trans hstrings1), by simp [hdestinations]⟩
  cases object with
  | client =>
    rw [hclients]
    exact fun e he => by rw [List.mem_singleton.1 he]
  | source =>
    rw [hsources]
    exact fun e he => by rw [List.mem_singleton.1 he]
  | destination =>
    rw [hdestinations]
    exact fun e he => by rw [List.mem_singleton.1 he]

/-! ## Exit codes -/

/-- The main loop is left with 0 or an exception. -/
def Ends (s : BridgeRun) : Prop := ∀ code, s.phase = .exited (.returned code) → code = 0

theorem finishTurn_ends (T : Tables) (options : Bridge.AppOptions) (w : History Host)
    (loop : RunBridge) (call : List UInt8 → ReadCall) (it : Iteration) :
    Ends (finishTurn T options w loop call it).1 := by
  unfold finishTurn
  simp only
  split <;> rintro _ ⟨⟩
  rfl

theorem readTurn_ends (T : Tables) (options : Bridge.AppOptions) (usb : UsbOptions)
    (w : History Host) (loop : RunBridge) (x : LoopInput) :
    Ends (readTurn errorName T options usb w loop x).1 := by
  unfold readTurn
  simp only
  split
  · split
    · rintro _ ⟨⟩
    · rintro _ ⟨⟩
    · exact finishTurn_ends T options _ loop _ _
  · exact finishTurn_ends T options _ loop _ _

theorem hotswapStep_ends (T : Tables) (options : Bridge.AppOptions) (usb : UsbOptions)
    {s : BridgeRun} (hs : Ends s) (x : LoopInput) :
    Ends (hotswapStep errorName T options usb s x).1 := by
  unfold hotswapStep
  split
  · simp only
    split
    · rintro _ ⟨⟩
      rfl
    · split
      · rintro _ ⟨⟩
      · exact readTurn_ends errorName T options usb _ _ x
  · exact hs

theorem run_ends (T : Tables) (options : Bridge.AppOptions) (usb : UsbOptions) {s : BridgeRun}
    (hs : s.phase = .looping) (turns : List LoopInput) :
    Ends ((hotswap errorName T options usb).final s turns) := by
  refine ((hotswap errorName T options usb).invariant (I := Ends) (P := fun _ => True) turns
    (fun s x _ hs => ⟨hotswapStep_ends errorName T options usb hs x, trivial⟩) fun code h => ?_).1
  rw [hs] at h
  cases h

/-- The probe is left with 0 or an exception. -/
def ProbeEnds (r : ProbeRun × Option Exit) : Prop := ∀ code, r.2 = some (.returned code) → code = 0

theorem probeEnds_zero (s : ProbeRun) : ProbeEnds (leave s (.returned 0)) := by
  rintro _ ⟨⟩
  rfl

theorem probeEnds_threw (s : ProbeRun) (what : String) : ProbeEnds (leave s (.threw what)) := by
  rintro _ ⟨⟩

theorem writeProbe_ends (options : Args.AppOptions) (s : ProbeRun) (x : ProbeInput) :
    ProbeEnds (writeProbe errorName options s x) := by
  unfold writeProbe
  split
  · exact probeEnds_threw _ _
  · split
    · exact probeEnds_threw _ _
    · simp only
      split
      · exact probeEnds_threw _ _
      · exact probeEnds_zero _

theorem streamTurn_ends (options : Args.AppOptions) (s : ProbeRun) (x : StreamInput) :
    (streamTurn errorName options s x).Ends (fun _ => True)
      fun s exit => ProbeEnds (s, exit) := by
  unfold streamTurn
  simp only
  split
  · rintro _ ⟨⟩
    rfl
  · split
    · rintro _ ⟨⟩
    · trivial

theorem streamLoop_ends (options : Args.AppOptions) (s : ProbeRun) (turns : List StreamInput) :
    ProbeEnds (Retry.run (streamTurn errorName options) s turns) :=
  Retry.run_induct (Q := fun _ => True) (R := fun s exit => ProbeEnds (s, exit))
    (fun _ _ _ h => by cases h) (fun s x _ => streamTurn_ends errorName options s x) trivial

theorem streamProbe_ends (options : Args.AppOptions) (s : ProbeRun) (x : ProbeInput)
    (turns : List StreamInput) : ProbeEnds (streamProbe errorName options s x turns) := by
  unfold streamProbe
  split
  · exact probeEnds_threw _ _
  · rename_i w _ _ _
    split
    · rename_i s' exit heq
      have hends := streamLoop_ends errorName options { s with world := w } turns
      rw [heq] at hends
      exact hends
    · rintro _ ⟨⟩

theorem runProbe_ends (options : Args.AppOptions) (x : ProbeInput) (turns : List StreamInput) :
    ProbeEnds (runProbe errorName options x turns) := by
  unfold runProbe
  split
  · rintro _ ⟨⟩
  · split
    · exact probeEnds_threw _ _
    · simp only
      split
      · exact writeProbe_ends errorName options _ x
      · split
        · exact probeEnds_zero _
        · exact streamProbe_ends errorName options _ x turns

/-! ## Runs of the program -/

/-- Every handle, list and descriptor has been given back. -/
def GivenBack (host : Host) : Prop :=
  Returned host.handles ∧ Returned host.lists ∧ Returned host.configs

theorem givenBack_of_moment {host : Host} (h : Quiet host) (hnone : host.device.handle = none) :
    GivenBack host := by
  have hhandles := h.handles
  rw [hnone] at hhandles
  exact ⟨hhandles.returned, h.lists.returned, h.configs.returned⟩

/-- What holds of a run at any time; `gaveUp` says that the bridge never got to its main loop. -/
structure Settles (gaveUp : Prop) (s : ProgramRun) : Prop where
  single : s.world.Always Singles
  strings : Returned s.midi.strings
  code : ∀ code, s.code = some code → code = 0 ∧ s.failure = none ∨ code = 1
  gaveUp : s.code = some 1 ∧ s.failure = none ↔ gaveUp
  givenBack : s.code.isSome → GivenBack s.world.now
  disposed : s.code.isSome →
    (Disposed s.midi ↔ s.midi.objects .client = [] ∨ s.midi.objects .destination ≠ [])

theorem finish_settles {world : History Host} {midi : CoreMidi} {exit : Option Exit} {gaveUp : Prop}
    (hsingle : world.Always Singles) (hback : exit.isSome → GivenBack world.now)
    (hstrings : Released midi)
    (hdisposed : exit.isSome →
      (Disposed midi ↔ midi.objects .client = [] ∨ midi.objects .destination ≠ []))
    (hcode : ∀ code, exit = some (.returned code) → code = 0 ∨ code = 1)
    (hgave : exit = some (.returned 1) ↔ gaveUp) : Settles gaveUp (finish world midi exit) := by
  cases exit with
  | none =>
    exact ⟨hsingle, hstrings.returned, fun _ h => (by cases h),
      ⟨fun h => (by cases h.1), fun h => (by cases hgave.2 h)⟩, fun h => (by cases h),
      fun h => (by cases h)⟩
  | some exit =>
    cases exit with
    | threw what =>
      exact ⟨hsingle, hstrings.returned, fun _ h => .inr (Option.some.inj h).symm,
        ⟨fun h => (by cases h.2), fun h => (by cases hgave.2 h)⟩, fun _ => hback rfl,
        fun _ => hdisposed rfl⟩
    | returned code =>
      refine ⟨hsingle, hstrings.returned, fun code' h => ?_, ?_, fun _ => hback rfl,
        fun _ => hdisposed rfl⟩
      · obtain rfl := Option.some.inj h
        exact (hcode code rfl).imp_left fun hzero => ⟨hzero, rfl⟩
      · rw [← hgave]
        constructor
        · rintro ⟨⟨⟩, -⟩
          rfl
        · rintro ⟨⟩
          exact ⟨rfl, rfl⟩

theorem disposed_empty : Disposed {} ↔
    ({} : CoreMidi).objects .client = [] ∨ ({} : CoreMidi).objects .destination ≠ [] :=
  iff_of_true (fun _ _ h => by cases h) (.inl rfl)

theorem probe_settles (options : Args.AppOptions) (x : ProgramInput) :
    Settles False (finish (runProbe errorName options x.probe x.packets).1.world {}
      (runProbe errorName options x.probe x.packets).2) := by
  have hsound := runProbe_sound errorName options x.probe x.packets
  have hends := runProbe_ends errorName options x.probe x.packets
  refine finish_settles hsound.holds.always (fun hsome => ?_) settled_nil (fun _ => disposed_empty)
    (fun code h => .inl (hends code h)) ⟨fun h => (by cases hends 1 h), False.elim⟩
  obtain ⟨exit, hexit⟩ := Option.isSome_iff_exists.1 hsome
  have hkept : Quiet (runProbe errorName options x.probe x.packets).1.world.now.clearDisconnected :=
    hsound.holds.now
  have hback := givenBack_of_moment hkept (hsound.exited exit hexit)
  exact hback

/-- The first `connect` returns false. -/
def NeverConnects (usb : UsbOptions) (x : ProgramInput) : Prop :=
  ¬ x.contextRc.val < 0 ∧
    ∃ how, (connect errorName usb (.start {}) x.attempts).2 = some how ∧
      (how = .stopped ∨ ∃ what, how = .hardError what)

theorem not_neverConnects {usb : UsbOptions} {x : ProgramInput}
    (h : (connect errorName usb (.start {}) x.attempts).2 ∈
      [none, some .initRunning, some .connected]) : ¬ NeverConnects errorName usb x := by
  rintro ⟨-, how, hhow, hcase⟩
  rw [hhow] at h
  rcases hcase with rfl | ⟨_, rfl⟩ <;> simp at h

/-- Where `run_bridge` goes first. -/
inductive Starts (options : Bridge.AppOptions) (usb : UsbOptions) (x : StartInput) : Bridge.Phase → Prop
  | noContext (what : String) (h : x.contextRc.val < 0) : Starts options usb x (.exited (.threw what))
  | connecting (hcontext : ¬ x.contextRc.val < 0)
      (h : (connect errorName usb (.start {}) x.attempts).2 = none ∨
        (connect errorName usb (.start {}) x.attempts).2 = some .initRunning) :
      Starts options usb x .connecting
  | gaveUp (hcontext : ¬ x.contextRc.val < 0) (how : ConnectExit)
      (hconnect : (connect errorName usb (.start {}) x.attempts).2 = some how)
      (hhow : how = .stopped ∨ ∃ what, how = .hardError what) :
      Starts options usb x (.exited (.returned 1))
  | noMidi (what : String) (hcontext : ¬ x.contextRc.val < 0)
      (hconnect : (connect errorName usb (.start {}) x.attempts).2 = some .connected)
      (hmidi : x.midi = .error what) : Starts options usb x (.exited (.threw what))
  | loops (hcontext : ¬ x.contextRc.val < 0)
      (hconnect : (connect errorName usb (.start {}) x.attempts).2 = some .connected)
      (hmidi : x.midi = .ok ()) : Starts options usb x .looping

theorem runBridgeStart_starts (options : Bridge.AppOptions) (usb : UsbOptions) (x : StartInput) :
    Starts errorName options usb x (runBridgeStart errorName options usb x).phase := by
  unfold runBridgeStart
  simp only
  split
  · rename_i hcontext
    exact .noContext _ hcontext
  · rename_i hcontext
    cases hconnect : connect errorName usb (.start {}) x.attempts with
    | mk w how =>
      have hsecond : (connect errorName usb (.start {}) x.attempts).2 = how := by rw [hconnect]
      cases how with
      | none => exact .connecting hcontext (.inl hsecond)
      | some how =>
        cases how with
        | initRunning => exact .connecting hcontext (.inr hsecond)
        | stopped => exact .gaveUp hcontext _ hsecond (.inl rfl)
        | hardError what => exact .gaveUp hcontext _ hsecond (.inr ⟨what, rfl⟩)
        | connected =>
          cases hmidi : x.midi with
          | ok u => exact .loops hcontext hsecond hmidi
          | error what => exact .noMidi what hcontext hsecond hmidi

/-- What holds of the `CoreMidiBridge` of a run. -/
theorem midiOf_spec (connected : Option ConnectExit) {made : Effect CoreMidi String}
    (hreleased : Released made.state) (hmade : Made made.state made.raised) (exit : Option Exit) :
    let midi := midiOf connected made exit
    Released midi ∧ (exit.isSome →
      (Disposed midi ↔ midi.objects .client = [] ∨ midi.objects .destination ≠ [])) := by
  intro midi
  by_cases hconnected : connected = some .connected
  · have hmidi : midi = if made.raised.isNone && exit.isSome then made.state.delete else made.state :=
      if_pos hconnected
    rw [hmidi]
    cases hraised : made.raised with
    | some what =>
      rw [hraised] at hmade
      exact ⟨hreleased, fun _ => disposed_iff_of_made hmade⟩
    | none =>
      rw [hraised] at hmade
      cases exit with
      | none => exact ⟨hreleased, fun h => by cases h⟩
      | some exit =>
        cases hmade with
        | all hhas =>
          obtain ⟨hdisposed, hstrings, hne⟩ := delete_spec hhas
          refine ⟨?_, fun _ => iff_of_true hdisposed (.inr hne)⟩
          show Settled none made.state.delete.strings
          rw [hstrings]
          exact hreleased
  · have hmidi : midi = {} := if_neg hconnected
    rw [hmidi]
    exact ⟨settled_nil, fun _ => disposed_empty⟩

/-- How `run_bridge` is left. -/
theorem bridge_exit (options : Args.AppOptions) (x : ProgramInput) (midi : Except String Unit) :
    let first := runBridgeStart errorName options.loop options.usb ⟨x.contextRc, x.attempts, midi⟩
    let last := (hotswap errorName .shipped options.loop options.usb).final first x.turns
    (∀ code, Phase.exit last.phase = some (.returned code) → code = 0 ∨ code = 1) ∧
      (Phase.exit last.phase = some (.returned 1) ↔ NeverConnects errorName options.usb x) := by
  intro first last
  have hstarts := runBridgeStart_starts errorName options.loop options.usb
    ⟨x.contextRc, x.attempts, midi⟩
  have hends (hloops : first.phase = .looping) : Ends last :=
    run_ends errorName .shipped options.loop options.usb hloops x.turns
  have hexit (hleft : first.phase ≠ .looping) : Phase.exit last.phase = Phase.exit first.phase := by
    have hidle := (idle_run errorName .shipped options.loop options.usb hleft x.turns).1
    rw [show last = first from hidle]
  generalize hphase : (runBridgeStart errorName options.loop options.usb
    ⟨x.contextRc, x.attempts, midi⟩).phase = phase at hstarts
  change first.phase = phase at hphase
  rw [hphase] at hexit hends
  cases hstarts with
  | noContext what hcontext =>
    rw [hexit fun h => by cases h]
    exact ⟨fun _ h => (by cases h), fun h => (by cases h), fun h => absurd hcontext h.1⟩
  | connecting hcontext hconnect =>
    rw [hexit fun h => by cases h]
    refine ⟨fun _ h => (by cases h), fun h => (by cases h), fun h => absurd h ?_⟩
    exact not_neverConnects errorName (by rcases hconnect with h | h <;> simp [h])
  | gaveUp hcontext how hconnect hhow =>
    rw [hexit fun h => by cases h]
    refine ⟨?_, fun _ => ⟨hcontext, how, hconnect, hhow⟩, fun _ => rfl⟩
    rintro _ ⟨⟩
    exact .inr rfl
  | noMidi what hcontext hconnect hmidi =>
    rw [hexit fun h => by cases h]
    refine ⟨fun _ h => (by cases h), fun h => (by cases h), fun h => absurd h ?_⟩
    have hfirst : (connect errorName options.usb (.start {}) x.attempts).2 = some .connected :=
      hconnect
    exact not_neverConnects errorName (by simp [hfirst])
  | loops hcontext hconnect hmidi =>
    have hcode : ∀ code, Phase.exit last.phase = some (.returned code) → code = 0 := by
      intro code h
      cases hlast : last.phase with
      | exited exit =>
        rw [hlast] at h
        exact hends rfl code (by rw [hlast, Option.some.inj h])
      | looping => rw [hlast] at h; cases h
      | connecting => rw [hlast] at h; cases h
    refine ⟨fun code h => .inl (hcode code h), fun h => (by cases hcode 1 h), fun h => absurd h ?_⟩
    have hfirst : (connect errorName options.usb (.start {}) x.attempts).2 = some .connected :=
      hconnect
    exact not_neverConnects errorName (by simp [hfirst])

theorem bridge_settles (options : Args.AppOptions) (x : ProgramInput) :
    Settles (NeverConnects errorName options.usb x) (runBridge errorName options x) := by
  obtain ⟨hreleased, hmade⟩ := new_spec "S4 MK1 USB2MIDI" "S4 MK1 USB2MIDI Feedback" x.midi
  have hsound := fun midi => (run_sound errorName .shipped options.loop options.usb
    ⟨x.contextRc, x.attempts, midi⟩ x.turns).1
  have hexit := bridge_exit errorName options x
  unfold runBridge
  simp only
  generalize CoreMidi.new _ _ x.midi = made at *
  specialize hsound (constructed made)
  specialize hexit (constructed made)
  simp only at hexit
  generalize (hotswap errorName .shipped options.loop options.usb).final _ x.turns = last at *
  obtain ⟨hstrings, hdisposed⟩ := midiOf_spec _ hreleased hmade (Phase.exit last.phase)
  refine finish_settles ⟨hsound.holds.now.single, fun host hhost => ?_⟩ (fun hsome => ?_) hstrings
    hdisposed hexit.1 hexit.2
  · obtain ⟨list, config, hmoment⟩ := hsound.holds.always.2 host hhost
    exact hmoment.single
  · cases hphase : last.phase with
    | exited exit => exact givenBack_of_moment hsound.holds.now (hsound.exited exit hphase)
    | looping => rw [hphase] at hsome; cases hsome
    | connecting => rw [hphase] at hsome; cases hsome

/-- The command line asks for a bridge whose first `connect` returns false. -/
def GivesUp (x : ProgramInput) : Prop :=
  ∃ options, parseArgs x.argv = .ok options ∧ options.mode = .bridge ∧
    NeverConnects errorName options.usb x

theorem run_settles (x : ProgramInput) : Settles (GivesUp errorName x) (main errorName x) := by
  unfold main
  cases hparse : parseArgs x.argv with
  | error what =>
    refine finish_settles ⟨start_closed.quiet.single, fun host hhost => (by cases hhost)⟩
      (fun _ => givenBack_of_moment start_closed.quiet rfl) settled_nil (fun _ => disposed_empty)
      (fun _ h => (by cases h)) ⟨fun h => (by cases h), ?_⟩
    rintro ⟨options, hoptions, -⟩
    cases hparse.symm.trans hoptions
  | ok options =>
    have hgives : GivesUp errorName x ↔
        options.mode = .bridge ∧ NeverConnects errorName options.usb x := by
      constructor
      · rintro ⟨options', hoptions, hnever⟩
        obtain rfl := Except.ok.inj (hparse.symm.trans hoptions)
        exact hnever
      · exact fun hnever => ⟨options, hparse, hnever⟩
    rw [hgives]
    simp only
    cases hmode : options.mode with
    | probe => simpa using probe_settles errorName options x
    | bridge => simpa using bridge_settles errorName options x

/-- **A run of the program**, for any command line and whatever its calls return: at every moment at
most the newest handle, list and descriptor are held and all others have been given back exactly once.
When it ends, all have; the exit code is 0, or 1 after an exception, or 1 without one if and only if
the bridge was never connected; and each object of CoreMIDI has been disposed of exactly once unless a
client was made and then the source or the destination could not be, which leaves behind what was made.
-/
theorem main_settles (x : ProgramInput) :
    let s := main errorName x
    (s.world.Always fun host => Single host.handles ∧ Single host.lists ∧ Single host.configs) ∧
      Returned s.midi.strings ∧
      (s.code.isSome → Returned s.world.now.handles ∧ Returned s.world.now.lists ∧
        Returned s.world.now.configs) ∧
      (∀ code, s.code = some code → code = 0 ∧ s.failure = none ∨ code = 1) ∧
      (s.code = some 1 ∧ s.failure = none ↔ ∃ options, parseArgs x.argv = .ok options ∧
        options.mode = .bridge ∧ NeverConnects errorName options.usb x) ∧
      (s.code.isSome → ((∀ object, Returned (s.midi.objects object)) ↔
        s.midi.objects .client = [] ∨ s.midi.objects .destination ≠ [])) := by
  have hsettles := run_settles errorName x
  exact ⟨hsettles.single, hsettles.strings, hsettles.givenBack, hsettles.code, hsettles.gaveUp,
    hsettles.disposed⟩

end Program
