import S4Bridge.Bridge.Proof.Feedback
import S4Bridge.Gui.Ports
import S4Bridge.Gui.Proof.Engine
import S4Bridge.Gui.Proof.Rules

/-!
# What the ports' part shows, and what it sends

* `ports_shown`: after any calls, with any openings and sends that raise, the button and the status
  line say whether the engine holds its ports and which ones they are, and nothing stays open once the
  window is gone.
* `tester_never_writes`: what the tester sends to the bridge, by rules or by hand, never makes the
  bridge write to the device, however CoreMIDI puts the messages into packets: the bridge takes SysEx
  only, and the tester cannot send it.
-/

namespace Gui

open Ledger

variable {ε : Type*} {py : PyText ε} {panel : PortsPanel}

/-! ## What is shown -/

/-- The engine holds two ports, with the names the status line shows. -/
structure ShowsConnected (panel : PortsPanel) (inName outName : String) : Prop where
  inPort : ∃ i, panel.engine.inPort = some i ∧ panel.engine.inNames[i]? = some inName
  outPort : ∃ j, panel.engine.outPort = some j ∧ panel.engine.outNames[j]? = some outName
  named : inName ≠ "" ∧ outName ≠ ""
  status : panel.statusVar = "Connected: IN=" ++ inName ++ "  OUT=" ++ outName
  button : panel.connectBtn = "Disconnect"

/-- The engine holds no port. -/
structure ShowsDisconnected (panel : PortsPanel) : Prop where
  inPort : panel.engine.inPort = none
  outPort : panel.engine.outPort = none
  status : panel.statusVar = "Disconnected"
  button : panel.connectBtn = "Connect"

/-- What holds after any calls. -/
structure PortsShown (panel : PortsPanel) : Prop where
  owned : Owned panel.engine
  shown : panel.alive = true →
    (∃ inName outName, ShowsConnected panel inName outName) ∨ ShowsDisconnected panel
  gone : panel.alive = false → panel.engine.inPort = none ∧ panel.engine.outPort = none

/-- The engine, the button and the status line are the same. -/
structure SameShown (panel panel' : PortsPanel) : Prop where
  engine : panel'.engine = panel.engine
  status : panel'.statusVar = panel.statusVar
  button : panel'.connectBtn = panel.connectBtn
  alive : panel'.alive = panel.alive

theorem PortsShown.of_same (h : PortsShown panel) {panel' : PortsPanel}
    (hsame : SameShown panel panel') : PortsShown panel' := by
  obtain ⟨hengine, hstatus, hbutton, halive⟩ := hsame
  refine ⟨by rw [hengine]; exact h.owned, fun ha => ?_, fun ha => ?_⟩
  · rw [halive] at ha
    rcases h.shown ha with ⟨inName, outName, hc⟩ | hd
    · refine .inl ⟨inName, outName, ?_, ?_, hc.named, hstatus.trans hc.status,
        hbutton.trans hc.button⟩
      · rw [hengine]
        exact hc.inPort
      · rw [hengine]
        exact hc.outPort
    · refine .inr ⟨?_, ?_, hstatus.trans hd.status, hbutton.trans hd.button⟩
      · rw [hengine]
        exact hd.inPort
      · rw [hengine]
        exact hd.outPort
  · rw [halive] at ha
    rw [hengine]
    exact h.gone ha

/-- Sending leaves the ports as they are. -/
theorem PortsShown.send (h : PortsShown panel) (msg : Message) (raises : Option ε) :
    PortsShown (panel.send msg raises) := by
  obtain ⟨howned, hinPort, houtPort, hinNames, houtNames, -⟩ := send_spec h.owned msg raises
  refine ⟨howned, fun ha => ?_, fun ha => ?_⟩
  · rcases h.shown ha with ⟨inName, outName, hc⟩ | hd
    · obtain ⟨i, hi, hin⟩ := hc.inPort
      obtain ⟨j, hj, hout⟩ := hc.outPort
      exact .inl ⟨inName, outName, ⟨i, hinPort.trans hi, hinNames ▸ hin⟩,
        ⟨j, houtPort.trans hj, houtNames ▸ hout⟩, hc.named, hc.status, hc.button⟩
    · exact .inr ⟨hinPort.trans hd.inPort, houtPort.trans hd.outPort, hd.status, hd.button⟩
  · obtain ⟨hin, hout⟩ := h.gone ha
    exact ⟨hinPort.trans hin, houtPort.trans hout⟩

theorem PortsShown.applyRule (h : PortsShown panel) (rule : MappingRule) (inValue : Int)
    (raises : Option ε) : PortsShown (panel.applyRule rule inValue raises) := by
  unfold PortsPanel.applyRule
  split
  · exact h
  · split
    · exact h
    · exact h.send _ raises

theorem PortsShown.sendManual (h : PortsShown panel) (manual : PortsPanel.Manual)
    (raises : Option ε) : PortsShown (panel.sendManual py manual raises).1 := by
  unfold PortsPanel.sendManual
  split
  · exact h
  · exact h
  · exact h.send _ raises

theorem ShowsConnected.connected {inName outName : String}
    (h : ShowsConnected panel inName outName) : panel.engine.connected = true := by
  obtain ⟨i, hi, -⟩ := h.inPort
  obtain ⟨j, hj, -⟩ := h.outPort
  simp [MidiEngine.connected, hi, hj]

theorem ShowsDisconnected.connected (h : ShowsDisconnected panel) :
    panel.engine.connected = false := by
  simp [MidiEngine.connected, h.inPort]

theorem PortsShown.toggle (h : PortsShown panel) (halive : panel.alive = true)
    (outputRaises inputRaises : Option ε) :
    PortsShown (panel.toggleConnection py outputRaises inputRaises).1 := by
  unfold PortsPanel.toggleConnection
  split
  · obtain ⟨hclosed, -⟩ := disconnectLocked_closed h.owned
    exact ⟨hclosed.toOwned, fun _ => .inr ⟨hclosed.inPort, hclosed.outPort, rfl, rfl⟩,
      fun _ => ⟨hclosed.inPort, hclosed.outPort⟩⟩
  · rename_i hnot
    have hd : ShowsDisconnected panel := by
      rcases h.shown halive with ⟨inName, outName, hc⟩ | hd
      · exact absurd hc.connected hnot
      · exact hd
    dsimp only
    split
    · exact h
    · rename_i hnames
      obtain ⟨hin, hout⟩ := not_or.1 hnames
      rcases connect_cases (py.strip panel.inVar) (py.strip panel.outVar) outputRaises inputRaises
        with ⟨rfl, rfl⟩ | ⟨-, e, hraise⟩
      · obtain ⟨howned, hinPort, houtPort, hinNames, houtNames, -⟩ :=
          connect_opens (ε := ε) h.owned (py.strip panel.inVar) (py.strip panel.outVar)
        refine ⟨howned, fun _ => .inl ⟨_, _, ⟨_, hinPort, ?_⟩, ⟨_, houtPort, ?_⟩, ⟨hin, hout⟩, rfl,
          rfl⟩, fun ha => absurd (halive.symm.trans ha) Bool.true_eq_false.mp⟩
        · exact hinNames ▸ List.getElem?_concat_length
        · exact houtNames ▸ List.getElem?_concat_length
      · obtain ⟨hclosed, -⟩ := connect_raises h.owned (hraise panel.engine)
        rw [hraise]
        exact ⟨hclosed.toOwned,
          fun _ => .inr ⟨hclosed.inPort, hclosed.outPort, hd.status, hd.button⟩,
          fun _ => ⟨hclosed.inPort, hclosed.outPort⟩⟩

theorem PortsShown.call (h : PortsShown panel) (call : PortsCall ε) :
    PortsShown (panel.call py call).1 := by
  unfold PortsPanel.call
  split
  · exact h
  · rename_i halive
    have halive : panel.alive = true := by simpa using halive
    cases call with
    | refresh inputs outputs => exact h.of_same ⟨rfl, rfl, rfl, rfl⟩
    | chooseInput idx => exact h.of_same ⟨rfl, rfl, rfl, rfl⟩
    | chooseOutput idx => exact h.of_same ⟨rfl, rfl, rfl, rfl⟩
    | toggle outputRaises inputRaises => exact h.toggle halive outputRaises inputRaises
    | applyRule rule inValue raises => exact h.applyRule rule inValue raises
    | sendManual manual raises => exact h.sendManual manual raises
    | close =>
      obtain ⟨hclosed, -⟩ := disconnectLocked_closed h.owned
      exact ⟨hclosed.toOwned, fun ha => (by cases ha), fun _ => ⟨hclosed.inPort, hclosed.outPort⟩⟩

/-! ## The names -/

/-- The names in the comboboxes are of those listed, and so are those chosen. -/
structure NamesFrom (inputs outputs : String → Prop) (panel : PortsPanel) : Prop where
  inCombo : ∀ name ∈ panel.inCombo, inputs name
  outCombo : ∀ name ∈ panel.outCombo, outputs name
  inVar : panel.inVar = "" ∨ inputs panel.inVar
  outVar : panel.outVar = "" ∨ outputs panel.outVar

theorem pickDefaultPort_mem {names : List String} {hint name : String}
    (h : PortsPanel.pickDefaultPort py names hint = some name) : name ∈ names := by
  rw [PortsPanel.pickDefaultPort, Option.or_eq_some_iff] at h
  rcases h with hfind | ⟨-, hhead⟩
  · exact List.mem_of_find?_eq_some hfind
  · exact List.mem_of_mem_head? hhead

theorem preferred_from {listed : String → Prop} {names : List String}
    (hnames : ∀ name ∈ names, listed name) {hint var : String} (hvar : var = "" ∨ listed var) :
    PortsPanel.preferred py names hint var = "" ∨
      listed (PortsPanel.preferred py names hint var) := by
  unfold PortsPanel.preferred
  split
  · cases hpick : PortsPanel.pickDefaultPort py names hint with
    | none => exact hvar
    | some name => exact .inr (hnames name (pickDefaultPort_mem hpick))
  · exact hvar

theorem getD_from {listed : String → Prop} {names : List String}
    (hnames : ∀ name ∈ names, listed name) {var : String} (hvar : var = "" ∨ listed var)
    (idx : Nat) : names.getD idx var = "" ∨ listed (names.getD idx var) := by
  rw [List.getD_eq_getElem?_getD]
  cases hget : names[idx]? with
  | none => exact hvar
  | some name => exact .inr (hnames name (List.mem_of_getElem? hget))

variable {inputs outputs : String → Prop}

theorem NamesFrom.of_same (h : NamesFrom inputs outputs panel) {panel' : PortsPanel}
    (hin : panel'.inCombo = panel.inCombo) (hout : panel'.outCombo = panel.outCombo)
    (hinVar : panel'.inVar = panel.inVar) (houtVar : panel'.outVar = panel.outVar) :
    NamesFrom inputs outputs panel' := by
  refine ⟨?_, ?_, ?_, ?_⟩
  · rw [hin]
    exact h.inCombo
  · rw [hout]
    exact h.outCombo
  · rw [hinVar]
    exact h.inVar
  · rw [houtVar]
    exact h.outVar

theorem NamesFrom.call (h : NamesFrom inputs outputs panel) {call : PortsCall ε}
    (hlisted : ∀ ins outs, call = .refresh ins outs →
      (∀ name ∈ ins, inputs name) ∧ ∀ name ∈ outs, outputs name) :
    NamesFrom inputs outputs (panel.call py call).1 := by
  unfold PortsPanel.call
  split
  · exact h
  · cases call with
    | refresh ins outs =>
      obtain ⟨hins, houts⟩ := hlisted ins outs rfl
      exact ⟨hins, houts, preferred_from hins h.inVar, preferred_from houts h.outVar⟩
    | chooseInput idx => exact ⟨h.inCombo, h.outCombo, getD_from h.inCombo h.inVar idx, h.outVar⟩
    | chooseOutput idx => exact ⟨h.inCombo, h.outCombo, h.inVar, getD_from h.outCombo h.outVar idx⟩
    | toggle outputRaises inputRaises =>
      dsimp only [PortsPanel.toggleConnection]
      split
      · exact h.of_same rfl rfl rfl rfl
      · split
        · exact h
        · split <;> exact h.of_same rfl rfl rfl rfl
    | applyRule rule inValue raises =>
      dsimp only [PortsPanel.applyRule]
      split
      · exact h
      · split
        · exact h
        · exact h.of_same rfl rfl rfl rfl
    | sendManual manual raises =>
      dsimp only [PortsPanel.sendManual]
      split
      · exact h
      · exact h
      · exact h.of_same rfl rfl rfl rfl
    | close => exact h.of_same rfl rfl rfl rfl

/-! ## Runs -/

/-- **The ports as they are shown**, after any calls, with any openings and sends that raise: every
port opened is held or was closed exactly once. While the window is there, the button offers to
disconnect and the status line names the two ports the engine holds, or it offers to connect and the
engine holds none; when the window is gone the engine holds none. The names chosen, if any, were
listed. -/
theorem ports_shown (calls : List (PortsCall ε)) :
    let panel := (portsMachine py).final {} calls
    Settled panel.engine.inPort panel.engine.inputs ∧
      Settled panel.engine.outPort panel.engine.outputs ∧
      (panel.alive = true →
        (∃ inName outName, ShowsConnected panel inName outName) ∨ ShowsDisconnected panel) ∧
      (panel.alive = false → panel.engine.inPort = none ∧ panel.engine.outPort = none) ∧
      (panel.inVar = "" ∨ ∃ ins outs, .refresh ins outs ∈ calls ∧ panel.inVar ∈ ins) ∧
      (panel.outVar = "" ∨ ∃ ins outs, .refresh ins outs ∈ calls ∧ panel.outVar ∈ outs) := by
  intro panel
  have hstart : PortsShown {} :=
    ⟨⟨settled_nil, settled_nil⟩, fun _ => .inr ⟨rfl, rfl, rfl, rfl⟩, fun _ => ⟨rfl, rfl⟩⟩
  have hshown : PortsShown panel :=
    ((portsMachine py).invariant (P := fun _ => True) calls
      (fun panel call _ h => ⟨h.call call, trivial⟩) hstart).1
  have hnames : NamesFrom (fun name => ∃ ins outs, .refresh ins outs ∈ calls ∧ name ∈ ins)
      (fun name => ∃ ins outs, .refresh ins outs ∈ calls ∧ name ∈ outs) panel := by
    refine ((portsMachine py).invariant (P := fun _ => True) calls
      (fun panel call hcall h => ⟨h.call ?_, trivial⟩) ?_).1
    · exact ⟨fun name h => (by cases h), fun name h => (by cases h), .inl rfl, .inl rfl⟩
    · rintro ins outs rfl
      exact ⟨fun name hname => ⟨ins, outs, hcall, hname⟩, fun name hname => ⟨ins, outs, hcall, hname⟩⟩
  exact ⟨hshown.owned.inputs, hshown.owned.outputs, hshown.shown, hshown.gone, hnames.inVar,
    hnames.outVar⟩

/-! ## What is sent -/

/-- Every message that reached a port is a control change or a note. -/
def SendsChannel (engine : MidiEngine) : Prop :=
  ∀ sent ∈ engine.sents, ∀ msg ∈ sent, msg.fields.isSome = true

theorem buildOutMsg_fields {kind : Kind} {channel index value : Int} {msg : Message}
    (h : buildOutMsg kind channel index value = some msg) : msg.fields.isSome = true := by
  unfold buildOutMsg at h
  dsimp only at h
  split at h
  · cases h
  · cases kind with
    | cc =>
      obtain rfl := Option.some.inj h
      rfl
    | noteOn =>
      obtain rfl := Option.some.inj h
      rfl
    | noteOff =>
      obtain rfl := Option.some.inj h
      rfl

theorem manual_fields {manual : PortsPanel.Manual} {msg : Message}
    (h : manual.message py = .ok (some msg)) : msg.fields.isSome = true := by
  unfold PortsPanel.Manual.message at h
  cases hch : readInt py.int manual.chVar 1 16 "Manual channel" with
  | error e =>
    rw [hch] at h
    cases h
  | ok ch =>
    cases hidx : readInt py.int manual.idxVar 0 127 "Manual index" with
    | error e =>
      rw [hch, hidx] at h
      cases h
    | ok idx =>
      cases hval : readInt py.int manual.valVar 0 127 "Manual value" with
      | error e =>
        rw [hch, hidx, hval] at h
        cases h
      | ok val =>
        rw [hch, hidx, hval] at h
        exact buildOutMsg_fields (Except.ok.inj h)

theorem SendsChannel.delivered {call : EngineCall ε} {engine next : MidiEngine}
    (h : SendsChannel engine) (hdelivered : Delivered call engine next)
    (hmsg : ∀ msg raises, call = .send msg raises → msg.fields.isSome = true) :
    SendsChannel next := by
  have hfresh : (∃ fresh, next.sents = engine.sents ++ fresh ∧ ∀ sent ∈ fresh, sent = []) →
      SendsChannel next := by
    rintro ⟨fresh, hsents, hempty⟩ sent hsent msg hmem
    rw [hsents] at hsent
    rcases List.mem_append.1 hsent with hsent | hsent
    · exact h sent hsent msg hmem
    · rw [hempty sent hsent] at hmem
      cases hmem
  cases call with
  | connect inName outName outputRaises inputRaises => exact hfresh hdelivered
  | disconnect => exact hfresh hdelivered
  | send msg raises =>
    unfold Delivered at hdelivered
    cases hport : engine.outPort with
    | none =>
      rw [hport] at hdelivered
      exact hfresh hdelivered
    | some j =>
      rw [hport] at hdelivered
      dsimp only at hdelivered
      intro sent hsent m hm
      rw [hdelivered] at hsent
      obtain ⟨k, hk⟩ := List.mem_iff_getElem?.1 hsent
      rw [List.getElem?_modify] at hk
      obtain ⟨old, hold, rfl⟩ := Option.map_eq_some_iff.1 hk
      have hmem : old ∈ engine.sents := List.mem_of_getElem? hold
      split at hm
      · rcases List.mem_append.1 hm with hm | hm
        · exact h old hmem m hm
        · rw [List.mem_singleton.1 hm]
          exact hmsg msg raises rfl
      · exact h old hmem m hm

/-- What a call of the part does to the engine is a call of the engine, or nothing. -/
theorem call_engine (panel : PortsPanel) (call : PortsCall ε) :
    (panel.call py call).1.engine = panel.engine ∨
      ∃ engineCall : EngineCall ε,
        (panel.call py call).1.engine = (panel.engine.call engineCall).state ∧
          ∀ msg raises, engineCall = .send msg raises → msg.fields.isSome = true := by
  unfold PortsPanel.call
  split
  · exact .inl rfl
  · cases call with
    | refresh ins outs => exact .inl rfl
    | chooseInput idx => exact .inl rfl
    | chooseOutput idx => exact .inl rfl
    | toggle outputRaises inputRaises =>
      dsimp only [PortsPanel.toggleConnection]
      split
      · exact .inr ⟨.disconnect, rfl, fun _ _ h => (by cases h)⟩
      · split
        · exact .inl rfl
        · refine .inr ⟨.connect (py.strip panel.inVar) (py.strip panel.outVar) outputRaises
            inputRaises, ?_, fun _ _ h => (by cases h)⟩
          split <;> rfl
    | applyRule rule inValue raises =>
      dsimp only [PortsPanel.applyRule]
      split
      · exact .inl rfl
      · cases hmsg : rule.outMsg inValue with
        | none => exact .inl rfl
        | some msg =>
          refine .inr ⟨.send msg raises, rfl, ?_⟩
          rintro _ _ ⟨⟩
          exact buildOutMsg_fields hmsg
    | sendManual manual raises =>
      dsimp only [PortsPanel.sendManual]
      cases hmsg : manual.message py with
      | error e => exact .inl rfl
      | ok msg? =>
        cases msg? with
        | none => exact .inl rfl
        | some msg =>
          refine .inr ⟨.send msg raises, rfl, ?_⟩
          rintro _ _ ⟨⟩
          exact manual_fields hmsg
    | close => exact .inr ⟨.disconnect, rfl, fun _ _ h => (by cases h)⟩

theorem run_sendsChannel (calls : List (PortsCall ε)) :
    SendsChannel ((portsMachine py).final {} calls).engine := by
  have hstart : PortsShown ({} : PortsPanel) ∧ SendsChannel ({} : PortsPanel).engine :=
    ⟨⟨⟨settled_nil, settled_nil⟩, fun _ => .inr ⟨rfl, rfl, rfl, rfl⟩, fun _ => ⟨rfl, rfl⟩⟩,
      fun sent h => (by cases h)⟩
  refine ((portsMachine py).invariant (I := fun panel => PortsShown panel ∧ SendsChannel panel.engine)
    (P := fun _ => True) calls (fun panel call _ h => ⟨⟨h.1.call call, ?_⟩, trivial⟩) hstart).1.2
  rcases call_engine panel call with hsame | ⟨engineCall, hengine, hmsg⟩
  · show SendsChannel (panel.call py call).1.engine
    rw [hsame]
    exact h.2
  · show SendsChannel (panel.call py call).1.engine
    rw [hengine]
    exact h.2.delivered (call_delivered h.1.owned engineCall) hmsg

open Bridge Device Protocol

/-- Whole messages in one packet. -/
def packetOfMessages (msgs : List Message) : List UInt8 := (msgs.filterMap Message.bytes).flatten

/-- A packet of control changes and notes does not begin as SysEx does. -/
theorem head?_packetOfMessages {msgs : List Message} (h : ∀ msg ∈ msgs, msg.fields.isSome = true) :
    (packetOfMessages msgs).head? ≠ some 0xF0 := by
  have hstatus : ∀ c : Fin 16, 0xB0 ||| UInt8.ofNat c ≠ 0xF0 ∧ 0x90 ||| UInt8.ofNat c ≠ 0xF0 ∧
      0x80 ||| UInt8.ofNat c ≠ 0xF0 := by decide
  cases msgs with
  | nil => exact fun heq => by cases heq
  | cons msg msgs =>
    have hmsg := h msg (.head _)
    cases msg with
    | controlChange c i v => exact fun heq => (hstatus c).1 (Option.some.inj heq)
    | noteOn c i v => exact fun heq => (hstatus c).2.1 (Option.some.inj heq)
    | noteOff c i v => exact fun heq => (hstatus c).2.2 (Option.some.inj heq)
    | sysex data => cases hmsg
    | other type => cases hmsg

theorem encodeOutput_of_head {message : List UInt8} (h : message.head? ≠ some 0xF0)
    (p : S4GenericProtocol) : (encodeOutput p message).2 = none := by
  unfold encodeOutput
  rw [if_neg fun hframe => h hframe.2.1]

variable (errorName : Int → String) (options : UsbOptions) (device : UsbDevice)

/-- The callback ignores what `encodeOutput` does not accept, whatever has become of the device. -/
theorem feedback_rejected {message : List UInt8}
    (h : ∀ p : S4GenericProtocol, (encodeOutput p message).2 = none) (s : FeedbackState)
    (env : WriteEnv) :
    (feedback errorName options device s message env).2 = .ok () ∧
      (feedback errorName options device s message env).1.attempts = s.attempts := by
  unfold feedback
  split
  · exact ⟨rfl, rfl⟩
  · have hnone := h s.protocol
    generalize encodeOutput s.protocol message = result at hnone
    obtain ⟨protocol, payload⟩ := result
    obtain rfl : payload = none := hnone
    exact ⟨rfl, rfl⟩

theorem readPackets_rejected {packets : List (List UInt8 × WriteEnv)}
    (h : ∀ packet ∈ packets, ∀ p : S4GenericProtocol, (encodeOutput p packet.1).2 = none)
    (s : FeedbackState) :
    (readPackets errorName options device s packets).2 = .ok () ∧
      (readPackets errorName options device s packets).1.attempts = s.attempts := by
  induction packets generalizing s with
  | nil => exact ⟨rfl, rfl⟩
  | cons packet packets ih =>
    obtain ⟨message, env⟩ := packet
    obtain ⟨hok, hattempts⟩ := feedback_rejected errorName options device (h _ (.head _)) s env
    rw [readPackets]
    generalize feedback errorName options device s message env = result at hok hattempts
    obtain ⟨s', how⟩ := result
    obtain rfl : how = .ok () := hok
    obtain ⟨hok', hattempts'⟩ := ih (fun x hx => h x (.tail _ hx)) s'
    exact ⟨hok', hattempts'.trans hattempts⟩

theorem readProc_rejected {packetList : List (List UInt8 × WriteEnv)}
    (h : ∀ packet ∈ packetList, ∀ p : S4GenericProtocol, (encodeOutput p packet.1).2 = none)
    (s : FeedbackState) :
    (readProc errorName options device s packetList).2 = .ok () ∧
      (readProc errorName options device s packetList).1.attempts = s.attempts := by
  obtain ⟨hok, hattempts⟩ := readPackets_rejected errorName options device h s
  unfold readProc
  split
  · exact ⟨rfl, rfl⟩
  · generalize readPackets errorName options device s packetList = result at hok hattempts
    obtain ⟨s', how⟩ := result
    obtain rfl : how = .ok () := hok
    exact ⟨rfl, hattempts⟩

theorem readProcs_rejected {lists : List (List (List UInt8 × WriteEnv))}
    (h : ∀ packetList ∈ lists, ∀ packet ∈ packetList, ∀ p : S4GenericProtocol,
      (encodeOutput p packet.1).2 = none) (s : FeedbackState) :
    (readProcs errorName options device s lists).2 = .ok () ∧
      (readProcs errorName options device s lists).1.attempts = s.attempts := by
  induction lists generalizing s with
  | nil => exact ⟨rfl, rfl⟩
  | cons packetList lists ih =>
    obtain ⟨hok, hattempts⟩ := readProc_rejected errorName options device (h _ (.head _)) s
    rw [readProcs]
    generalize readProc errorName options device s packetList = result at hok hattempts
    obtain ⟨s', how⟩ := result
    obtain rfl : how = .ok () := hok
    obtain ⟨hok', hattempts'⟩ := ih (fun x hx => h x (.tail _ hx)) s'
    exact ⟨hok', hattempts'.trans hattempts⟩

/-- **The tester never writes to the device.** Whatever is done in it, the messages that reached one of
its output ports, put into packets in any way, are read by the bridge without a write, whatever has
become of the device. -/
theorem tester_never_writes (calls : List (PortsCall ε)) {sent : List Message}
    (hsent : sent ∈ ((portsMachine py).final {} calls).engine.sents) (s : FeedbackState)
    {lists : List (List (List UInt8 × WriteEnv))}
    (hlists : ∀ packetList ∈ lists, ∀ packet ∈ packetList,
      ∃ msgs, (∀ msg ∈ msgs, msg ∈ sent) ∧ packet.1 = packetOfMessages msgs) :
    (readProcs errorName options device s lists).2 = .ok () ∧
      (readProcs errorName options device s lists).1.attempts = s.attempts := by
  refine readProcs_rejected errorName options device (fun packetList hlist packet hpacket p => ?_) s
  obtain ⟨msgs, hmsgs, hbytes⟩ := hlists packetList hlist packet hpacket
  rw [hbytes]
  refine encodeOutput_of_head (head?_packetOfMessages fun msg hmsg => ?_) p
  exact run_sendsChannel calls sent hsent msg (hmsgs msg hmsg)

/-- Python's `int` of the fields below, and texts that are as they should be. -/
def plainText : PyText String where
  int text := if text = "1" then .ok 1 else if text = "60" then .ok 60 else .ok 127
  strip text := text
  lower text := text
  str text := text

/-- A value is sent by hand to the bridge's feedback port. -/
theorem tester_never_writes_manual :
    let calls : List (PortsCall String) :=
      [.refresh ["S4 MK1 USB2MIDI"] ["S4 MK1 USB2MIDI Feedback"], .toggle none none,
        .sendManual ⟨.noteOn, "1", "60", "127"⟩ none]
    ((portsMachine plainText).final {} calls).engine.sents = [[.noteOn 0 60 127]] ∧
      (readProcs (fun _ => "") { outputEndpoint := 8 } { handle := some 0 } ⟨.new 0 0 .byte, []⟩
        [[([0x90, 60, 127], ⟨false, ⟨.ok, []⟩⟩)]]).1.attempts = [] := by
  intro calls
  have hsents : ((portsMachine plainText).final {} calls).engine.sents = [[.noteOn 0 60 127]] := by
    decide +kernel
  have hsent : [.noteOn 0 60 127] ∈ ((portsMachine plainText).final {} calls).engine.sents := by
    rw [hsents]
    exact .head _
  refine ⟨hsents, (tester_never_writes _ _ _ calls hsent _ ?_).2⟩
  intro packetList hlist packet hpacket
  rw [List.mem_singleton.1 hlist] at hpacket
  rw [List.mem_singleton.1 hpacket]
  exact ⟨[.noteOn 0 60 127], by simp, by decide⟩

end Gui
