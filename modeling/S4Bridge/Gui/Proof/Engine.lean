import S4Bridge.Gui.App
import S4Bridge.Gui.Engine

/-!
# Both ports or none

Every port opened is held or was closed once (`Owned`), in the middle of a `connect` too: both
branches that raise go through `_disconnect_locked` with what is open (`disconnectLocked_closed`). So
after any calls the engine holds the two ports the last successful `connect` opened, or none
(`engine_holds`), and the port of the application is the engine's (`engine_port`).
-/

namespace Gui

open Ledger

variable {ε : Type*} {engine : MidiEngine}

/-- Every port opened is held, or was closed exactly once. -/
structure Owned (engine : MidiEngine) : Prop where
  inputs : Settled engine.inPort engine.inputs
  outputs : Settled engine.outPort engine.outputs

structure Closed (engine : MidiEngine) : Prop extends Owned engine where
  inPort : engine.inPort = none
  outPort : engine.outPort = none

namespace MidiEngine

/-- The names of the input ports opened, in order. -/
def inNames (engine : MidiEngine) : List String := view id engine.inputs

def outNames (engine : MidiEngine) : List String := view (·.name) engine.outputs

/-- What reached the output ports opened, in order. -/
def sents (engine : MidiEngine) : List (List Message) := view (·.sent) engine.outputs

end MidiEngine

/-- The same ports were opened, and the same messages reached them. -/
structure SamePorts (engine engine' : MidiEngine) : Prop where
  inNames : engine'.inNames = engine.inNames
  outNames : engine'.outNames = engine.outNames
  sents : engine'.sents = engine.sents

theorem SamePorts.trans {e e' e'' : MidiEngine} (h : SamePorts e e') (h' : SamePorts e' e'') :
    SamePorts e e'' :=
  ⟨h'.inNames.trans h.inNames, h'.outNames.trans h.outNames, h'.sents.trans h.sents⟩

/-! ## Closing and opening -/

theorem closeInput_spec (h : Owned engine) :
    Owned engine.closeInput ∧ SamePorts engine engine.closeInput ∧
      engine.closeInput.inPort = none ∧ engine.closeInput.outPort = engine.outPort := by
  obtain ⟨hin, hout⟩ := h
  unfold MidiEngine.closeInput
  cases hport : engine.inPort with
  | none => exact ⟨⟨hin, hout⟩, ⟨rfl, rfl, rfl⟩, hport, rfl⟩
  | some i =>
    rw [hport] at hin
    exact ⟨⟨hin.release, hout⟩, ⟨view_release id i, rfl, rfl⟩, rfl, rfl⟩

theorem closeOutput_spec (h : Owned engine) :
    Owned engine.closeOutput ∧ SamePorts engine engine.closeOutput ∧
      engine.closeOutput.outPort = none ∧ engine.closeOutput.inPort = engine.inPort := by
  obtain ⟨hin, hout⟩ := h
  unfold MidiEngine.closeOutput
  cases hport : engine.outPort with
  | none => exact ⟨⟨hin, hout⟩, ⟨rfl, rfl, rfl⟩, hport, rfl⟩
  | some j =>
    rw [hport] at hout
    exact ⟨⟨hin, hout.release⟩, ⟨rfl, view_release _ j, view_release _ j⟩, rfl, rfl⟩

theorem disconnectLocked_closed (h : Owned engine) :
    Closed engine.disconnectLocked ∧ SamePorts engine engine.disconnectLocked := by
  obtain ⟨hin, hsame, hinPort, -⟩ := closeInput_spec h
  obtain ⟨hout, hsame', houtPort, hkept⟩ := closeOutput_spec hin
  exact ⟨⟨hout, hkept.trans hinPort, houtPort⟩, hsame.trans hsame'⟩

theorem openOutput_owned (h : Closed engine) (outName : String) :
    Owned (engine.openOutput outName) := by
  refine ⟨h.inputs, ?_⟩
  have hout := h.outputs
  rw [h.outPort] at hout
  exact hout.acquire _

theorem openInput_owned (h : Owned engine) (hinPort : engine.inPort = none) (inName : String) :
    Owned (engine.openInput inName) := by
  refine ⟨?_, h.outputs⟩
  have hin := h.inputs
  rw [hinPort] at hin
  exact hin.acquire _

/-! ## The calls -/

/-- A `connect` that opens both ports. -/
def EngineCall.opens : EngineCall ε → Bool
  | .connect _ _ none none => true
  | _ => false

/-- Messages reach the output port that is held, and no other; what is opened begins without any. -/
def Delivered (call : EngineCall ε) (engine next : MidiEngine) : Prop :=
  match call, engine.outPort with
  | .send msg _, some j => next.sents = engine.sents.modify j (· ++ [msg])
  | _, _ => ∃ fresh, next.sents = engine.sents ++ fresh ∧ ∀ sent ∈ fresh, sent = []

/-- A `connect` opens both ports or raises. -/
theorem connect_cases (inName outName : String) (outputRaises inputRaises : Option ε) :
    outputRaises = none ∧ inputRaises = none ∨
      (EngineCall.connect inName outName outputRaises inputRaises).opens = false ∧
        ∃ e, ∀ engine : MidiEngine,
          (engine.connect inName outName outputRaises inputRaises).raised = some e := by
  cases outputRaises with
  | some e => exact .inr ⟨rfl, e, fun _ => rfl⟩
  | none =>
    cases inputRaises with
    | some e => exact .inr ⟨rfl, e, fun _ => rfl⟩
    | none => exact .inl ⟨rfl, rfl⟩

theorem connect_opens (h : Owned engine) (inName outName : String) :
    let next := (engine.connect inName outName (none : Option ε) none).state
    Owned next ∧ next.inPort = some engine.inNames.length ∧
      next.outPort = some engine.outNames.length ∧ next.inNames = engine.inNames ++ [inName] ∧
      next.outNames = engine.outNames ++ [outName] ∧ next.sents = engine.sents ++ [[]] := by
  intro next
  obtain ⟨hclosed, hinNames, houtNames, hsents⟩ := disconnectLocked_closed h
  have hopened := openOutput_owned hclosed outName
  refine ⟨openInput_owned hopened hclosed.inPort inName, ?_, ?_, ?_, ?_, ?_⟩
  · rw [← hinNames]
    exact congrArg some (length_view id).symm
  · rw [← houtNames]
    exact congrArg some (length_view _).symm
  · rw [← hinNames]
    exact view_acquire id inName
  · rw [← houtNames]
    exact view_acquire _ _
  · rw [← hsents]
    exact view_acquire _ _

/-- A `connect` that raises leaves no port open, and has sent nothing. -/
theorem connect_raises (h : Owned engine) {inName outName : String}
    {outputRaises inputRaises : Option ε} {e : ε}
    (hraise : (engine.connect inName outName outputRaises inputRaises).raised = some e) :
    let next := (engine.connect inName outName outputRaises inputRaises).state
    Closed next ∧ ∃ fresh, next.sents = engine.sents ++ fresh ∧ ∀ sent ∈ fresh, sent = [] := by
  intro next
  obtain ⟨hclosed, hsame⟩ := disconnectLocked_closed h
  cases outputRaises with
  | some e' => exact ⟨hclosed, [], hsame.sents.trans (List.append_nil _).symm, by simp⟩
  | none =>
    cases inputRaises with
    | none => cases hraise
    | some e' =>
      -- the output port is opened and closed again
      obtain ⟨hback, hsame'⟩ := disconnectLocked_closed (openOutput_owned hclosed outName)
      refine ⟨hback, [[]], ?_, by simp⟩
      rw [← hsame.sents]
      exact hsame'.sents.trans (view_acquire _ _)

theorem send_spec (h : Owned engine) (msg : Message) (raises : Option ε) :
    let next := (engine.send msg raises).state
    Owned next ∧ next.inPort = engine.inPort ∧ next.outPort = engine.outPort ∧
      next.inNames = engine.inNames ∧ next.outNames = engine.outNames ∧
      Delivered (.send msg raises) engine next := by
  intro next
  cases hport : engine.outPort with
  | none =>
    have hnext : next = engine := by
      simp only [next, MidiEngine.send, hport, Effect.ok_state]
    rw [hnext]
    refine ⟨h, rfl, hport, rfl, rfl, ?_⟩
    simp only [Delivered, hport]
    exact ⟨[], (List.append_nil _).symm, by simp⟩
  | some j =>
    have hnext : next = { engine with outputs := update engine.outputs j (·.send msg) } := by
      simp only [next, MidiEngine.send, hport]
    have hnames : view (·.name) (update engine.outputs j (·.send msg)) =
        (view (·.name) engine.outputs).modify j id :=
      view_update (fun port : OutputPort => port.name) (fun _ => rfl) j
    rw [List.modify_id] at hnames
    have hsents : view (·.sent) (update engine.outputs j (·.send msg)) =
        (view (·.sent) engine.outputs).modify j (· ++ [msg]) :=
      view_update (fun port : OutputPort => port.sent) (fun _ => rfl) j
    have houtputs := h.outputs.update j (·.send msg)
    rw [hnext]
    refine ⟨⟨h.inputs, houtputs⟩, rfl, hport, rfl, hnames, ?_⟩
    simp only [Delivered, hport]
    exact hsents

/-! ## Runs -/

theorem call_owned (h : Owned engine) (call : EngineCall ε) : Owned (engine.call call).state := by
  cases call with
  | disconnect => exact (disconnectLocked_closed h).1.toOwned
  | send msg raises => exact (send_spec h msg raises).1
  | connect inName outName outputRaises inputRaises =>
    rcases connect_cases inName outName outputRaises inputRaises with ⟨rfl, rfl⟩ | ⟨-, e, hraise⟩
    · exact (connect_opens h inName outName).1
    · exact (connect_raises h (hraise engine)).1.toOwned

/-- The ports held are those the last successful `connect` of the calls opened. -/
def LastOpened (calls : List (EngineCall ε)) (engine : MidiEngine) : Prop :=
  ∃ before inName outName after,
    calls = before ++ .connect inName outName none none :: after ∧
    (∀ call ∈ after, call.opens = false) ∧
    let earlier := (engineMachine ε).final {} before
    engine.inPort = some earlier.inNames.length ∧
      engine.outPort = some earlier.outNames.length ∧
      engine.inNames[earlier.inNames.length]? = some inName ∧
      engine.outNames[earlier.outNames.length]? = some outName

theorem lastOpened_connect {calls : List (EngineCall ε)}
    (h : Owned ((engineMachine ε).final {} calls)) (inName outName : String) :
    LastOpened (calls ++ [.connect inName outName none none])
      (((engineMachine ε).final {} calls).connect inName outName (none : Option ε) none).state := by
  obtain ⟨-, hinPort, houtPort, hinNames, houtNames, -⟩ :=
    connect_opens (ε := ε) h inName outName
  refine ⟨calls, inName, outName, [], rfl, by simp, hinPort, houtPort, ?_, ?_⟩
  · rw [hinNames, List.getElem?_concat_length]
  · rw [houtNames, List.getElem?_concat_length]

theorem lastOpened_send {calls : List (EngineCall ε)} (hcalls : LastOpened calls engine)
    (h : Owned engine) (msg : Message) (raises : Option ε) :
    LastOpened (calls ++ [.send msg raises]) (engine.send msg raises).state := by
  obtain ⟨before, inName, outName, after, hsplit, hafter, hin, hout, hinName, houtName⟩ := hcalls
  obtain ⟨-, hinPort, houtPort, hinNames, houtNames, -⟩ := send_spec h msg raises
  refine ⟨before, inName, outName, after ++ [.send msg raises], ?_, ?_, hinPort.trans hin,
    houtPort.trans hout, ?_, ?_⟩
  · rw [hsplit, List.append_assoc, List.cons_append]
  · intro call hcall
    rcases List.mem_append.1 hcall with hcall | hcall
    · exact hafter call hcall
    · rw [List.mem_singleton.1 hcall]
      rfl
  · rw [hinNames, hinName]
  · rw [houtNames, houtName]

theorem engine_ports (calls : List (EngineCall ε)) :
    let engine := (engineMachine ε).final {} calls
    Owned engine ∧ (engine.inPort = none ∧ engine.outPort = none ∨ LastOpened calls engine) := by
  induction calls using List.reverseRecOn with
  | nil => exact ⟨⟨settled_nil, settled_nil⟩, .inl ⟨rfl, rfl⟩⟩
  | append_singleton calls call ih =>
    obtain ⟨howned, hports⟩ := ih
    rw [Machine.final_append]
    refine ⟨call_owned howned call, ?_⟩
    cases call with
    | disconnect =>
      have hclosed := (disconnectLocked_closed howned).1
      exact .inl ⟨hclosed.inPort, hclosed.outPort⟩
    | send msg raises =>
      rcases hports with ⟨hin, hout⟩ | hlast
      · obtain ⟨-, hinPort, houtPort, -⟩ := send_spec howned msg raises
        exact .inl ⟨hinPort.trans hin, houtPort.trans hout⟩
      · exact .inr (lastOpened_send hlast howned msg raises)
    | connect inName outName outputRaises inputRaises =>
      rcases connect_cases inName outName outputRaises inputRaises with ⟨rfl, rfl⟩ | ⟨-, e, hraise⟩
      · exact .inr (lastOpened_connect howned inName outName)
      · have hclosed := (connect_raises howned (hraise _)).1
        exact .inl ⟨hclosed.inPort, hclosed.outPort⟩

/-- `connected` tells whether there is a port to send on. -/
theorem connected_iff (calls : List (EngineCall ε)) :
    ((engineMachine ε).final {} calls).connected = true ↔
      ((engineMachine ε).final {} calls).outPort ≠ none := by
  obtain ⟨-, ⟨hin, hout⟩ | hlast⟩ := engine_ports calls
  · simp [MidiEngine.connected, hin, hout]
  · obtain ⟨before, inName, outName, after, -, -, hin, hout, -⟩ := hlast
    simp [MidiEngine.connected, hin, hout]

/-- A `connect` that does not raise has opened both ports. -/
theorem lastOpened_of_connect {calls : List (EngineCall ε)}
    (h : Owned ((engineMachine ε).final {} calls)) {inName outName : String}
    {outputRaises inputRaises : Option ε}
    (hnone : (((engineMachine ε).final {} calls).connect inName outName outputRaises
      inputRaises).raised = none) :
    LastOpened (calls ++ [.connect inName outName outputRaises inputRaises])
      (((engineMachine ε).final {} calls).connect inName outName outputRaises
        inputRaises).state := by
  rcases connect_cases inName outName outputRaises inputRaises with ⟨rfl, rfl⟩ | ⟨-, e, hraise⟩
  · exact lastOpened_connect h inName outName
  · rw [hraise] at hnone
    cases hnone

theorem call_delivered (h : Owned engine) (call : EngineCall ε) :
    Delivered call engine (engine.call call).state := by
  cases call with
  | disconnect =>
    exact ⟨[], (disconnectLocked_closed h).2.sents.trans (List.append_nil _).symm, by simp⟩
  | send msg raises => exact (send_spec h msg raises).2.2.2.2.2
  | connect inName outName outputRaises inputRaises =>
    rcases connect_cases inName outName outputRaises inputRaises with ⟨rfl, rfl⟩ | ⟨-, e, hraise⟩
    · exact ⟨[[]], (connect_opens h inName outName).2.2.2.2.2, by simp⟩
    · exact (connect_raises h (hraise engine)).2

/-- **Both ports or none**: after any calls, with any openings that fail, the engine holds the two
ports of the last successful `connect` or none, which `connected` tells; every port opened is held, or
was closed exactly once. A `connect` that raises leaves none held, one that does not holds what it
opened, and a message reaches the output port held or none. -/
theorem engine_holds (calls : List (EngineCall ε)) :
    let engine := (engineMachine ε).final {} calls
    (engine.inPort = none ∧ engine.outPort = none ∨ LastOpened calls engine) ∧
    (engine.connected = true ↔ engine.outPort ≠ none) ∧
    Settled engine.inPort engine.inputs ∧ Settled engine.outPort engine.outputs ∧
    ∀ call, let (next, raised) := (engineMachine ε).step engine call
      Delivered call engine next ∧
      ∀ inName outName outputRaises inputRaises,
        call = .connect inName outName outputRaises inputRaises →
        (raised = none → LastOpened (calls ++ [call]) next) ∧
        (raised ≠ none → next.inPort = none ∧ next.outPort = none) := by
  obtain ⟨howned, hports⟩ := engine_ports calls
  refine ⟨hports, connected_iff calls, howned.inputs, howned.outputs,
    fun call => ⟨call_delivered howned call, ?_⟩⟩
  rintro inName outName outputRaises inputRaises rfl
  refine ⟨lastOpened_of_connect howned, fun hraised => ?_⟩
  obtain ⟨e, hraise⟩ := Option.ne_none_iff_exists'.1 hraised
  have hclosed := (connect_raises howned hraise).1
  exact ⟨hclosed.inPort, hclosed.outPort⟩

/-- Connecting again while connected, with an input that cannot be opened. -/
example : (engineMachine String).final {} [.connect "S4" "Feedback" none none,
      .send (.noteOn 0 60 1) none, .connect "S4" "Other" none (some "in use"), .disconnect] =
    { inputs := [⟨"S4", 1⟩],
      outputs := [⟨⟨"Feedback", [.noteOn 0 60 1]⟩, 1⟩, ⟨⟨"Other", []⟩, 1⟩] } := by
  decide

/-! ## The application's port -/

/-- What was sent on the output port that is held. -/
def MidiEngine.port (engine : MidiEngine) : Option (List Message) :=
  engine.outPort.bind fun j => engine.sents[j]?

/-- What a call is for the application. -/
def EngineCall.onApp (pyInt : PyInt) (app : App) : EngineCall ε → App
  | .send msg _ => app.send msg
  | call => (app.call pyInt (.setPort call.opens)).state

theorem port_send (h : Owned engine) {app : App} (happ : app.outPort = engine.port) (msg : Message)
    (raises : Option ε) : (app.send msg).outPort = (engine.send msg raises).state.port := by
  obtain ⟨-, -, houtPort, -, -, hdelivered⟩ := send_spec h msg raises
  cases hport : engine.outPort with
  | none =>
    have hnone : app.outPort = none := by rw [happ, MidiEngine.port, hport]; rfl
    rw [MidiEngine.port, houtPort, hport, App.send, hnone]
    exact hnone
  | some j =>
    have hlast : j + 1 = engine.sents.length := by
      rw [MidiEngine.sents, length_view]
      exact h.outputs.newest j hport
    obtain ⟨sent, hsent⟩ : ∃ sent, engine.sents[j]? = some sent :=
      ⟨_, List.getElem?_eq_getElem (by omega)⟩
    have hsome : app.outPort = some sent := by rw [happ, MidiEngine.port, hport]; exact hsent
    simp only [Delivered, hport] at hdelivered
    rw [MidiEngine.port, houtPort, hport, hdelivered, App.send, hsome]
    simp [hsent]

theorem port_connect (h : Owned engine) (inName outName : String) :
    (engine.connect inName outName (none : Option ε) none).state.port = some [] := by
  obtain ⟨-, -, houtPort, -, -, hsents⟩ := connect_opens (ε := ε) h inName outName
  have hlength : engine.outNames.length = engine.sents.length := by
    rw [MidiEngine.outNames, MidiEngine.sents, length_view, length_view]
  rw [MidiEngine.port, houtPort, hsents, hlength]
  exact List.getElem?_concat_length

theorem port_closed (h : Closed engine) : engine.port = none := by
  rw [MidiEngine.port, h.outPort]
  rfl

/-- **The application's port is the engine's**, after any calls. -/
theorem engine_port (pyInt : PyInt) (calls : List (EngineCall ε)) {app : App}
    (h : app.outPort = none) :
    (calls.foldl (EngineCall.onApp pyInt) app).outPort =
      ((engineMachine ε).final {} calls).port := by
  induction calls using List.reverseRecOn with
  | nil => exact h
  | append_singleton calls call ih =>
    have howned := (engine_ports calls).1
    rw [List.foldl_append, Machine.final_append]
    cases call with
    | disconnect => exact (port_closed (disconnectLocked_closed howned).1).symm
    | send msg raises => exact port_send howned ih msg raises
    | connect inName outName outputRaises inputRaises =>
      rcases connect_cases inName outName outputRaises inputRaises with
        ⟨rfl, rfl⟩ | ⟨hopens, e, hraise⟩
      · exact (@port_connect ε _ howned inName outName).symm
      · show (if _ then _ else _) = _
        rw [hopens]
        exact (port_closed (connect_raises howned (hraise _)).1).symm

end Gui
