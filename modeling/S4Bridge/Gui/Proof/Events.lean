import S4Bridge.Gui.Proof.Window

/-!
# Handling a message

* `handleEvent_spec`: what handling a message does to the application, but for the byte map.
* `handleEvent_view`: with a base channel, the byte map's part is `Gui.handleEvent`.
* `handleEvents_view`: so it is for messages handled one after the other; what a byte map makes of the
  bytes of a run is what the application shows (`appShows_of_deliver`).
-/

namespace Gui

variable (app : App)

/-! ## The parts -/

/-- The row of a message in the log. -/
def Item.row (item : Item) : LogRow :=
  match parseMsg item.msg with
  | none => ⟨item.ts, item.msg.type, none, none, none, item.msg⟩
  | some (kind, channel, index, value) =>
    ⟨item.ts, kind.text, some channel, some index, some value, item.msg⟩

/-- The key a message counts for. -/
def Item.key (item : Item) : Option Key :=
  (parseMsg item.msg).map fun (kind, channel, index, _) => (kind, channel, (index : Int))

/-- What the rules make of a message. -/
def RulePanel.outMsgs (panel : RulePanel) (item : Item) : List Message :=
  match parseMsg item.msg with
  | none => []
  | some (kind, channel, index, value) =>
    (((panel.ruleByKey.lookup (kind, channel, (index : Int))).getD []).filter (·.enabled)).filterMap
      (·.outMsg value)

theorem bumpCounter_spec (key : Key) :
    (app.bumpCounter key).raised = none ∧ ∃ tree, (app.bumpCounter key).state =
      { app with counts := Grouping.increment app.counts key, counterTree := tree } := by
  unfold App.bumpCounter
  simp only
  split
  · rename_i h
    rw [Treeview.item, if_pos h]
    exact ⟨rfl, _, rfl⟩
  · rename_i h
    rw [Treeview.insertEnd, if_neg h]
    exact ⟨rfl, _, rfl⟩

/-- Messages are sent if there is a port. -/
theorem foldl_send (rules : List MappingRule) (value : Int) :
    rules.foldl (fun app rule =>
      if !rule.enabled then app
      else
        match rule.outMsg value with
        | none => app
        | some msg => app.send msg) app =
      { app with
        outPort := app.outPort.map (· ++ (rules.filter (·.enabled)).filterMap (·.outMsg value)) } := by
  induction rules generalizing app with
  | nil => cases h : app.outPort <;> simp [← h]
  | cons rule rules ih =>
    rw [List.foldl_cons, ih]
    cases henabled : rule.enabled with
    | false => simp [henabled]
    | true =>
      cases hmsg : rule.outMsg value with
      | none => simp [henabled, hmsg]
      | some msg => cases hport : app.outPort <;> simp [henabled, hmsg, App.send, hport]

theorem applyRules_eq (key : Key) (value : Int) :
    app.applyRules key value = { app with
      outPort := app.outPort.map (· ++
        (((app.panel.ruleByKey.lookup key).getD []).filter (·.enabled)).filterMap
          (·.outMsg value)) } :=
  foldl_send app _ value

theorem routeCcToByteMap_frame (channel : Int) (controller value : Nat) :
    ∃ win, (app.routeCcToByteMap channel controller value).state =
      { app with byteMapWin := win } := by
  unfold App.routeCcToByteMap
  split
  · exact ⟨app.byteMapWin, rfl⟩
  · split
    · exact ⟨app.byteMapWin, rfl⟩
    · split
      · exact ⟨app.byteMapWin, rfl⟩
      · exact ⟨_, rfl⟩

theorem routeSysexToByteMap_frame (msg : Message) :
    ∃ win, (app.routeSysexToByteMap msg).state = { app with byteMapWin := win } := by
  unfold App.routeSysexToByteMap
  split
  · exact ⟨app.byteMapWin, rfl⟩
  · split
    · exact ⟨app.byteMapWin, rfl⟩
    · split
      · split
        · exact ⟨app.byteMapWin, rfl⟩
        · simp only
          split
          · exact ⟨app.byteMapWin, rfl⟩
          · split
            · exact ⟨app.byteMapWin, rfl⟩
            · exact ⟨_, rfl⟩
      · exact ⟨app.byteMapWin, rfl⟩

/-- Calls of the byte map's window leave the rest alone. -/
theorem onWindow_same (f : MapWindow → Effect MapWindow PyError) :
    (app.onWindow f).state.logTree = app.logTree ∧ (app.onWindow f).state.counts = app.counts ∧
      (app.onWindow f).state.panel = app.panel := by
  unfold App.onWindow
  split
  · exact ⟨rfl, rfl, rfl⟩
  · split <;> exact ⟨rfl, rfl, rfl⟩

/-! ## The whole -/

/-- **What handling a message does**: a row of the log, the key's count, the rules' messages; the rest
is the byte map's. -/
theorem handleEvent_spec (item : Item) :
    ∃ tree win, (app.handleEvent item).state = { app.insertLog item.row with
      counts := item.key.elim app.counts (Grouping.increment app.counts)
      counterTree := tree
      outPort := app.outPort.map (· ++ app.panel.outMsgs item)
      byteMapWin := win } := by
  unfold App.handleEvent Item.row Item.key RulePanel.outMsgs
  cases hparse : parseMsg item.msg with
  | none =>
    obtain ⟨win, hframe⟩ := routeSysexToByteMap_frame
      (app.insertLog ⟨item.ts, item.msg.type, none, none, none, item.msg⟩) item.msg
    refine ⟨app.counterTree, win, ?_⟩
    simp only [hframe]
    cases hport : app.outPort <;> simp [App.insertLog, hport]
  | some parsed =>
    obtain ⟨kind, channel, index, value⟩ := parsed
    obtain ⟨hraised, tree, hbump⟩ := bumpCounter_spec
      (app.insertLog ⟨item.ts, kind.text, some channel, some index, some value, item.msg⟩)
      (kind, channel, index)
    simp only [Effect.andThen_of_none hraised, hbump, applyRules_eq]
    split
    · obtain ⟨win, hframe⟩ := routeCcToByteMap_frame _ channel index value
      exact ⟨tree, win, hframe⟩
    · exact ⟨tree, app.byteMapWin, rfl⟩

theorem routeCcToByteMap_raised (channel : Int) (controller value : Nat) :
    (app.routeCcToByteMap channel controller value).raised = none ↔
      ∀ win, app.byteMapWin = some win → win.alive = true → app.baseChannelVar ≠ none := by
  unfold App.routeCcToByteMap
  cases hwin : app.byteMapWin with
  | none => simp
  | some win =>
    cases halive : win.alive with
    | false => simp [halive]
    | true =>
      cases hbase : app.baseChannelVar with
      | none => simp [halive]
      | some base =>
        have hraised := (MapWindow.updateByte_spec (some base) win
          ((channel - base) % 16 * 128 + controller) ((value &&& 0x7F) <<< 1) .cc).1
        simp [hraised, halive]

/-! ## The byte map's part -/

/-- The application's byte map. -/
def App.view (base : Int) : ByteMapView :=
  ⟨app.byteMapWin.map (·.toByteMapWindow), base⟩

theorem routeCcToByteMap_view {base : Int} (hbase : app.baseChannelVar = some base) (channel : Int)
    (controller value : Nat) :
    (app.routeCcToByteMap channel controller value).result.map (·.view base) =
      .ok (Gui.routeCcToByteMap (app.view base) channel controller value) := by
  have hnone := (routeCcToByteMap_raised app channel controller value).2
    fun _ _ _ => by simp [hbase]
  rw [Effect.result_of_none hnone, Except.map]
  refine congrArg Except.ok ?_
  unfold App.routeCcToByteMap Gui.routeCcToByteMap App.view
  cases hwin : app.byteMapWin with
  | none => simp [hwin]
  | some win =>
    cases halive : win.alive with
    | false => simp [hwin, halive]
    | true =>
      simp only [hbase, halive, Option.map_some, Bool.not_true, Bool.false_eq_true, if_false,
        Effect.lift_state, (MapWindow.updateByte_spec _ win _ _ _).2]

theorem routeSysexToByteMap_view {base : Int} (hbase : app.baseChannelVar = some base)
    (msg : Message) :
    (app.routeSysexToByteMap msg).result.map (·.view base) =
      Gui.routeSysexToByteMap (app.view base) msg := by
  have hpacket (win : MapWindow) (raw : List UInt8) :
      (win.updatePacket app.baseChannelVar raw .sysex).raised = none :=
    (MapWindow.updatePacket_raised _ win raw .sysex).2 (by simp [hbase])
  unfold App.routeSysexToByteMap Gui.routeSysexToByteMap App.view
  cases hwin : app.byteMapWin with
  | none => simp [hwin, Except.map]
  | some win =>
    cases halive : win.alive with
    | false => simp [hwin, halive, Except.map]
    | true =>
      simp only [Option.map_some, halive, Bool.not_true, Bool.false_eq_true, if_false]
      cases msg with
      | sysex data =>
        simp only
        split
        · simp only [Effect.ok_result, Except.map, hwin, Option.map_some]
        · split
          · simp only [Effect.ok_result, Except.map, hwin, Option.map_some]
          · cases hraw : pyBytes (joinNibbles (data.drop 4)) with
            | error e => rfl
            | ok raw =>
              have hwindow := MapWindow.updatePacket_window _ win (hpacket win raw)
              simp only [Effect.result, Effect.lift_raised, Effect.lift_state, hpacket win raw,
                hwindow]
              rfl
      | controlChange _ _ _ | noteOn _ _ _ | noteOff _ _ _ | other _ =>
        simp only [Effect.ok_result, Except.map, hwin, Option.map_some]

/-- **With a base channel** the application's byte map goes through what `Gui.handleEvent` does. -/
theorem handleEvent_view {base : Int} (hbase : app.baseChannelVar = some base) (item : Item) :
    (app.handleEvent item).result.map (·.view base) = Gui.handleEvent (app.view base) item.msg := by
  unfold Gui.handleEvent App.handleEvent
  cases hparse : parseMsg item.msg with
  | none => exact routeSysexToByteMap_view (app.insertLog _) hbase item.msg
  | some parsed =>
    obtain ⟨kind, channel, index, value⟩ := parsed
    obtain ⟨hraised, tree, hbump⟩ := bumpCounter_spec
      (app.insertLog ⟨item.ts, kind.text, some channel, some index, some value, item.msg⟩)
      (kind, channel, index)
    simp only [Effect.andThen_of_none hraised, hbump, applyRules_eq]
    split
    · refine (routeCcToByteMap_view _ ?_ channel index value).trans rfl
      exact hbase
    · rfl

/-! ## Runs -/

/-- Messages handled one after the other. -/
def App.handleEvents : App → List Item → Except PyError App
  | app, [] => .ok app
  | app, item :: items => do
    let app ← (app.handleEvent item).result
    app.handleEvents items

theorem handleEvent_baseChannelVar (item : Item) :
    (app.handleEvent item).state.baseChannelVar = app.baseChannelVar := by
  obtain ⟨tree, win, hstate⟩ := handleEvent_spec app item
  rw [hstate]
  rfl

/-- **Messages handled one after the other** do to the application's byte map what they do to a byte
map alone. -/
theorem handleEvents_view {app : App} {base : Int} (hbase : app.baseChannelVar = some base)
    (items : List Item) :
    (app.handleEvents items).map (·.view base) =
      Gui.handleEvents (app.view base) (items.map (·.msg)) := by
  induction items generalizing app with
  | nil => rfl
  | cons item items ih =>
    have hview := handleEvent_view app hbase item
    rw [App.handleEvents, List.map_cons, Gui.handleEvents, ← hview]
    cases hraised : (app.handleEvent item).raised with
    | some e =>
      have herror : (app.handleEvent item).result = .error e := by
        rw [Effect.result, hraised]
      rw [herror]
      rfl
    | none =>
      rw [Effect.result_of_none hraised]
      exact ih ((handleEvent_baseChannelVar app item).trans hbase)

/-- An application whose byte map is as in `start` has handled the messages with the bytes `ms`,
whatever else it does with them, and its byte map is as in `view`. -/
def AppShows (mido : Mido) (start : ByteMapView) (ms : List (List UInt8)) (view : ByteMapView) :
    Prop :=
  ∀ (app : App) (items : List Item), app.baseChannelVar = some start.baseChannelVar →
    app.view start.baseChannelVar = start → items.map (·.msg) = ms.map mido.decode →
    ∃ app', app.handleEvents items = .ok app' ∧ app'.view start.baseChannelVar = view

theorem appShows_of_deliver {mido : Mido} {start view : ByteMapView} {ms : List (List UInt8)}
    (h : deliver mido start ms = .ok view) : AppShows mido start ms view := by
  intro app items hbase hstart hitems
  have hview := handleEvents_view hbase items
  rw [hstart, hitems, show Gui.handleEvents start (ms.map mido.decode) = _ from h] at hview
  cases hrun : app.handleEvents items with
  | error e =>
    rw [hrun] at hview
    cases hview
  | ok app' =>
    rw [hrun] at hview
    exact ⟨app', rfl, Except.ok.inj hview⟩

end Gui
