import S4Bridge.Gui.Proof.Events
import S4Bridge.Gui.Proof.Sysex

/-!
# When handling a message raises

In the byte map's part only: where a control change or a change of the selected cell needs a base
channel and there is none, and where a raw-USB frame has pairs that make no bytes
(`handleEvent_raised`).
-/

namespace Gui

variable (app : App)

/-- With the byte map open, a control change needs the base channel; a tuple with the header of a
raw-USB frame and pairs of values needs pairs that make bytes, and the base channel if it changes
the selected cell. -/
def Harmless (item : Item) : Prop :=
  ∀ win, app.byteMapWin = some win → win.alive = true →
    match item.msg with
    | .controlChange .. => app.baseChannelVar ≠ none
    | .sysex data => ∀ nibbles, Framed data nibbles →
      (∀ hi ∈ highs nibbles, hi.val < 16) ∧
        (app.baseChannelVar = none → ¬ win.ChangesSelected (packetOf nibbles) .sysex)
    | _ => True

theorem routeSysexToByteMap_raised (data : List (Fin 128)) :
    (app.routeSysexToByteMap (.sysex data)).raised = none ↔
      ∀ win, app.byteMapWin = some win → win.alive = true → ∀ nibbles, Framed data nibbles →
        (∀ hi ∈ highs nibbles, hi.val < 16) ∧
          (app.baseChannelVar = none → ¬ win.ChangesSelected (packetOf nibbles) .sysex) := by
  cases hwin : app.byteMapWin with
  | none => simp [App.routeSysexToByteMap, hwin]
  | some win =>
    cases halive : win.alive with
    | false => simp [App.routeSysexToByteMap, hwin, halive]
    | true =>
      rw [routeSysex_raised hwin halive]
      constructor
      · intro h win' hwin' _
        rw [← Option.some.inj hwin']
        exact h
      · exact fun h => h win rfl halive

/-- **Handling a message raises** only in the byte map's part. -/
theorem handleEvent_raised (item : Item) :
    (app.handleEvent item).raised = none ↔ Harmless app item := by
  obtain ⟨msg, ts⟩ := item
  have hparsed (kind : Kind) (channel : Int) (index value : Nat)
      (hparse : parseMsg msg = some (kind, channel, index, value)) :
      (app.handleEvent ⟨msg, ts⟩).raised = none ↔
        (kind = .cc → ∀ win, app.byteMapWin = some win → win.alive = true →
          app.baseChannelVar ≠ none) := by
    obtain ⟨hraised, tree, hbump⟩ := bumpCounter_spec
      (app.insertLog ⟨ts, kind.text, some channel, some index, some value, msg⟩)
      (kind, channel, index)
    unfold App.handleEvent
    simp only [hparse, Effect.andThen_of_none hraised, hbump, applyRules_eq]
    split
    · rename_i hkind
      rw [routeCcToByteMap_raised]
      exact ⟨fun h _ => h, fun h => h hkind⟩
    · rename_i hkind
      exact ⟨fun _ h => absurd h hkind, fun _ => rfl⟩
  cases msg with
  | controlChange channel control value =>
    rw [hparsed .cc _ _ _ rfl]
    exact ⟨fun h => h rfl, fun h _ => h⟩
  | noteOn channel note velocity =>
    rw [hparsed .noteOn _ _ _ rfl]
    exact ⟨fun _ _ _ _ => trivial, fun _ h => (by cases h)⟩
  | noteOff channel note velocity =>
    rw [hparsed .noteOff _ _ _ rfl]
    exact ⟨fun _ _ _ _ => trivial, fun _ h => (by cases h)⟩
  | sysex data => exact routeSysexToByteMap_raised (app.insertLog _) data
  | other type =>
    refine ⟨fun _ _ _ _ => trivial, fun _ => ?_⟩
    show ((app.insertLog _).routeSysexToByteMap (.other type)).raised = none
    unfold App.routeSysexToByteMap
    split
    · rfl
    · split <;> rfl

end Gui
