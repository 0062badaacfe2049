import S4Bridge.Gui.Proof.Raises

/-!
# The event pump

* `call_same`: the buttons leave the log and the counters alone.
* `survives_iff`: the pump of the application handles every message, once and in order, if and only
  if every message it takes is harmless when it is taken.
-/

namespace Gui

variable (pyInt : PyInt)

/-! ## What is kept -/

theorem call_same (app : App) (call : Call) :
    (app.call pyInt call).state.logTree = app.logTree ∧
      (app.call pyInt call).state.counts = app.counts := by
  cases call with
  | addRule editor => exact ⟨rfl, rfl⟩
  | deleteSelected selection => exact ⟨rfl, rfl⟩
  | duplicateSelected selection => exact ⟨rfl, rfl⟩
  | setPort connected => exact ⟨rfl, rfl⟩
  | setBaseChannel baseCh => exact ⟨rfl, rfl⟩
  | openByteMap =>
    show app.openByteMap.logTree = app.logTree ∧ app.openByteMap.counts = app.counts
    unfold App.openByteMap
    split
    · exact ⟨rfl, rfl⟩
    · split <;> exact ⟨rfl, rfl⟩
  | closeByteMap => exact ⟨(onWindow_same app _).1, (onWindow_same app _).2.1⟩
  | setSource src => exact ⟨(onWindow_same app _).1, (onWindow_same app _).2.1⟩
  | selectCell idx => exact ⟨(onWindow_same app _).1, (onWindow_same app _).2.1⟩

/-- The log holds the newest rows, a thousand at least, or all. -/
def Logged (rows log : List LogRow) : Prop := ∃ n, 1000 ≤ n ∧ log = rows.take n

theorem Logged.insertLog {rows : List LogRow} {app : App} (h : Logged rows app.logTree)
    (row : LogRow) : Logged (row :: rows) (app.insertLog row).logTree := by
  obtain ⟨n, hn, hlog⟩ := h
  unfold App.insertLog
  simp only
  split
  · refine ⟨1000, Nat.le_refl _, ?_⟩
    rw [hlog, ← List.take_succ_cons, List.take_take, Nat.min_eq_left (Nat.le_succ_of_le hn)]
  · refine ⟨n + 1, Nat.le_succ_of_le hn, ?_⟩
    rw [hlog, List.take_succ_cons]

/-- What the application has made of the items handled since it was `app`. -/
structure Handled (app : App) (now : App) (items : List Item) : Prop where
  counts : ∀ key, Grouping.count now.counts key =
    Grouping.count app.counts key + items.countP (·.key = some key)
  logged : Logged ((items.map Item.row).reverse ++ app.logTree) now.logTree

theorem Handled.handleEvent {app now : App} {items : List Item} (h : Handled app now items)
    (item : Item) : Handled app (now.handleEvent item).state (items ++ [item]) := by
  obtain ⟨tree, win, hspec⟩ := handleEvent_spec now item
  rw [hspec]
  refine ⟨fun key => ?_, ?_⟩
  · show Grouping.count (item.key.elim now.counts (Grouping.increment now.counts)) key = _
    rw [List.countP_append, List.countP_singleton]
    cases hkey : item.key with
    | none => simpa using h.counts key
    | some k =>
      rw [Option.elim_some, Grouping.count_increment, h.counts key]
      by_cases hk : key = k
      · simp [hk, Nat.add_assoc]
      · have hne : k ≠ key := fun h => hk h.symm
        simp [hk, hne]
  · rw [List.map_append, List.reverse_append]
    exact h.logged.insertLog item.row

theorem Handled.call {app now : App} {items : List Item} (h : Handled app now items) (call : Call) :
    Handled app (now.call pyInt call).state items := by
  obtain ⟨hlog, hcounts⟩ := call_same pyInt now call
  refine ⟨fun key => ?_, ?_⟩
  · rw [hcounts]
    exact h.counts key
  · rw [hlog]
    exact h.logged

/-! ## The pump survives -/

/-- After a run the pump is alive; it has handled the messages in the order of their arrival, once
each, and the rest are in the queue; the counts are those of the messages handled, and their rows
are in the log; a loop has set the timer again when it has had its turns, whatever arrives
meanwhile; and loops that nothing disturbs empty the queue. -/
structure Survives (app : App) (events : List (Pump.Event Item Call)) : Prop where
  alive : ((eventPump pyInt).final app.armed events).phase ≠ .dead
  inOrder : (eventPump pyInt).handled app.armed events ++
    ((eventPump pyInt).final app.armed events).queue = Pump.arrived events
  handled : Handled app ((eventPump pyInt).final app.armed events).inner
    ((eventPump pyInt).handled app.armed events)
  rearms : ∀ before after left, events = before ++ after →
    ((eventPump pyInt).final app.armed before).phase = .draining left →
      (∀ event ∈ after, event.isFire = false) → left < after.countP (·.isTurn) →
        ((eventPump pyInt).final app.armed events).phase = .armed
  empties : ∀ before k, events = before ++ (eventPump pyInt).rounds k →
    ((eventPump pyInt).final app.armed before).phase = .armed →
      ((eventPump pyInt).final app.armed events).phase = .armed ∧
        ((eventPump pyInt).final app.armed events).queue =
          ((eventPump pyInt).final app.armed before).queue.drop (200 * k)

/-- **The event pump** survives a run if and only if every message it takes is harmless when it is
taken. -/
theorem survives_iff (app : App) (events : List (Pump.Event Item Call)) :
    Survives pyInt app events ↔ (eventPump pyInt).Calm Harmless app.armed events := by
  have hgood (s : App) (item : Item) :
      ((eventPump pyInt).handle s item).raised = none ↔ Harmless s item :=
    handleEvent_raised s item
  have hstart : app.armed.phase ≠ .dead := Pump.Phase.noConfusion
  have halive : ((eventPump pyInt).final app.armed events).phase ≠ .dead ↔
      (eventPump pyInt).Calm Harmless app.armed events := Pump.alive_iff hgood hstart
  constructor
  · exact fun h => halive.1 h.alive
  · intro hcalm
    have hfinal := halive.2 hcalm
    refine ⟨hfinal, ?_, ?_, fun before after left hevents hphase hfire hturns => ?_,
      fun before k hevents harmed => ?_⟩
    · exact Pump.handled_append_queue hfinal
    · have hempty : Handled app app.armed.inner [] :=
        ⟨fun key => rfl, max 1000 app.logTree.length, Nat.le_max_left ..,
          (List.take_of_length_le (Nat.le_max_right ..)).symm⟩
      have hrule := Pump.run_rule (P := eventPump pyInt) (I := Handled app)
        (fun s items item h _ => h.handleEvent item) (fun s items call h => h.call pyInt call)
        hempty hfinal
      exact hrule
    · subst hevents
      rw [Pump.final_append] at hfinal ⊢
      exact Pump.rearmed hphase hfire hturns hfinal
    · subst hevents
      rw [Pump.final_append] at hfinal ⊢
      exact Pump.rounds_spec k harmed hfinal

/-- The byte map is opened and F0 7D 53 34 02 10 00 F7 arrives. -/
def pairOf256 : List (Pump.Event Item Call) :=
  [.other .openByteMap, .put ⟨.sysex [0x7D, 0x53, 0x34, 0x02, 0x10, 0x00], 0⟩, .fire, .turn]

theorem not_survives_pair : ¬ Survives noInteger .start pairOf256 := by
  intro h
  exact h.alive rfl

end Gui
