import Std.Data.String.ToInt
import S4Bridge.Gui.Proof.Pump
import S4Bridge.Gui.Tables
import S4Bridge.Lib.Retention

/-!
# What the tables show

* `log_shown`: of the messages handled since the log was last cleared it holds the newest, and how many
  depends on their number alone.
* `counters_shown`: the counters have a row for each key in the order of its first message, with the
  number of its messages; the row's id is made of the key, and no two keys make the same.
-/

namespace Gui

open Pump Retention

variable (pyInt : PyInt)

/-! ## The log -/

/-- What the log shows of items, the newest first. -/
def shownLog (items : List Item) : List LogRow :=
  (items.map Item.row).reverse.take (retained 1200 1000 items.length)

theorem shownLog_append (items : List Item) (item : Item) :
    push 1200 1000 item.row (shownLog items) = shownLog (items ++ [item]) := by
  have hkeep : 1000 ≤ 1200 := by decide
  have hpush := push_take hkeep item.row (items.map Item.row).reverse
  rw [List.length_reverse, List.length_map] at hpush
  rw [shownLog, hpush, shownLog, List.map_append, List.reverse_append, List.length_append]
  rfl

theorem shownLog_eq (items : List Item) : shownLog items = (items.map Item.row).reverse.take
    (if items.length ≤ 1200 then items.length else 1000 + (items.length - 1201) % 201) := by
  rw [shownLog, retained, Nat.sub_sub]

/-- The items handled since the log was last cleared, after one event. -/
def keptItems (s : State App Item) (items : List Item) (event : Event Item TableCall) : List Item :=
  match event, s.phase with
  | .other .clearLog, .draining _ => items -- the button is not pressed in the middle of a loop
  | .other .clearLog, _ => []
  | _, _ => items ++ ((tablePump pyInt).step s event).2.toList

/-- The items handled since the log was last cleared. -/
def sinceClear : State App Item → List Item → List (Event Item TableCall) → List Item
  | _, items, [] => items
  | s, items, event :: events =>
    sinceClear ((tablePump pyInt).step s event).1 (keptItems pyInt s items event) events

theorem handleEvent_logTree (app : App) (item : Item) :
    (app.handleEvent item).state.logTree = push 1200 1000 item.row app.logTree := by
  obtain ⟨tree, win, hspec⟩ := handleEvent_spec app item
  rw [hspec]
  rfl

/-- One event. -/
theorem logTree_step {s : State App Item} {items : List Item} {event : Event Item TableCall}
    (hlog : s.inner.logTree = shownLog items)
    (halive : ((tablePump pyInt).step s event).1.phase ≠ .dead) :
    ((tablePump pyInt).step s event).1.inner.logTree = shownLog (keptItems pyInt s items event) := by
  have hkeep (hout : ((tablePump pyInt).step s event).2 = none)
      (hsame : ((tablePump pyInt).step s event).1.inner.logTree = s.inner.logTree) :
      ((tablePump pyInt).step s event).1.inner.logTree =
        shownLog (items ++ ((tablePump pyInt).step s event).2.toList) := by
    rw [hsame, hlog, hout]
    exact congrArg shownLog (List.append_nil items).symm
  cases event with
  | put item => exact hkeep rfl rfl
  | fire =>
    obtain ⟨hinner, -, -, hout⟩ := fire_spec (tablePump pyInt) s
    exact hkeep hout (congrArg App.logTree hinner)
  | other call =>
    cases call with
    | button call =>
      obtain ⟨hinner, -, -, hout⟩ := other_spec (tablePump pyInt) s (.button call)
      refine hkeep hout ?_
      rcases hinner with hinner | hinner
      · rw [hinner]
      · rw [hinner]
        exact (call_same pyInt s.inner call).1
    | clearLog =>
      cases hphase : s.phase with
      | draining left =>
        simp only [EventPump.step, keptItems, hphase]
        exact hlog
      | armed =>
        simp only [EventPump.step, keptItems, hphase]
        rfl
      | dead =>
        simp only [EventPump.step, keptItems, hphase]
        rfl
  | turn =>
    rcases turn_cases (tablePump pyInt) s with ⟨-, hout, hinner, -, -⟩ |
      ⟨item, queue, left, -, -, -, ⟨-, heq⟩ | ⟨-, heq⟩⟩
    · exact hkeep hout (congrArg App.logTree hinner)
    · have hturn : (tablePump pyInt).step s .turn =
          (⟨(s.inner.handleEvent item).state, queue, .draining left⟩, some item) := heq
      have hkept : keptItems pyInt s items .turn = items ++ [item] := by
        simp only [keptItems, hturn, Option.toList_some]
      rw [hturn, hkept, ← shownLog_append, ← hlog]
      exact handleEvent_logTree s.inner item
    · exact absurd (congrArg (·.1.phase) heq) halive

theorem logTree_run {s : State App Item} {items : List Item} {events : List (Event Item TableCall)}
    (hlog : s.inner.logTree = shownLog items)
    (halive : ((tablePump pyInt).final s events).phase ≠ .dead) :
    ((tablePump pyInt).final s events).inner.logTree =
      shownLog (sinceClear pyInt s items events) := by
  induction events generalizing s items with
  | nil => exact hlog
  | cons event events ih => exact ih (logTree_step pyInt hlog (alive_of_final halive)) halive

/-- **The log**: in every run in which the pump lives, with any messages, buttons and clearings, the
log shows the newest of the messages handled since it was last cleared: all while they are at most
1200, and from then on between 1000 and 1200 of them, 1000 again each time there would be more. -/
theorem log_shown (events : List (Event Item TableCall))
    (halive : ((tablePump pyInt).final App.start.armed events).phase ≠ .dead) :
    let items := sinceClear pyInt App.start.armed [] events
    ((tablePump pyInt).final App.start.armed events).inner.logTree =
      (items.map Item.row).reverse.take
        (if items.length ≤ 1200 then items.length else 1000 + (items.length - 1201) % 201) := by
  have hempty : App.start.armed.inner.logTree = shownLog [] := by decide
  exact (logTree_run pyInt hempty halive).trans (shownLog_eq _)

/-- Two messages arrive; between them the log is cleared. -/
def clearedRun : List (Event Item TableCall) :=
  [.put ⟨.controlChange 0 7 1, 5⟩, .fire, .turn, .turn, .other .clearLog,
    .put ⟨.noteOn 0 36 100, 6⟩, .put ⟨.controlChange 0 7 2, 8⟩, .fire, .turn, .turn]

theorem log_shown_cleared :
    ((tablePump noInteger).final App.start.armed clearedRun).inner.logTree =
      [⟨8, "cc", some 1, some 7, some 2, .controlChange 0 7 2⟩,
        ⟨6, "note_on", some 1, some 36, some 100, .noteOn 0 36 100⟩] :=
  log_shown noInteger clearedRun (by decide)

/-! ## The counters -/

/-- The id of a key's row. -/
def rowId (key : Key) : String :=
  key.1.text ++ ":" ++ toString key.2.1 ++ ":" ++ toString key.2.2

theorem colon_notMem_text (kind : Kind) : ':' ∉ kind.text.toList := by
  cases kind <;> decide

theorem colon_notMem_toString (n : Int) : ':' ∉ (toString n).toList := by
  have hdigits (m : Nat) : ':' ∉ m.repr.toList := by
    rw [Nat.toList_repr]
    exact fun hcolon => absurd (Nat.isDigit_of_mem_toDigits (by decide) (by decide) hcolon) (by decide)
  cases n with
  | ofNat m => exact hdigits m
  | negSucc m =>
    show ':' ∉ ("-" ++ (m + 1).repr).toList
    rw [String.toList_append, List.mem_append]
    exact fun hcolon => hcolon.elim (by decide) (hdigits (m + 1))

theorem kindText_injective {a b : Kind} (h : a.text = b.text) : a = b := by
  cases a <;> cases b <;> first | rfl | exact absurd h (by decide)

theorem rowId_split (key : Key) : (rowId key).toList.splitOnP (· = ':') =
    [key.1.text.toList, (toString key.2.1).toList, (toString key.2.2).toList] := by
  have htext : (rowId key).toList = key.1.text.toList ++
      [(toString key.2.1).toList, (toString key.2.2).toList].flatMap (':' :: ·) := by
    simp [rowId, String.toList_append]
  have hword : ∀ w ∈ [key.1.text.toList, (toString key.2.1).toList, (toString key.2.2).toList],
      ∀ c ∈ w, decide (c = ':') = false := by
    simp only [List.mem_cons, List.not_mem_nil, or_false, decide_eq_false_iff_not]
    rintro w (rfl | rfl | rfl) c hc rfl
    · exact colon_notMem_text _ hc
    · exact colon_notMem_toString _ hc
    · exact colon_notMem_toString _ hc
  rw [htext]
  exact Lists.splitOnP_words (by decide) hword

/-- **An id names one key.** -/
theorem rowId_injective : Function.Injective rowId := by
  intro a b h
  have hsplit := rowId_split a
  rw [h, rowId_split b] at hsplit
  simp only [List.cons.injEq, String.toList_inj, and_true] at hsplit
  obtain ⟨hkind, hchannel, hindex⟩ := hsplit
  exact Prod.ext (kindText_injective hkind.symm) (Prod.ext (Int.repr_injective hchannel.symm)
    (Int.repr_injective hindex.symm))

theorem bumpCounter_rows (app : App) (key : Key) :
    (app.bumpCounter key).state.counterTree.rows =
      Grouping.bump rowId app.counterTree.rows key (Grouping.count app.counts key + 1) := by
  have hcount : Grouping.count (Grouping.increment app.counts key) key =
      Grouping.count app.counts key + 1 := by rw [Grouping.count_increment, if_pos rfl]
  unfold App.bumpCounter Grouping.bump
  simp only [hcount]
  rw [Effect.lift_state]
  split
  · rename_i hrow
    rw [Treeview.item, if_pos hrow]
    exact (if_pos hrow).symm
  · rename_i hrow
    rw [Treeview.insertEnd, if_neg hrow]
    exact (if_neg hrow).symm

theorem handleEvent_rows (app : App) (item : Item) :
    (app.handleEvent item).state.counterTree.rows = item.key.elim app.counterTree.rows fun key =>
      Grouping.bump rowId app.counterTree.rows key (Grouping.count app.counts key + 1) := by
  unfold App.handleEvent Item.key
  cases hparse : parseMsg item.msg with
  | none =>
    obtain ⟨win, hframe⟩ := routeSysexToByteMap_frame
      (app.insertLog ⟨item.ts, item.msg.type, none, none, none, item.msg⟩) item.msg
    simp only [hframe]
    rfl
  | some parsed =>
    obtain ⟨kind, channel, index, value⟩ := parsed
    let app' := app.insertLog ⟨item.ts, kind.text, some channel, some index, some value, item.msg⟩
    obtain ⟨hraised, tree, hbump⟩ := bumpCounter_spec app' (kind, channel, index)
    have hrows := bumpCounter_rows app' (kind, channel, index)
    simp only
    rw [Effect.andThen_of_none hraised]
    split
    · obtain ⟨win, hframe⟩ := routeCcToByteMap_frame _ channel index value
      rw [hframe, applyRules_eq]
      exact hrows
    · rw [applyRules_eq]
      exact hrows

theorem call_rows (app : App) (call : Call) :
    (app.call pyInt call).state.counterTree = app.counterTree := by
  have hwindow (f : MapWindow → Effect MapWindow PyError) :
      (app.onWindow f).state.counterTree = app.counterTree := by
    unfold App.onWindow
    split
    · rfl
    · split <;> rfl
  cases call with
  | openByteMap =>
    show app.openByteMap.counterTree = app.counterTree
    unfold App.openByteMap
    split
    · rfl
    · split <;> rfl
  | closeByteMap => exact hwindow _
  | setSource src => exact hwindow _
  | selectCell idx => exact hwindow _
  | _ => rfl

/-- The counters are those of the keys of the items handled. -/
structure Counted (app : App) (items : List Item) : Prop where
  counts : ∀ key, Grouping.count app.counts key = (items.filterMap Item.key).count key
  rows : app.counterTree.rows = Grouping.tally rowId (items.filterMap Item.key)

theorem Counted.handleEvent {app : App} {items : List Item} (h : Counted app items) (item : Item) :
    Counted (app.handleEvent item).state (items ++ [item]) := by
  obtain ⟨tree, win, hspec⟩ := handleEvent_spec app item
  have hcounts : (app.handleEvent item).state.counts =
      item.key.elim app.counts (Grouping.increment app.counts) := by rw [hspec]
  have hrows := handleEvent_rows app item
  cases hkey : item.key with
  | none =>
    have hsame : (items ++ [item]).filterMap Item.key = items.filterMap Item.key := by
      simp [hkey]
    rw [hkey] at hcounts hrows
    refine ⟨fun key => ?_, ?_⟩
    · rw [hcounts, hsame]
      exact h.counts key
    · rw [hrows, hsame]
      exact h.rows
  | some k =>
    have hnext : (items ++ [item]).filterMap Item.key = items.filterMap Item.key ++ [k] := by
      simp [hkey]
    rw [hkey] at hcounts hrows
    refine ⟨fun key => ?_, ?_⟩
    · rw [hcounts, hnext, Option.elim_some, Grouping.count_increment, h.counts, List.count_append,
        List.count_singleton]
      by_cases hk : key = k
      · simp [hk]
      · have hne : k ≠ key := fun h => hk h.symm
        simp [hk, hne]
    · rw [hrows, hnext, Option.elim_some, h.rows, h.counts]
      exact Grouping.bump_tally rowId_injective _ k

theorem Counted.call {app : App} {items : List Item} (h : Counted app items) (call : TableCall) :
    Counted ((tablePump pyInt).call app call) items := by
  cases call with
  | clearLog => exact ⟨h.counts, h.rows⟩
  | button call =>
    refine ⟨fun key => ?_, ?_⟩
    · show Grouping.count (app.call pyInt call).state.counts key = _
      rw [(call_same pyInt app call).2]
      exact h.counts key
    · show (app.call pyInt call).state.counterTree.rows = _
      rw [call_rows]
      exact h.rows

theorem run_counted {events : List (Event Item TableCall)}
    (halive : ((tablePump pyInt).final App.start.armed events).phase ≠ .dead) :
    Counted ((tablePump pyInt).final App.start.armed events).inner
      ((tablePump pyInt).handled App.start.armed events) := by
  have hempty : Counted App.start.armed.inner [] := ⟨fun _ => rfl, by decide⟩
  have hrun := run_rule (P := tablePump pyInt) (I := Counted)
    (fun _ _ item h _ => h.handleEvent item) (fun _ _ call h => h.call pyInt call) hempty halive
  rwa [List.nil_append] at hrun

/-- **The counters**: in every run in which the pump lives, with any messages, buttons and clearings,
the counters have one row for each key that a message was handled for, in the order of their first
messages, under ids of their own, and it shows how many there were. -/
theorem counters_shown (events : List (Event Item TableCall))
    (halive : ((tablePump pyInt).final App.start.armed events).phase ≠ .dead) :
    let keys := ((tablePump pyInt).handled App.start.armed events).filterMap Item.key
    let tree := ((tablePump pyInt).final App.start.armed events).inner.counterTree
    tree.getChildren.Nodup ∧
      tree.rows = keys.eraseDups.map fun key => (rowId key, key, keys.count key) := by
  have hrun := run_counted pyInt halive
  refine ⟨?_, hrun.rows⟩
  rw [Treeview.getChildren, hrun.rows]
  exact Grouping.nodup_tally rowId_injective _

theorem counters_shown_cleared :
    ((tablePump noInteger).final App.start.armed clearedRun).inner.counterTree.rows =
      [("cc:1:7", (.cc, 1, 7), 2), ("note_on:1:36", (.noteOn, 1, 36), 1)] :=
  (counters_shown noInteger clearedRun (by decide)).2

end Gui
