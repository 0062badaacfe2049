import S4Bridge.Gui.Grid
import S4Bridge.Gui.Proof.Window

/-!
# What the grid shows

A label is right only if every call that changes what its cell should look like also refreshes it. A
call leaves a cell as it was or refreshes it (`call_cell`), and does to the window what the
application's model says (`call_window`). From this:

* `grid_shows`: after every run the texts are the data, the selected cell is the one marked, and, if
  nothing was raised, the bit panel shows its value.
* `tick_recolours`: with no tick late (`InTime`), every colour is that of the cell's age after a tick,
  although a tick leaves out the cells that changed 2.5 s ago or earlier.
-/

namespace Gui

namespace Grid

variable {grid grid' : Grid} {clock : Clock} {baseChVar : Option Int} {i : Nat}

/-! ## Labels -/

/-- The label a cell gets when it is refreshed. -/
def freshLabel (grid : Grid) (time : Binary64) (i : Nat) : Option CellLabel :=
  grid.data[i]?.map fun val => ⟨pyFormat 16 2 val.toNat, grid.cellBg time i⟩

/-- Nothing but labels differs. -/
def Relabelled (grid grid' : Grid) : Prop := grid' = { grid with labels := grid'.labels }

theorem Relabelled.refl (grid : Grid) : Relabelled grid grid := rfl

theorem Relabelled.trans {grid'' : Grid} (h : Relabelled grid grid') (h' : Relabelled grid' grid'') :
    Relabelled grid grid'' := by
  unfold Relabelled at *
  rw [h', h]

theorem Relabelled.window (h : Relabelled grid grid') : grid'.toMapWindow = grid.toMapWindow := by
  rw [h]

theorem Relabelled.changedAt (h : Relabelled grid grid') : grid'.changedAt = grid.changedAt := by
  rw [h]

theorem Relabelled.panel (h : Relabelled grid grid') : grid'.panel = grid.panel := by
  rw [h]

theorem Relabelled.freshLabel (h : Relabelled grid grid') (time : Binary64) (i : Nat) :
    grid'.freshLabel time i = grid.freshLabel time i := by
  rw [h]
  rfl

theorem refreshCell_relabelled (grid : Grid) (time : Binary64) (idx : Nat) :
    Relabelled grid (grid.refreshCell time idx) := by
  unfold refreshCell
  split
  · exact .refl grid
  · rfl

theorem getElem?_refreshCell (grid : Grid) (time : Binary64) (idx : Nat) (hi : i < maxBytes) :
    (grid.refreshCell time idx).labels[i]? =
      if idx = i then grid.freshLabel time i else grid.labels[i]? := by
  unfold refreshCell freshLabel
  by_cases h : idx = i
  · subst h
    rw [Vector.getElem?_eq_getElem hi]
    simp [hi]
  · rw [if_neg h]
    split
    · rfl
    · simp [h]

/-- Cells refreshed one after the other. -/
theorem foldl_refreshCell (p : Nat → Bool) (time : Nat → Binary64) (cells : List Nat) (grid : Grid) :
    let grid' := cells.foldl
      (fun win idx => if p idx then win.refreshCell (time idx) idx else win) grid
    Relabelled grid grid' ∧ ∀ i < maxBytes, grid'.labels[i]? =
      if i ∈ cells ∧ p i then grid.freshLabel (time i) i else grid.labels[i]? := by
  induction cells generalizing grid with
  | nil => exact ⟨.refl grid, fun i _ => by simp⟩
  | cons idx cells ih =>
    simp only [List.foldl_cons]
    by_cases hp : p idx = true
    · rw [if_pos hp]
      have hone := refreshCell_relabelled grid (time idx) idx
      obtain ⟨hrest, hlabels⟩ := ih (grid.refreshCell (time idx) idx)
      refine ⟨hone.trans hrest, fun i hi => ?_⟩
      rw [hlabels i hi, hone.freshLabel, getElem?_refreshCell grid _ _ hi]
      by_cases hidx : idx = i
      · subst hidx
        simp [hp]
      · have hmem : i ∈ idx :: cells ↔ i ∈ cells := by
          rw [List.mem_cons, or_iff_right (Ne.symm hidx)]
        simp only [hmem, if_neg hidx]
    · rw [if_neg hp]
      obtain ⟨hrest, hlabels⟩ := ih grid
      refine ⟨hrest, fun i hi => ?_⟩
      rw [hlabels i hi]
      by_cases hidx : i = idx
      · subst hidx
        simp [hp]
      · simp only [List.mem_cons, hidx, false_or]

/-! ## Cells -/

/-- The cell and all its colour depends on are the same. -/
structure SameCell (grid grid' : Grid) (i : Nat) : Prop where
  data : grid'.data[i]? = grid.data[i]?
  changedAt : grid'.changedAt[i]? = grid.changedAt[i]?
  label : grid'.labels[i]? = grid.labels[i]?
  selected : grid'.selectedIdx = some i ↔ grid.selectedIdx = some i

theorem SameCell.refl (grid : Grid) (i : Nat) : SameCell grid grid i := ⟨rfl, rfl, rfl, Iff.rfl⟩

theorem SameCell.trans {grid'' : Grid} (h : SameCell grid grid' i) (h' : SameCell grid' grid'' i) :
    SameCell grid grid'' i where
  data := h'.data.trans h.data
  changedAt := h'.changedAt.trans h.changedAt
  label := h'.label.trans h.label
  selected := h'.selected.trans h.selected

theorem SameCell.freshLabel (h : SameCell grid grid' i) (time : Binary64) :
    grid'.freshLabel time i = grid.freshLabel time i := by
  unfold Grid.freshLabel cellBg
  simp only [h.data, h.changedAt, h.selected]

/-- The cell is left alone, or refreshed at `now` or later. -/
def Kept (now : Binary64) (grid grid' : Grid) (i : Nat) : Prop :=
  SameCell grid grid' i ∨ ∃ time, now ≤ time ∧ grid'.labels[i]? = grid'.freshLabel time i

theorem Kept.refl (now : Binary64) (grid : Grid) (i : Nat) : Kept now grid grid i := .inl (.refl grid i)

theorem Kept.trans {now : Binary64} {grid'' : Grid} (h : Kept now grid grid' i)
    (h' : Kept now grid' grid'' i) : Kept now grid grid'' i := by
  rcases h' with hsame | hfresh
  · rcases h with hsame' | ⟨time, hnow, hlabel⟩
    · exact .inl (hsame'.trans hsame)
    · refine .inr ⟨time, hnow, ?_⟩
      rw [hsame.label, hlabel, hsame.freshLabel]
  · exact .inr hfresh

theorem now_le_shown (clock : Clock) (i : Nat) : clock.now ≤ clock.shown i :=
  (clock.now_le_changed i).trans (clock.changed_le_shown i)

/-- Only labels are written, each as it is refreshed. -/
theorem Relabelled.kept {now time : Binary64} (h : Relabelled grid grid') (hnow : now ≤ time)
    (hlabel : grid'.labels[i]? = grid.freshLabel time i ∨ grid'.labels[i]? = grid.labels[i]?) :
    Kept now grid grid' i := by
  rcases hlabel with hfresh | hsame
  · exact .inr ⟨time, hnow, hfresh.trans (h.freshLabel time i).symm⟩
  · refine .inl ⟨?_, ?_, hsame, ?_⟩
    · rw [h]
    · rw [h]
    · rw [h]

theorem refreshCell_kept {now time : Binary64} (hnow : now ≤ time) (grid : Grid) (idx : Nat)
    (hi : i < maxBytes) : Kept now grid (grid.refreshCell time idx) i := by
  refine (refreshCell_relabelled grid time idx).kept hnow ?_
  rw [getElem?_refreshCell grid time idx hi]
  split
  · exact .inl rfl
  · exact .inr rfl

/-! ## The calls -/

/-- The panel is written if the field holds a number. -/
theorem updateBitPanel_spec (grid : Grid) (baseChVar : Option Int) :
    (∀ now i, Kept now grid (grid.updateBitPanel baseChVar).state i) ∧
      (grid.updateBitPanel baseChVar).state.toMapWindow = grid.toMapWindow ∧
      (grid.selectedIdx ≠ none → (grid.updateBitPanel baseChVar).raised =
        (MapWindow.updateBitPanel baseChVar grid.toMapWindow).raised) := by
  unfold updateBitPanel
  cases hsel : grid.selectedIdx with
  | none => exact ⟨fun now i => .refl now grid i, rfl, fun h => absurd rfl h⟩
  | some idx =>
    cases baseChVar with
    | none => exact ⟨fun now i => .refl now grid i, rfl, fun _ => rfl⟩
    | some baseCh => exact ⟨fun now i => .inl ⟨rfl, rfl, rfl, Iff.rfl⟩, rfl, fun _ => rfl⟩

/-- The cell has its new value and time, and is refreshed. -/
theorem putCell_kept (grid : Grid) (clock : Clock) (idx : Nat) (value : UInt8) (hi : i < maxBytes) :
    Kept clock.now grid
      (Grid.refreshCell
        { grid with
          data := grid.data.setIfInBounds idx value
          changedAt := grid.changedAt.setIfInBounds idx (some (clock.changed idx)) }
        (clock.shown idx) idx) i := by
  generalize hput : ({ grid with
    data := grid.data.setIfInBounds idx value
    changedAt := grid.changedAt.setIfInBounds idx (some (clock.changed idx)) } : Grid) = put
  have hrelabelled := refreshCell_relabelled put (clock.shown idx) idx
  have hlabel := getElem?_refreshCell put (clock.shown idx) idx hi
  by_cases hidx : idx = i
  · subst hidx
    rw [if_pos rfl, ← hrelabelled.freshLabel] at hlabel
    exact .inr ⟨_, now_le_shown clock idx, hlabel⟩
  · rw [if_neg hidx] at hlabel
    have hsame : SameCell grid put i := by
      rw [← hput]
      exact ⟨by simp [hidx], by simp [hidx], rfl, Iff.rfl⟩
    exact Kept.trans (.inl hsame) (hrelabelled.kept (now_le_shown clock idx) (.inr hlabel))

theorem updateByte_kept (grid : Grid) (clock : Clock) (baseChVar : Option Int) (idx : Int)
    (value : Nat) (source : Source) (hi : i < maxBytes) :
    Kept clock.now grid (grid.updateByte clock baseChVar idx value source).state i := by
  unfold updateByte
  split
  · exact .refl _ grid i
  · split
    · exact .refl _ grid i
    · split
      · exact .refl _ grid i
      · have hput := putCell_kept grid clock idx.toNat (UInt8.ofNat (value &&& 0xFF)) hi
        dsimp only
        split
        · exact hput.trans ((updateBitPanel_spec _ baseChVar).1 _ i)
        · exact hput

theorem updatePacket_kept (grid : Grid) (clock : Clock) (baseChVar : Option Int)
    (data : List UInt8) (source : Source) (hi : i < maxBytes) :
    Kept clock.now grid (grid.updatePacket clock baseChVar data source).state i := by
  refine Effect.each_invariant (I := fun grid' => Kept clock.now grid grid' i) ?_
    (.refl _ grid i)
  rintro ⟨val, idx⟩ - grid' hkept
  dsimp only
  split
  · exact hkept.trans (updateByte_kept grid' clock baseChVar idx val.toNat source hi)
  · exact hkept

theorem refreshCell_fresh {now time : Binary64} (hnow : now ≤ time) (hi : i < maxBytes) (base : Grid)
    (grid : Grid) : Kept now base (grid.refreshCell time i) i := by
  refine .inr ⟨time, hnow, ?_⟩
  rw [(refreshCell_relabelled grid time i).freshLabel, getElem?_refreshCell grid time i hi, if_pos rfl]

theorem select_kept (grid : Grid) (clock : Clock) (baseChVar : Option Int) (idx : Fin maxBytes)
    (hi : i < maxBytes) :
    Kept clock.now grid (grid.select clock baseChVar idx).state i := by
  unfold select
  dsimp only
  refine Kept.trans ?_ ((updateBitPanel_spec _ baseChVar).1 _ i)
  by_cases hidx : idx.val = i
  · rw [hidx]
    exact refreshCell_fresh (now_le_shown clock i) hi _ _
  · refine Kept.trans ?_ (refreshCell_kept (now_le_shown clock idx) _ idx.val hi)
    have hne : some idx.val ≠ some i := fun h => hidx (Option.some.inj h)
    cases hold : grid.selectedIdx with
    | none =>
      refine .inl ⟨rfl, rfl, rfl, ?_⟩
      rw [hold]
      exact iff_of_false hne (by simp)
    | some old =>
      dsimp only
      by_cases hi' : old = i
      · rw [hi']
        exact refreshCell_fresh (now_le_shown clock i) hi _ _
      · refine Kept.trans ?_ (refreshCell_kept (now_le_shown clock old) _ old hi)
        refine .inl ⟨rfl, rfl, rfl, ?_⟩
        rw [hold]
        exact iff_of_false hne fun h => hi' (Option.some.inj h)

theorem clearHighlights_spec (grid : Grid) (clock : Clock) :
    (grid.clearHighlights clock).toMapWindow = grid.toMapWindow ∧
      (grid.clearHighlights clock).panel = grid.panel ∧
      ∀ i < maxBytes, Kept clock.now grid (grid.clearHighlights clock) i := by
  obtain ⟨hrelabelled, hlabels⟩ := foldl_refreshCell (fun _ => true) clock.shown
    (List.range maxBytes) { grid with changedAt := Vector.replicate maxBytes none }
  simp only [if_true] at hrelabelled hlabels
  refine ⟨hrelabelled.window, hrelabelled.panel, fun i hi => .inr ⟨_, now_le_shown clock i, ?_⟩⟩
  rw [clearHighlights, hrelabelled.freshLabel, hlabels i hi,
    if_pos ⟨List.mem_range.2 hi, trivial⟩]

/-- A tick refreshes the cells that changed lately. -/
theorem tick_spec (grid : Grid) (clock : Clock) :
    Relabelled grid (grid.tick clock) ∧ ∀ i < maxBytes, (grid.tick clock).labels[i]? =
      if grid.alive = true ∧ grid.changedLately clock.now i = true
      then grid.freshLabel (clock.shown i) i else grid.labels[i]? := by
  unfold tick
  cases halive : grid.alive with
  | false => exact ⟨.refl grid, fun i _ => by simp⟩
  | true =>
    obtain ⟨hrelabelled, hlabels⟩ := foldl_refreshCell (grid.changedLately clock.now) clock.shown
      (List.range maxBytes) grid
    simp only [Bool.not_true, Bool.false_eq_true, if_false, true_and]
    refine ⟨hrelabelled, fun i hi => ?_⟩
    rw [hlabels i hi]
    simp only [List.mem_range, hi, true_and]

/-- **What a call does to a cell**: it leaves it alone or refreshes it. -/
theorem call_kept (grid : Grid) (input : GridInput) (hi : i < maxBytes) :
    Kept input.clock.now grid (grid.call input).state i := by
  unfold call
  split
  · exact .refl _ grid i
  · obtain ⟨call, clock, baseChVar⟩ := input
    cases call with (dsimp only [Effect.ok_state])
    | updateByte idx value source => exact updateByte_kept grid clock baseChVar idx value source hi
    | updatePacket data source => exact updatePacket_kept grid clock baseChVar data source hi
    | setSource src => exact .inl ⟨rfl, rfl, rfl, Iff.rfl⟩
    | select idx => exact select_kept grid clock baseChVar idx hi
    | clearHighlights => exact (clearHighlights_spec grid clock).2.2 i hi
    | tick =>
      obtain ⟨hrelabelled, hlabels⟩ := tick_spec grid clock
      refine hrelabelled.kept (now_le_shown clock i) ?_
      rw [hlabels i hi]
      split
      · exact .inl rfl
      · exact .inr rfl
    | close => exact .inl ⟨rfl, rfl, rfl, Iff.rfl⟩

/-! ## The window -/

theorem refreshCell_window (grid : Grid) (time : Binary64) (idx : Nat) :
    (grid.refreshCell time idx).toMapWindow = grid.toMapWindow :=
  (refreshCell_relabelled grid time idx).window

theorem updateByte_window (grid : Grid) (clock : Clock) (baseChVar : Option Int) (idx : Int)
    (value : Nat) (source : Source) :
    (grid.updateByte clock baseChVar idx value source).state.toMapWindow =
        (grid.toMapWindow.updateByte baseChVar idx value source).state ∧
      (grid.updateByte clock baseChVar idx value source).raised =
        (grid.toMapWindow.updateByte baseChVar idx value source).raised := by
  have hpanel (win : MapWindow) : (win.updateBitPanel baseChVar).state = win := by
    cases baseChVar <;> rfl
  unfold updateByte MapWindow.updateByte
  split
  · exact ⟨rfl, rfl⟩
  · split
    · exact ⟨rfl, rfl⟩
    · split
      · exact ⟨rfl, rfl⟩
      · dsimp only
        rw [refreshCell_window]
        dsimp only
        split
        · rename_i hsel
          obtain ⟨-, hwindow, hraised⟩ := updateBitPanel_spec (refreshCell
            { grid with
              data := grid.data.setIfInBounds idx.toNat (UInt8.ofNat (value &&& 0xFF))
              changedAt := grid.changedAt.setIfInBounds idx.toNat (some (clock.changed idx.toNat)) }
            (clock.shown idx.toNat) idx.toNat) baseChVar
          rw [refreshCell_window] at hwindow hraised
          rw [hwindow, hpanel]
          exact ⟨rfl, hraised (by simp [hsel])⟩
        · exact ⟨refreshCell_window .., rfl⟩

theorem updatePacket_window (grid : Grid) (clock : Clock) (baseChVar : Option Int)
    (data : List UInt8) (source : Source) :
    (grid.updatePacket clock baseChVar data source).state.toMapWindow =
        (grid.toMapWindow.updatePacket baseChVar data source).state ∧
      (grid.updatePacket clock baseChVar data source).raised =
        (grid.toMapWindow.updatePacket baseChVar data source).raised := by
  refine Effect.each_sim (R := fun (grid : Grid) win => grid.toMapWindow = win) ?_ rfl
  rintro ⟨val, idx⟩ - grid win rfl
  dsimp only
  split
  · exact updateByte_window grid clock baseChVar idx val.toNat source
  · exact ⟨rfl, rfl⟩

theorem select_window (grid : Grid) (clock : Clock) (baseChVar : Option Int) (idx : Fin maxBytes) :
    (grid.select clock baseChVar idx).state.toMapWindow =
        (grid.toMapWindow.select baseChVar idx).state ∧
      (grid.select clock baseChVar idx).raised = (grid.toMapWindow.select baseChVar idx).raised := by
  have hpanel (win : MapWindow) : (win.updateBitPanel baseChVar).state = win := by
    cases baseChVar <;> rfl
  have hmarked : ∀ marked : Grid, marked.toMapWindow = { grid.toMapWindow with selectedIdx := some idx.val } →
      ((marked.refreshCell (clock.shown idx) idx).updateBitPanel baseChVar).state.toMapWindow =
          (grid.toMapWindow.select baseChVar idx).state ∧
        ((marked.refreshCell (clock.shown idx) idx).updateBitPanel baseChVar).raised =
          (grid.toMapWindow.select baseChVar idx).raised := by
    intro marked hmarked
    obtain ⟨-, hwindow, hraised⟩ :=
      updateBitPanel_spec (marked.refreshCell (clock.shown idx) idx) baseChVar
    rw [refreshCell_window, hmarked] at hwindow hraised
    rw [hwindow, MapWindow.select, hpanel]
    exact ⟨rfl, hraised (by simp)⟩
  refine hmarked _ ?_
  cases grid.selectedIdx with
  | none => rfl
  | some old => exact refreshCell_window ..

/-- **What a call does to the window**: labels or not, it is the same. -/
theorem call_window (grid : Grid) (input : GridInput) :
    (grid.call input).state.toMapWindow = (grid.toMapWindow.gridCall input).state ∧
      (grid.call input).raised = (grid.toMapWindow.gridCall input).raised := by
  obtain ⟨call, clock, baseChVar⟩ := input
  unfold Grid.call MapWindow.gridCall
  cases halive : grid.alive with
  | false =>
    cases call with
    | tick => exact ⟨(tick_spec grid clock).1.window, rfl⟩
    | _ => exact ⟨rfl, rfl⟩
  | true =>
    simp only [Bool.not_true, Bool.false_eq_true, if_false, false_and]
    cases call with (dsimp only [Effect.ok_state, Effect.ok_raised])
    | updateByte idx value source => exact updateByte_window grid clock baseChVar idx value source
    | updatePacket data source => exact updatePacket_window grid clock baseChVar data source
    | select idx => exact select_window grid clock baseChVar idx
    | clearHighlights => exact ⟨(clearHighlights_spec grid clock).1, rfl⟩
    | tick => exact ⟨(tick_spec grid clock).1.window, rfl⟩
    | _ => exact ⟨rfl, rfl⟩

/-! ## Labels over runs -/

theorem cellBg_eq_selected_iff (grid : Grid) (time : Binary64) (i : Nat) :
    grid.cellBg time i = .selected ↔ grid.selectedIdx = some i := by
  unfold cellBg
  split
  · rename_i h
    exact iff_of_true rfl h
  · rename_i h
    refine iff_of_false ?_ h
    split
    · dsimp only
      split_ifs <;> decide
    · decide

/-- The label shows the cell's value, or was never written; the selected cell alone is marked. -/
def Shown (grid : Grid) (i : Nat) : Prop :=
  ∃ val label, grid.data[i]? = some val ∧ grid.labels[i]? = some label ∧
    (label.text = pyFormat 16 2 val.toNat ∨ label.text = "--" ∧ val = 0) ∧
    (label.bg = .selected ↔ grid.selectedIdx = some i)

theorem Kept.shown {now : Binary64} (h : Kept now grid grid' i) (hi : i < maxBytes)
    (hshown : Shown grid i) : Shown grid' i := by
  rcases h with hsame | ⟨time, -, hlabel⟩
  · obtain ⟨val, label, hval, hlabel, htext, hbg⟩ := hshown
    exact ⟨val, label, hsame.data.trans hval, hsame.label.trans hlabel, htext,
      hbg.trans hsame.selected.symm⟩
  · have hval : grid'.data[i]? = some grid'.data[i] := Vector.getElem?_eq_getElem hi
    refine ⟨_, ⟨pyFormat 16 2 grid'.data[i].toNat, grid'.cellBg time i⟩, hval, ?_, .inl rfl,
      cellBg_eq_selected_iff grid' time i⟩
    rw [hlabel, freshLabel, hval, Option.map_some]

/-- A highlight is that of a change less than two seconds before `last` or later. -/
def Fades (last : Binary64) (grid : Grid) (i : Nat) : Prop :=
  grid.selectedIdx ≠ some i → ∀ label, grid.labels[i]? = some label → label.bg ≠ .plain →
    ∃ changed, grid.changedAt[i]? = some (some changed) ∧
      last.units < changed.units + faintAge.units

theorem bright_lt_dim : brightAge < dimAge := by decide +kernel

theorem dim_lt_faint : dimAge < faintAge := by decide +kernel

/-- Only a cell that changed less than two seconds ago gets a highlight. -/
theorem cellBg_ne_plain {time : Binary64} (hsel : grid.selectedIdx ≠ some i)
    (h : grid.cellBg time i ≠ .plain) :
    ∃ changed, grid.changedAt[i]? = some (some changed) ∧
      time.units < changed.units + faintAge.units := by
  unfold cellBg at h
  rw [if_neg hsel] at h
  split at h
  · rename_i changed hchanged
    refine ⟨changed, hchanged, ?_⟩
    by_cases hfaint : time - changed < faintAge
    · exact Binary64.lt_of_sub_lt hfaint
    · have hdim : ¬ time - changed < dimAge := fun hage => hfaint (hage.trans dim_lt_faint)
      have hbright : ¬ time - changed < brightAge := fun hage => hdim (hage.trans bright_lt_dim)
      exact absurd (by simp [hbright, hdim, hfaint]) h
  · exact absurd rfl h

theorem Kept.fades {last now : Binary64} (h : Kept now grid grid' i) (hnow : last ≤ now)
    (hfades : Fades last grid i) : Fades last grid' i := by
  intro hsel label hlabel hbg
  rcases h with hsame | ⟨time, htime, hfresh⟩
  · rw [hsame.changedAt]
    exact hfades (fun h => hsel (hsame.selected.2 h)) label (hsame.label.symm.trans hlabel) hbg
  · rw [hfresh, freshLabel, Option.map_eq_some_iff] at hlabel
    obtain ⟨val, -, rfl⟩ := hlabel
    obtain ⟨changed, hchanged, hage⟩ := cellBg_ne_plain hsel hbg
    have hlater : last.units ≤ time.units := hnow.trans htime
    exact ⟨changed, hchanged, by omega⟩

/-! ## The bit panel over runs -/

/-- The panel shows the value of the selected cell, with a base channel `B` holds of. -/
def PanelFresh (B : Int → Prop) (grid : Grid) : Prop :=
  ∀ i, grid.selectedIdx = some i →
    ∃ val, grid.data[i]? = some val ∧ ∃ baseCh, B baseCh ∧ grid.panel = some (bitPanel baseCh i val)

variable {B : Int → Prop}

theorem PanelFresh.of_same (h : PanelFresh B grid) (hsel : grid'.selectedIdx = grid.selectedIdx)
    (hpanel : grid'.panel = grid.panel)
    (hdata : ∀ i, grid.selectedIdx = some i → grid'.data[i]? = grid.data[i]?) :
    PanelFresh B grid' := by
  intro i hi
  rw [hsel] at hi
  rw [hdata i hi, hpanel]
  exact h i hi

/-- A panel that is written is right. -/
theorem updateBitPanel_fresh (hB : ∀ baseCh, baseChVar = some baseCh → B baseCh)
    (hsel : grid.selectedIdx = some i) (hi : i < maxBytes)
    (h : (grid.updateBitPanel baseChVar).raised = none) :
    PanelFresh B (grid.updateBitPanel baseChVar).state := by
  unfold updateBitPanel at h ⊢
  rw [hsel] at h ⊢
  cases baseChVar with
  | none => cases h
  | some baseCh =>
    intro i' hi'
    obtain rfl : i = i' := Option.some.inj (hsel.symm.trans hi')
    have hval : grid.data[i]? = some grid.data[i] := Vector.getElem?_eq_getElem hi
    refine ⟨_, hval, baseCh, hB baseCh rfl, ?_⟩
    show grid.toMapWindow.bitPanel baseCh = _
    rw [MapWindow.bitPanel, hsel, Option.bind_some, hval, Option.map_some]

theorem updateByte_fresh (hB : ∀ baseCh, baseChVar = some baseCh → B baseCh)
    {idx : Int} {value : Nat} {source : Source} (hfresh : PanelFresh B grid)
    (h : (grid.updateByte clock baseChVar idx value source).raised = none) :
    PanelFresh B (grid.updateByte clock baseChVar idx value source).state := by
  unfold updateByte at h ⊢
  split
  · exact hfresh
  · split
    · exact hfresh
    · split
      · exact hfresh
      · rename_i h1 h2 h3
        rw [if_neg h1, if_neg h2, if_neg h3] at h
        dsimp only at h ⊢
        generalize hput : ({ grid with
          data := grid.data.setIfInBounds idx.toNat (UInt8.ofNat (value &&& 0xFF))
          changedAt := grid.changedAt.setIfInBounds idx.toNat (some (clock.changed idx.toNat)) } :
            Grid) = put at h ⊢
        have hrelabelled := refreshCell_relabelled put (clock.shown idx.toNat) idx.toNat
        have hwindow := hrelabelled.window
        have hselected : put.selectedIdx = grid.selectedIdx := by rw [← hput]
        split
        · rename_i hsel
          rw [if_pos hsel] at h
          exact updateBitPanel_fresh hB hsel (by omega) h
        · rename_i hsel
          -- the selected cell, if any, is another one
          rw [hwindow, hselected] at hsel
          refine hfresh.of_same (by rw [Effect.ok_state, hwindow, hselected])
            (by rw [Effect.ok_state, hrelabelled.panel, ← hput]) fun i hi => ?_
          have hne : idx.toNat ≠ i := fun heq => hsel (heq ▸ hi)
          rw [Effect.ok_state, hwindow, ← hput]
          simp [hne]

theorem call_fresh {input : GridInput} (hB : ∀ baseCh, input.baseChVar = some baseCh → B baseCh)
    (hfresh : PanelFresh B grid) (h : (grid.call input).raised = none) :
    PanelFresh B (grid.call input).state := by
  obtain ⟨call, clock, baseChVar⟩ := input
  have hsame : ∀ grid' : Grid, grid'.toMapWindow = grid.toMapWindow → grid'.panel = grid.panel →
      PanelFresh B grid' := by
    intro grid' hwindow hpanel
    exact hfresh.of_same (by rw [hwindow]) hpanel fun i _ => by rw [hwindow]
  unfold Grid.call at h ⊢
  split
  · exact hfresh
  · rename_i hgate
    rw [if_neg hgate] at h
    cases call with (dsimp only [Effect.ok_state] at h ⊢)
    | updateByte idx value source => exact updateByte_fresh hB hfresh h
    | updatePacket data source =>
      refine (Effect.each_rule (I := PanelFresh B) (J := fun _ => True) ?_
        (fun _ _ _ _ _ => trivial) hfresh).1 h
      rintro ⟨val, idx⟩ - grid' hfresh' hnone
      dsimp only at hnone ⊢
      split
      · rename_i hne
        rw [if_pos hne] at hnone
        exact updateByte_fresh hB hfresh' hnone
      · exact hfresh'
    | setSource src => exact hfresh.of_same rfl rfl fun _ _ => rfl
    | select idx =>
      refine updateBitPanel_fresh hB ?_ idx.isLt h
      rw [refreshCell_window]
      cases grid.selectedIdx with
      | none => rfl
      | some old => exact congrArg MapWindow.selectedIdx (refreshCell_window ..)
    | clearHighlights =>
      obtain ⟨hwindow, hpanel, -⟩ := clearHighlights_spec grid clock
      exact hsame _ hwindow hpanel
    | tick =>
      obtain ⟨hrelabelled, -⟩ := tick_spec grid clock
      exact hsame _ hrelabelled.window hrelabelled.panel
    | close => exact hfresh.of_same rfl rfl fun _ _ => rfl

theorem run_fresh {inputs : List GridInput}
    (hB : ∀ input ∈ inputs, ∀ baseCh, input.baseChVar = some baseCh → B baseCh)
    (hfresh : PanelFresh B grid) (h : ∀ raised ∈ gridMachine.outs grid inputs, raised = none) :
    PanelFresh B (gridMachine.final grid inputs) := by
  induction inputs generalizing grid with
  | nil => exact hfresh
  | cons input inputs ih =>
    rw [Machine.outs_cons, List.forall_mem_cons] at h
    exact ih (fun x hx => hB x (.tail _ hx)) (call_fresh (hB input (.head _)) hfresh h.1) h.2

/-! ## Runs -/

theorem getElem?_data_new (hi : i < maxBytes) : Grid.new.data[i]? = some 0 := by
  show (Vector.replicate maxBytes (0 : UInt8))[i]? = some 0
  simp [hi]

theorem getElem?_labels_new (hi : i < maxBytes) : Grid.new.labels[i]? = some ⟨"--", .plain⟩ := by
  simp [new, hi]

theorem shown_new (hi : i < maxBytes) : Shown .new i :=
  ⟨0, ⟨"--", .plain⟩, getElem?_data_new hi, getElem?_labels_new hi, .inr ⟨rfl, rfl⟩,
    iff_of_false CellBg.noConfusion fun h => by cases h⟩

theorem run_shown {inputs : List GridInput} (hi : i < maxBytes) (h : Shown grid i) :
    Shown (gridMachine.final grid inputs) i := by
  refine (gridMachine.invariant (I := fun grid => Shown grid i) (P := fun _ => True) inputs
    (fun grid input _ hshown => ⟨?_, trivial⟩) h).1
  exact (call_kept grid input hi).shown hi hshown

theorem run_window (grid : Grid) (inputs : List GridInput) :
    (gridMachine.final grid inputs).toMapWindow = windowMachine.final grid.toMapWindow inputs ∧
      gridMachine.outs grid inputs = windowMachine.outs grid.toMapWindow inputs := by
  induction inputs generalizing grid with
  | nil => exact ⟨rfl, rfl⟩
  | cons input inputs ih =>
    obtain ⟨hwindow, hraised⟩ := call_window grid input
    obtain ⟨hfinal, houts⟩ := ih (grid.call input).state
    rw [hwindow] at hfinal houts
    exact ⟨hfinal, List.cons_eq_cons.2 ⟨hraised, houts⟩⟩

/-- **The grid shows the window.** After every run the window is the one the application's model has;
each label's text is its cell's value, or that of a cell never written; the selected cell alone is
marked; and if no call has raised, the bit panel shows the selected cell's value, with a base channel
the field has held. -/
theorem grid_shows (inputs : List GridInput) :
    let grid := gridMachine.final .new inputs
    let raised := gridMachine.outs .new inputs
    grid.toMapWindow = windowMachine.final .new inputs ∧
      raised = windowMachine.outs .new inputs ∧
      (∀ i (hi : i < maxBytes),
        (grid.labels[i].text = pyFormat 16 2 grid.data[i].toNat ∨
          grid.labels[i].text = "--" ∧ grid.data[i] = 0) ∧
        (grid.labels[i].bg = .selected ↔ grid.selectedIdx = some i)) ∧
      ((∀ x ∈ raised, x = none) → ∀ i (hi : i < maxBytes), grid.selectedIdx = some i →
        ∃ input ∈ inputs, ∃ baseCh, input.baseChVar = some baseCh ∧
          grid.panel = some (bitPanel baseCh i grid.data[i])) := by
  obtain ⟨hwindow, hraised⟩ := run_window .new inputs
  refine ⟨hwindow, hraised, fun i hi => ?_, fun hnone i hi hsel => ?_⟩
  · have hshown : Shown (gridMachine.final .new inputs) i := run_shown hi (shown_new hi)
    obtain ⟨val, label, hval, hlabel, htext, hbg⟩ := hshown
    obtain ⟨_, rfl⟩ := Vector.getElem?_eq_some_iff.1 hval
    obtain ⟨_, rfl⟩ := Vector.getElem?_eq_some_iff.1 hlabel
    exact ⟨htext, hbg⟩
  · have hfresh : PanelFresh (fun baseCh => ∃ input ∈ inputs, input.baseChVar = some baseCh)
        (gridMachine.final .new inputs) :=
      run_fresh (fun input hinput baseCh hbase => ⟨input, hinput, hbase⟩)
        (fun i hi => by cases hi) hnone
    obtain ⟨val, hval, baseCh, ⟨input, hinput, hbase⟩, hpanel⟩ := hfresh i hsel
    obtain ⟨_, rfl⟩ := Vector.getElem?_eq_some_iff.1 hval
    exact ⟨input, hinput, baseCh, hbase, hpanel⟩

/-! ## Colours -/

/-- Half a second and `2 ^ -52` of a second, in the units of `Binary64`. -/
def half : Nat := 2 ^ 1073

def spacing : Nat := 2 ^ 1022

theorem units_faintAge : faintAge.units = 4 * half := by decide +kernel

/-- What is less than 2.5 s by `2 ^ -52` s is not rounded to 2.5 s. -/
theorem round_lt_lateAge : Rounding.round 53 (5 * half - spacing - 1) < lateAge.units := by
  decide +kernel

theorem spacing_lt_half : spacing < half := by decide +kernel

/-- A tick at `now` is not late after one at `last`: it begins at most half a second later, less
`2 ^ -52` s for the rounding of the ages. -/
def InTime (last now : Binary64) : Prop := now.units + spacing ≤ last.units + half

instance (last now : Binary64) : Decidable (InTime last now) := inferInstanceAs (Decidable (_ ≤ _))

/-- The calls come after the last tick, which began at `last`, and no tick is late. -/
def Paced : Binary64 → List GridInput → Prop
  | _, [] => True
  | last, input :: inputs =>
    last ≤ input.clock.now ∧
      if input.call = .tick then InTime last input.clock.now ∧ Paced input.clock.now inputs
      else Paced last inputs

theorem le_now_of_not_changedLately {now changed : Binary64} (h : grid.changedLately now i = false)
    (hchanged : grid.changedAt[i]? = some (some changed)) :
    changed.units + (5 * half - spacing - 1) < now.units := by
  have hage : ¬ now - changed < lateAge := by
    simpa only [changedLately, hchanged, decide_eq_false_iff_not] using h
  by_contra hnow
  exact hage (Binary64.sub_lt_of_le round_lt_lateAge (Nat.le_of_not_lt hnow))

/-- A cell that a tick leaves out is not highlighted, unless the tick is late. -/
theorem not_fades {last now : Binary64} {label : CellLabel} (hlate : InTime last now)
    (hold : grid.changedLately now i = false) (hfades : Fades last grid i)
    (hsel : grid.selectedIdx ≠ some i) (hlabel : grid.labels[i]? = some label)
    (hbg : label.bg ≠ .plain) : False := by
  obtain ⟨changed, hchanged, hlast⟩ := hfades hsel label hlabel hbg
  have hleave := le_now_of_not_changedLately hold hchanged
  have hspacing := spacing_lt_half
  rw [units_faintAge] at hlast
  unfold InTime at hlate
  omega

/-- A tick that is not late leaves every colour right, whichever cells it leaves out. -/
theorem tick_colour {last : Binary64} {label : CellLabel} (hlate : InTime last clock.now)
    (hi : i < maxBytes) (hshown : Shown grid i) (hfades : Fades last grid i)
    (halive : grid.alive = true) (hlabel : (grid.tick clock).labels[i]? = some label) :
    label.bg = (grid.tick clock).cellBg (clock.shown i) i := by
  obtain ⟨hrelabelled, hlabels⟩ := tick_spec grid clock
  have hcolour (time : Binary64) : (grid.tick clock).cellBg time i = grid.cellBg time i := by
    unfold cellBg
    rw [hrelabelled.window, hrelabelled.changedAt]
  rw [hlabels i hi] at hlabel
  rw [hcolour]
  split at hlabel
  · rw [freshLabel, Option.map_eq_some_iff] at hlabel
    obtain ⟨val, -, rfl⟩ := hlabel
    rfl
  · rename_i hleft
    by_cases hsel : grid.selectedIdx = some i
    · obtain ⟨val, label', -, hlabel', -, hbg⟩ := hshown
      obtain rfl := Option.some.inj (hlabel.symm.trans hlabel')
      rw [hbg.2 hsel, (cellBg_eq_selected_iff grid _ i).2 hsel]
    · -- a cell left out changed too long ago to be highlighted, now or before
      have hold : grid.changedLately clock.now i = false := by
        simpa [halive] using hleft
      have hnow : grid.cellBg (clock.shown i) i = .plain := by
        by_contra hbg
        obtain ⟨changed, hchanged, hage⟩ := cellBg_ne_plain hsel hbg
        have hleave := le_now_of_not_changedLately hold hchanged
        have hlater : clock.now.units ≤ (clock.shown i).units := now_le_shown clock i
        have hspacing := spacing_lt_half
        rw [units_faintAge] at hage
        omega
      rw [hnow]
      by_contra hbg
      exact not_fades hlate hold hfades hsel hlabel hbg

/-- What is highlighted after a tick changed less than two seconds before it. -/
theorem tick_fades {last : Binary64} (hlate : InTime last clock.now) (hi : i < maxBytes)
    (halive : grid.alive = true) (hfades : Fades last grid i) :
    Fades clock.now (grid.tick clock) i := by
  obtain ⟨hrelabelled, hlabels⟩ := tick_spec grid clock
  intro hsel label hlabel hbg
  rw [hrelabelled.window] at hsel
  rw [hrelabelled.changedAt]
  rw [hlabels i hi] at hlabel
  split at hlabel
  · rw [freshLabel, Option.map_eq_some_iff] at hlabel
    obtain ⟨val, -, rfl⟩ := hlabel
    obtain ⟨changed, hchanged, hage⟩ := cellBg_ne_plain hsel hbg
    have hlater : clock.now.units ≤ (clock.shown i).units := now_le_shown clock i
    exact ⟨changed, hchanged, hlater.trans_lt hage⟩
  · rename_i hleft
    have hold : grid.changedLately clock.now i = false := by
      simpa [halive] using hleft
    exact (not_fades hlate hold hfades hsel hlabel hbg).elim

/-- A window that is gone does not come back. -/
theorem alive_of_call {input : GridInput} (h : (grid.call input).state.alive = true) :
    grid.alive = true := by
  by_contra halive
  have hwindow := (call_window grid input).1
  rw [MapWindow.gridCall, if_pos (by simpa using halive)] at hwindow
  have hsame : (grid.call input).state.alive = grid.alive := by rw [hwindow]; rfl
  exact halive (hsame ▸ h)

theorem alive_of_run {inputs : List GridInput}
    (h : (gridMachine.final grid inputs).alive = true) : grid.alive = true := by
  induction inputs generalizing grid with
  | nil => exact h
  | cons input inputs ih => exact alive_of_call (ih h)

/-- The run before a tick. -/
theorem run_fades {last : Binary64} {inputs : List GridInput} {input : GridInput} (hi : i < maxBytes)
    (hpaced : Paced last (inputs ++ [input])) (htick : input.call = .tick)
    (halive : (gridMachine.final grid inputs).alive = true) (hfades : Fades last grid i) :
    ∃ last, InTime last input.clock.now ∧ Fades last (gridMachine.final grid inputs) i := by
  induction inputs generalizing grid last with
  | nil =>
    obtain ⟨-, hrest⟩ := hpaced
    rw [if_pos htick] at hrest
    exact ⟨last, hrest.1, hfades⟩
  | cons first inputs ih =>
    obtain ⟨hnow, hrest⟩ := hpaced
    split at hrest
    · rename_i htick'
      have hgrid : grid.alive = true := alive_of_run halive
      have hcall : (grid.call first).state = grid.tick first.clock := by
        simp [call, htick']
      refine ih hrest.2 halive ?_
      show Fades first.clock.now (grid.call first).state i
      rw [hcall]
      exact tick_fades hrest.1 hi hgrid hfades
    · exact ih hrest halive ((call_kept grid first hi).fades hnow hfades)

/-- **Every colour is right after a tick.** In a run none of whose ticks is late (a window opens with a
tick at `opened`), after a tick each cell has the colour of its age at the time the tick looked at it,
or that of the selected cell. -/
theorem tick_recolours {opened : Binary64} {inputs : List GridInput} {input : GridInput}
    (hpaced : Paced opened (inputs ++ [input])) (htick : input.call = .tick)
    (halive : (gridMachine.final .new (inputs ++ [input])).alive = true) :
    ∀ i (hi : i < maxBytes),
      (gridMachine.final .new (inputs ++ [input])).labels[i].bg =
        (gridMachine.final .new (inputs ++ [input])).cellBg (input.clock.shown i) i := by
  intro i hi
  rw [Machine.final_append] at halive
  have hbefore : (gridMachine.final .new inputs).alive = true := alive_of_run halive
  have hnew : Fades opened .new i := by
    intro _ label hlabel hbg
    rw [getElem?_labels_new hi] at hlabel
    obtain rfl := Option.some.inj hlabel
    exact absurd rfl hbg
  obtain ⟨last, hlate, hfades⟩ := run_fades hi hpaced htick hbefore hnew
  have hlast : gridMachine.final .new (inputs ++ [input]) =
      (gridMachine.final .new inputs).tick input.clock := by
    rw [Machine.final_append]
    show ((gridMachine.final .new inputs).call input).state = _
    simp [call, htick]
  simp only [hlast]
  exact tick_colour hlate hi (run_shown hi (shown_new hi)) hfades hbefore
    (Vector.getElem?_eq_getElem hi)

/-- `n` quarters of a second. -/
def quarters (n : Fin 8) : Binary64 :=
  .dyadic n 2 (Nat.lt_of_lt_of_le n.isLt (by decide)) (by decide)

def tickAt (time : Binary64) : GridInput := ⟨.tick, .still time, some 1⟩

/-- A cell changes, and the timer fires a quarter of a second and half a second after the window
opened. -/
theorem tick_recolours_changed :
    let change : GridInput := ⟨.updateByte 3 0x7E .cc, .still (quarters 0), some 1⟩
    let first := tickAt (quarters 1)
    let second := tickAt (quarters 2)
    ∀ i (hi : i < maxBytes),
      (gridMachine.final .new ([change, first] ++ [second])).labels[i].bg =
        (gridMachine.final .new ([change, first] ++ [second])).cellBg (second.clock.shown i) i := by
  intro change first second
  have hpaced : Paced (quarters 0) ([change, first] ++ [second]) := by
    have hfirst : InTime (quarters 0) (quarters 1) := by decide +kernel
    have hsecond : InTime (quarters 1) (quarters 2) := by decide +kernel
    exact ⟨le_rfl, (by decide +kernel : quarters 0 ≤ quarters 1), hfirst,
      (by decide +kernel : quarters 1 ≤ quarters 2), hsecond, trivial⟩
  have halive : (gridMachine.final .new ([change, first] ++ [second])).alive = true := by
    rw [(run_window .new _).1]
    rfl
  exact tick_recolours hpaced rfl halive

end Grid

end Gui
