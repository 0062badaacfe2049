import S4Bridge.Gui.BitPanel
import S4Bridge.Lib.Binary64

/-!
# The grid of the byte map (`ByteMapWindow` in `midi_dev_tester.py`)

What the window shows: a label for each cell, whose background says how long ago the cell changed or
that it is the selected one, and the bit panel's labels. A label is written only where a call refreshes
it; colours fade because `_tick` refreshes the cells that changed a short time ago.

`MapWindow` is the window without its labels. Times are those of `time.monotonic()`, in seconds: doubles,
whose differences are rounded (`Binary64`). A call reads the clock, which does not go back, for every
cell by itself (`Clock`).
-/

namespace Gui

/-- What a call reads from the clock. -/
structure Clock where
  /-- When the call begins, or `_tick`'s `now`. -/
  now : Binary64
  /-- `update_byte`'s reading for `_changed_at`. -/
  changed : Nat → Binary64
  /-- `_cell_bg`'s reading. -/
  shown : Nat → Binary64
  now_le_changed : ∀ idx, now ≤ changed idx
  changed_le_shown : ∀ idx, changed idx ≤ shown idx

/-- The clock stands still. -/
def Clock.still (now : Binary64) : Clock where
  now := now
  changed _ := now
  shown _ := now
  now_le_changed _ := le_rfl
  changed_le_shown _ := le_rfl

/-- A label's background. -/
inductive CellBg
  /-- "#1a6b8a" -/
  | selected
  /-- "#b35900" -/
  | bright
  /-- "#7a3c00" -/
  | dim
  /-- "#3d1e00" -/
  | faint
  /-- "#2d2d2d" -/
  | plain
  deriving DecidableEq, Repr

structure CellLabel where
  text : String
  bg : CellBg
  deriving DecidableEq, Repr

structure Grid extends MapWindow where
  changedAt : Vector (Option Binary64) maxBytes
  labels : Vector CellLabel maxBytes
  /-- What was last written into the bit panel. -/
  panel : Option BitPanel
  deriving DecidableEq, Repr

namespace Grid

def new : Grid where
  toMapWindow := .new
  changedAt := Vector.replicate maxBytes none
  labels := Vector.replicate maxBytes ⟨"--", .plain⟩
  panel := none

/-! ## Cells -/

variable (grid : Grid)

/-- The double `0.15` -/
def brightAge : Binary64 := .dyadic 5404319552844595 55 (by decide) (by decide)

/-- `0.5` -/
def dimAge : Binary64 := .dyadic 1 1 (by decide) (by decide)

/-- `2.0` -/
def faintAge : Binary64 := .dyadic 2 0 (by decide) (by decide)

/-- `2.5` -/
def lateAge : Binary64 := .dyadic 5 1 (by decide) (by decide)

-- as doubles, `1.15 - 1.0` is less than `0.15`
example : Binary64.dyadic 5179139571476070 52 (by decide) (by decide) -
    .dyadic 1 0 (by decide) (by decide) < brightAge := by decide +kernel

/-- `_cell_bg`, at the time `time`. -/
def cellBg (time : Binary64) (idx : Nat) : CellBg :=
  if grid.selectedIdx = some idx then .selected
  else
    match grid.changedAt[idx]? with
    | some (some changed) =>
      let age := time - changed
      if age < brightAge then .bright
      else if age < dimAge then .dim
      else if age < faintAge then .faint
      else .plain
    | _ => .plain

def refreshCell (time : Binary64) (idx : Nat) : Grid :=
  match grid.data[idx]? with
  | none => grid
  | some val =>
    let label : CellLabel := ⟨pyFormat 16 2 val.toNat, grid.cellBg time idx⟩
    { grid with labels := grid.labels.setIfInBounds idx label }

variable (clock : Clock) (baseChVar : Option Int)

/-- The base channel is read before anything is written. -/
def updateBitPanel : Effect Grid PyError :=
  match grid.selectedIdx with
  | none => .ok grid
  | some _ =>
    match baseChVar with
    | none => .raise grid .tclError
    | some baseCh => .ok { grid with panel := grid.toMapWindow.bitPanel baseCh }

def updateByte (idx : Int) (value : Nat) (source : Source) : Effect Grid PyError :=
  if grid.srcVar = .ccOnly ∧ source ≠ .cc then .ok grid
  else if grid.srcVar = .sysexOnly ∧ source ≠ .sysex then .ok grid
  else if idx < 0 ∨ idx ≥ maxBytes then .ok grid
  else
    let i := idx.toNat
    let grid :=
      { grid with
        data := grid.data.setIfInBounds i (UInt8.ofNat (value &&& 0xFF))
        changedAt := grid.changedAt.setIfInBounds i (some (clock.changed i)) }
    let grid := grid.refreshCell (clock.shown i) i
    if grid.selectedIdx = some i then grid.updateBitPanel baseChVar else .ok grid

def updatePacket (data : List UInt8) (source : Source) : Effect Grid PyError :=
  Effect.each
    (fun (val, idx) grid =>
      if grid.data[idx]? ≠ some val then grid.updateByte clock baseChVar idx val.toNat source
      else .ok grid)
    (data.take maxBytes).zipIdx grid

/-- `_select`: the cell that was selected gets its own colour back. -/
def select (idx : Fin maxBytes) : Effect Grid PyError :=
  let old := grid.selectedIdx
  let grid := { grid with selectedIdx := some idx.val }
  let grid :=
    match old with
    | none => grid
    | some old => grid.refreshCell (clock.shown old) old
  (grid.refreshCell (clock.shown idx) idx).updateBitPanel baseChVar

def clearHighlights : Grid :=
  (List.range maxBytes).foldl (fun grid idx => grid.refreshCell (clock.shown idx) idx)
    { grid with changedAt := Vector.replicate maxBytes none }

/-- The cells `_tick` refreshes. -/
def changedLately (now : Binary64) (idx : Nat) : Bool :=
  match grid.changedAt[idx]? with
  | some (some changed) => now - changed < lateAge
  | _ => false

/-- `_tick`; refreshing a cell does not change the times it goes through. -/
def tick : Grid :=
  if !grid.alive then grid
  else
    (List.range maxBytes).foldl
      (fun win idx =>
        if grid.changedLately clock.now idx then win.refreshCell (clock.shown idx) idx else win)
      grid

end Grid

/-! ## Runs -/

/-- The calls that change the window or what it shows: from the application (a message, an update of
the source field) and from the window itself. -/
inductive GridCall
  | updateByte (idx : Int) (value : Nat) (source : Source)
  | updatePacket (data : List UInt8) (source : Source)
  | setSource (src : SourceFilter)
  | select (idx : Fin maxBytes)
  | clearHighlights
  | tick
  | close
  deriving DecidableEq, Repr

/-- A call, with what it reads. -/
structure GridInput where
  call : GridCall
  clock : Clock
  /-- What the base channel's field holds, if a number. -/
  baseChVar : Option Int

/-- The timer alone still runs when the window is gone. -/
def Grid.call (grid : Grid) (input : GridInput) : Effect Grid PyError :=
  if !grid.alive ∧ input.call ≠ .tick then .ok grid
  else
    match input.call with
    | .updateByte idx value source =>
      grid.updateByte input.clock input.baseChVar idx value source
    | .updatePacket data source => grid.updatePacket input.clock input.baseChVar data source
    | .setSource src => .ok { grid with srcVar := src }
    | .select idx => grid.select input.clock input.baseChVar idx
    | .clearHighlights => .ok (grid.clearHighlights input.clock)
    | .tick => .ok (grid.tick input.clock)
    | .close => .ok { grid with alive := false }

/-- The window, which answers what a call raises. -/
def gridMachine : Machine Grid GridInput (Option PyError) :=
  ⟨fun grid input => ((grid.call input).state, (grid.call input).raised)⟩

/-- What a call does to the window without its labels. -/
def MapWindow.gridCall (win : MapWindow) (input : GridInput) : Effect MapWindow PyError :=
  if !win.alive then .ok win
  else
    match input.call with
    | .updateByte idx value source => win.updateByte input.baseChVar idx value source
    | .updatePacket data source => win.updatePacket input.baseChVar data source
    | .setSource src => .ok { win with srcVar := src }
    | .select idx => win.select input.baseChVar idx
    | .clearHighlights | .tick => .ok win
    | .close => .ok { win with alive := false }

def windowMachine : Machine MapWindow GridInput (Option PyError) :=
  ⟨fun win input => ((win.gridCall input).state, (win.gridCall input).raised)⟩

end Gui
