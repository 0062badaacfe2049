import S4Bridge.Gui.App
import S4Bridge.Gui.Proof.Cells
import S4Bridge.Lib.Lists

/-!
# The byte map's window

The window of the application is the `ByteMapWindow` with a cell selected: updates do the same to the
cells, and may raise where they refresh the bit panel.

* `updatePacket_raised`: when an update raises.
* `updatePacket_window`: what it does otherwise.
-/

namespace Gui

namespace MapWindow

variable (baseChVar : Option Int) (win : MapWindow)

/-- An update of the cell gets through and shows in the bit panel. -/
def Refreshes (idx : Int) (source : Source) : Prop :=
  win.srcVar.accepts source = true ∧ 0 ≤ idx ∧ idx < maxBytes ∧ win.selectedIdx = some idx.toNat

theorem updateByte_spec (idx : Int) (value : Nat) (source : Source) :
    ((updateByte baseChVar win idx value source).raised = none ↔
        (baseChVar = none → ¬ win.Refreshes idx source)) ∧
      (updateByte baseChVar win idx value source).state =
        { win with toByteMapWindow := win.toByteMapWindow.updateByte idx value source } := by
  have hpanel (win : MapWindow) : (updateBitPanel baseChVar win).state = win ∧
      ((updateBitPanel baseChVar win).raised = none ↔ baseChVar ≠ none) := by
    cases baseChVar <;> simp [updateBitPanel]
  obtain ⟨⟨data, srcVar, alive⟩, selectedIdx⟩ := win
  unfold updateByte ByteMapWindow.updateByte Refreshes
  by_cases hin : 0 ≤ idx ∧ idx < maxBytes
  · have hout : ¬ (idx < 0 ∨ idx ≥ maxBytes) := by omega
    by_cases hsel : selectedIdx = some idx.toNat
    · cases srcVar <;> cases source <;>
        simp [SourceFilter.accepts, hin, hout, hsel, hpanel]
    · cases srcVar <;> cases source <;> simp [SourceFilter.accepts, hin, hout, hsel]
  · have hout : idx < 0 ∨ idx ≥ maxBytes := by omega
    have hno : ∀ p : Prop, ¬ (p ∧ 0 ≤ idx ∧ idx < maxBytes ∧ selectedIdx = some idx.toNat) :=
      fun _ h => hin ⟨h.2.1, h.2.2.1⟩
    simp only [if_pos hout]
    split
    · exact ⟨⟨fun _ _ => hno _, fun _ => rfl⟩, rfl⟩
    · split
      · exact ⟨⟨fun _ _ => hno _, fun _ => rfl⟩, rfl⟩
      · exact ⟨⟨fun _ _ => hno _, fun _ => rfl⟩, rfl⟩

/-- The packet changes the cell the bit panel shows. -/
def ChangesSelected (data : List UInt8) (source : Source) : Prop :=
  win.srcVar.accepts source = true ∧ ∃ (i : Nat) (b : UInt8), win.selectedIdx = some i ∧
    (data.take maxBytes)[i]? = some b ∧ win.data[i]? ≠ some b

/-- One turn of `updatePacket`. -/
def putByte (source : Source) : UInt8 × Nat → MapWindow → Effect MapWindow PyError :=
  fun (val, idx) win =>
    if win.data[idx]? ≠ some val then updateByte baseChVar win idx val.toNat source else .ok win

theorem putByte_spec (source : Source) (b : UInt8) {k : Nat} (hk : k < maxBytes) :
    ((putByte baseChVar source (b, k) win).raised = none ↔
        (baseChVar = none → win.srcVar.accepts source = true → win.selectedIdx = some k →
          win.data[k]? = some b)) ∧
      (putByte baseChVar source (b, k) win).state =
        { win with toByteMapWindow :=
          if win.data[k]? ≠ some b then win.toByteMapWindow.updateByte k b.toNat source
          else win.toByteMapWindow } := by
  obtain ⟨hraised, hstate⟩ := updateByte_spec baseChVar win k b.toNat source
  unfold putByte
  by_cases hsame : win.data[k]? = some b
  · simp [hsame]
  · simp only [ne_eq, hsame, not_false_eq_true, if_true]
    refine ⟨hraised.trans ?_, hstate⟩
    have hrefreshes : win.Refreshes k source ↔
        win.srcVar.accepts source = true ∧ win.selectedIdx = some k := by
      have hin : (k : Int) < maxBytes := by exact_mod_cast hk
      simp [Refreshes, hin]
    rw [hrefreshes]
    tauto

/-- A turn leaves the other cells alone. -/
theorem putByte_same (source : Source) (b : UInt8) {k : Nat} (hk : k < maxBytes) :
    (putByte baseChVar source (b, k) win).state.srcVar = win.srcVar ∧
      (putByte baseChVar source (b, k) win).state.selectedIdx = win.selectedIdx ∧
      ∀ i : Nat, i ≠ k → (putByte baseChVar source (b, k) win).state.data[i]? = win.data[i]? := by
  rw [(putByte_spec baseChVar win source b hk).2]
  split
  · exact ⟨updateByte_srcVar _ _ _ _, rfl, fun i hi => getElem?_updateByte_of_ne _ _ _ (by omega)⟩
  · exact ⟨rfl, rfl, fun _ _ => rfl⟩

/-- The loop over the bytes `bytes` at the indices from `k` on. -/
theorem each_putByte (source : Source) (bytes : List UInt8) {k : Nat}
    (hk : k + bytes.length ≤ maxBytes) :
    let x := Effect.each (putByte baseChVar source) (bytes.zipIdx k) win
    (x.raised = none ↔ (baseChVar = none → win.srcVar.accepts source = true →
        ∀ i b, bytes[i]? = some b → win.selectedIdx = some (k + i) →
          win.data[k + i]? = some b)) ∧
      (x.raised = none → x.state = { win with
        toByteMapWindow :=
          (bytes.zipIdx k).foldl
            (fun win x =>
              if win.data[x.2]? ≠ some x.1 then win.updateByte x.2 x.1.toNat source else win)
            win.toByteMapWindow }) := by
  induction bytes generalizing win k with
  | nil => exact ⟨⟨fun _ _ _ i b h => (by cases h), fun _ => rfl⟩, fun _ => rfl⟩
  | cons b bytes ih =>
    rw [List.length_cons] at hk
    have hlt : k < maxBytes := by omega
    obtain ⟨hraised, hstate⟩ := putByte_spec baseChVar win source b hlt
    obtain ⟨hsrc, hsel, hdata⟩ := putByte_same baseChVar win source b hlt
    obtain ⟨hraises, hstates⟩ :=
      ih (putByte baseChVar source (b, k) win).state (k := k + 1) (by omega)
    simp only [List.zipIdx_cons, Effect.each_cons, List.foldl_cons]
    rw [Effect.andThen_raised]
    constructor
    · -- the cells after `k` are as before
      have hcell (i : Nat) : (putByte baseChVar source (b, k) win).state.data[k + (i + 1)]? =
          win.data[k + (i + 1)]? := hdata _ (by omega)
      have hshift (i : Nat) : k + 1 + i = k + (i + 1) := by omega
      rw [hraised, hraises, hsrc, hsel, Lists.forall_getElem?_cons]
      simp only [hshift, hcell, Nat.add_zero]
      constructor
      · exact fun ⟨hfirst, hrest⟩ hbase hacc => ⟨hfirst hbase hacc, hrest hbase hacc⟩
      · exact fun h => ⟨fun hbase hacc => (h hbase hacc).1, fun hbase hacc => (h hbase hacc).2⟩
    · rintro ⟨hfirst, hrest⟩
      rw [Effect.andThen_of_none hfirst, hstates hrest, hstate]

theorem length_take_maxBytes (data : List UInt8) : 0 + (data.take maxBytes).length ≤ maxBytes := by
  rw [Nat.zero_add, List.length_take]
  exact Nat.min_le_left ..

/-- **A packet** that changes the selected cell needs the base channel. -/
theorem updatePacket_raised (data : List UInt8) (source : Source) :
    (updatePacket baseChVar win data source).raised = none ↔
      (baseChVar = none → ¬ win.ChangesSelected data source) := by
  refine (each_putByte baseChVar win source _ (length_take_maxBytes data)).1.trans ?_
  unfold ChangesSelected
  simp only [Nat.zero_add]
  constructor
  · rintro h hbase ⟨hacc, i, b, hsel, hget, hne⟩
    exact hne (h hbase hacc i b hget hsel)
  · intro h hbase hacc i b hget hsel
    by_contra hne
    exact h hbase ⟨hacc, i, b, hsel, hget, hne⟩

theorem updatePacket_window {data : List UInt8} {source : Source}
    (h : (updatePacket baseChVar win data source).raised = none) :
    (updatePacket baseChVar win data source).state =
      { win with toByteMapWindow := win.toByteMapWindow.updatePacket data source } := by
  exact (each_putByte baseChVar win source _ (length_take_maxBytes data)).2 h

/-- The packet makes no difference to the cells. -/
def Shows (data : List UInt8) (source : Source) : Prop :=
  win.srcVar.accepts source = true →
    ∀ (i : Nat) (b : UInt8), (data.take maxBytes)[i]? = some b → win.data[i]? = some b

theorem Shows.not_changesSelected {win : MapWindow} {data : List UInt8} {source : Source}
    (h : win.Shows data source) : ¬ win.ChangesSelected data source := by
  rintro ⟨hacc, i, b, -, hget, hne⟩
  exact hne (h hacc i b hget)

theorem updatePacket_eq_self_iff (data : List UInt8) (source : Source) :
    win.toByteMapWindow.updatePacket data source = win.toByteMapWindow ↔ win.Shows data source := by
  have hcell (i : Nat) (hi : i < maxBytes) :=
    getElem?_updatePacket win.toByteMapWindow data source hi
  constructor
  · intro h hacc i b hget
    have hi : i < maxBytes := by
      by_contra hi
      rw [List.getElem?_take_eq_none (Nat.not_lt.1 hi)] at hget
      cases hget
    rw [List.getElem?_take_of_lt hi] at hget
    have hlt : i < data.length := (List.getElem?_eq_some_iff.1 hget).1
    have hwritten := hcell i hi
    rw [h, if_pos ⟨hacc, hlt⟩, hget] at hwritten
    exact hwritten
  · intro h
    have hdata : (win.toByteMapWindow.updatePacket data source).data = win.data := by
      refine Vector.ext fun i hi => Option.some.inj ?_
      rw [← Vector.getElem?_eq_getElem hi, ← Vector.getElem?_eq_getElem hi, hcell i hi]
      split
      · rename_i hwritten
        have hget : data[i]? = some data[i] := List.getElem?_eq_getElem hwritten.2
        rw [h hwritten.1 i data[i] (by rw [List.getElem?_take_of_lt hi]; exact hget)]
        exact hget
      · rfl
    have hsrc := updatePacket_srcVar win.toByteMapWindow data source
    have halive := updatePacket_alive win.toByteMapWindow data source
    generalize win.toByteMapWindow.updatePacket data source = win' at hdata hsrc halive
    obtain ⟨data', srcVar', alive'⟩ := win'
    obtain ⟨⟨data'', srcVar'', alive''⟩, selectedIdx⟩ := win
    simp only at hdata hsrc halive
    rw [hdata, hsrc, halive]

end MapWindow

end Gui
