import S4Bridge.Gui.ByteMap
import S4Bridge.Protocol.Proof.Step

/-!
# The cells of the byte map

* `getElem?_updateByte`, `getElem?_updatePacket`: what an update does to each cell.
* `handleEvent_rawCc`: the control change of slot `k` writes cell `k`, shifted back by one bit, and
  no other: the two address computations are inverse, for every base channel.
* `deliver_rawCcs`: over a list of such messages each cell is a last-value observer of the
  address of its slot.
-/

namespace Gui

open Protocol Bytes Latest

/-- The filter lets updates from `source` through. -/
def SourceFilter.accepts : SourceFilter → Source → Bool
  | .both, _ | .ccOnly, .cc | .sysexOnly, .sysex => true
  | _, _ => false

/-! ## Updates -/

variable (win : ByteMapWindow)

theorem updateByte_eq (idx : Int) (value : Nat) (source : Source) :
    win.updateByte idx value source =
      if win.srcVar.accepts source = true ∧ 0 ≤ idx ∧ idx < maxBytes then
        { win with data := win.data.setIfInBounds idx.toNat (UInt8.ofNat (value &&& 0xFF)) }
      else win := by
  have hidx : (idx < 0 ∨ idx ≥ maxBytes) ↔ ¬ (0 ≤ idx ∧ idx < maxBytes) := by omega
  unfold ByteMapWindow.updateByte
  by_cases hin : 0 ≤ idx ∧ idx < maxBytes
  · have hout : ¬ (idx < 0 ∨ idx ≥ maxBytes) := fun h => hidx.1 h hin
    cases hs : win.srcVar <;> cases source <;> simp [SourceFilter.accepts, hin, hout]
  · have hout : idx < 0 ∨ idx ≥ maxBytes := hidx.2 hin
    simp [hin, hout]

@[simp] theorem updateByte_srcVar (idx : Int) (value : Nat) (source : Source) :
    (win.updateByte idx value source).srcVar = win.srcVar := by
  rw [updateByte_eq]; split <;> rfl

@[simp] theorem updateByte_alive (idx : Int) (value : Nat) (source : Source) :
    (win.updateByte idx value source).alive = win.alive := by
  rw [updateByte_eq]; split <;> rfl

theorem getElem?_updateByte (idx value : Nat) (source : Source) {i : Nat} (hi : i < maxBytes) :
    (win.updateByte idx value source).data[i]? =
      if win.srcVar.accepts source = true ∧ idx = i then some (UInt8.ofNat (value &&& 0xFF))
      else win.data[i]? := by
  rw [updateByte_eq]
  by_cases ha : win.srcVar.accepts source = true
  · by_cases hidx : idx = i
    · subst hidx
      have hin : (idx : Int) < maxBytes := by exact_mod_cast hi
      simp [ha, hin, hi]
    · by_cases hin : (idx : Int) < maxBytes
      · simp [ha, hin, hidx]
      · simp [ha, hin, hidx]
  · simp [ha]

theorem getElem?_updateByte_of_ne {idx i : Nat} (value : Nat) (source : Source) (h : idx ≠ i) :
    (win.updateByte idx value source).data[i]? = win.data[i]? := by
  rw [updateByte_eq]
  split
  · simp [h]
  · rfl

/-- The fold of `updatePacket` over the bytes `bytes` at the indices from `k` on. -/
theorem foldl_updatePacket (source : Source) (bytes : List UInt8) (k : Nat) :
    let win' := (bytes.zipIdx k).foldl (fun win x =>
      if win.data[x.2]? ≠ some x.1 then win.updateByte x.2 x.1.toNat source else win) win
    win'.srcVar = win.srcVar ∧ win'.alive = win.alive ∧ ∀ i < maxBytes,
      win'.data[i]? =
        if win.srcVar.accepts source = true ∧ k ≤ i ∧ i < k + bytes.length then bytes[i - k]?
        else win.data[i]? := by
  induction bytes generalizing win k with
  | nil => exact ⟨rfl, rfl, fun i _ => by simp [show ¬ (k ≤ i ∧ i < k) by omega]⟩
  | cons b bytes ih =>
    simp only [List.zipIdx_cons, List.foldl_cons]
    -- the turn of byte `b`: its cell holds `b` afterwards if updates get through
    let win1 := if win.data[k]? ≠ some b then win.updateByte k b.toNat source else win
    have h1 : win1.srcVar = win.srcVar ∧ win1.alive = win.alive := by
      simp only [win1]; split <;> simp
    have hcell : ∀ i < maxBytes, win1.data[i]? =
        if win.srcVar.accepts source = true ∧ k = i then some b else win.data[i]? := by
      intro i hi
      simp only [win1]
      split
      · rw [getElem?_updateByte win k b.toNat source hi, ofNat_and_FF]
      · rename_i hsame
        split
        · rename_i hk
          rw [← hk.2]
          exact not_not.1 hsame
        · rfl
    obtain ⟨hs, ha, hd⟩ := ih win1 (k + 1)
    refine ⟨hs.trans h1.1, ha.trans h1.2, fun i hi => ?_⟩
    rw [hd i hi, h1.1, hcell i hi]
    by_cases hacc : win.srcVar.accepts source = true
    · rcases Nat.lt_trichotomy i k with hik | rfl | hik
      · rw [if_neg fun h => Nat.not_lt_of_lt hik h.2.1, if_neg fun h => Nat.ne_of_gt hik h.2,
          if_neg fun h => Nat.not_le_of_lt hik h.2.1]
      · simp [hacc]
      · obtain ⟨j, rfl⟩ : ∃ j, i = k + 1 + j := ⟨i - (k + 1), by omega⟩
        have e1 : k + 1 + j - k = j + 1 := by omega
        have e2 : k + 1 + j - (k + 1) = j := by omega
        have e3 : k + 1 + j < k + (bytes.length + 1) ↔ k + 1 + j < k + 1 + bytes.length := by omega
        simp [hacc, e1, e2, e3, show k ≤ k + 1 + j by omega, show k ≠ k + 1 + j by omega]
    · simp [hacc]

@[simp] theorem updatePacket_srcVar (bytes : List UInt8) (source : Source) :
    (win.updatePacket bytes source).srcVar = win.srcVar :=
  (foldl_updatePacket win source (bytes.take maxBytes) 0).1

@[simp] theorem updatePacket_alive (bytes : List UInt8) (source : Source) :
    (win.updatePacket bytes source).alive = win.alive :=
  (foldl_updatePacket win source (bytes.take maxBytes) 0).2.1

/-- A packet that gets through overwrites the cells it has bytes for. -/
theorem getElem?_updatePacket (bytes : List UInt8) (source : Source) {i : Nat} (hi : i < maxBytes) :
    (win.updatePacket bytes source).data[i]? =
      if win.srcVar.accepts source = true ∧ i < bytes.length then bytes[i]? else win.data[i]? := by
  have h := (foldl_updatePacket win source (bytes.take maxBytes) 0).2.2 i hi
  have hlen : i < 0 + (bytes.take maxBytes).length ↔ i < bytes.length := by
    rw [List.length_take]; omega
  simp only [hlen, List.getElem?_take_of_lt hi, Nat.zero_le, true_and, Nat.sub_zero] at h
  exact h

/-! ## Delivery -/

/-- The GUI handling the messages with bytes `ms`. -/
def deliver (mido : Mido) (app : ByteMapView) (ms : List (List UInt8)) : Except PyError ByteMapView :=
  handleEvents app (ms.map mido.decode)

@[simp] theorem deliver_nil (mido : Mido) (app : ByteMapView) : deliver mido app [] = .ok app := rfl

theorem deliver_cons (mido : Mido) (app : ByteMapView) (m : List UInt8) (ms : List (List UInt8)) :
    deliver mido app (m :: ms) =
      handleEvent app (mido.decode m) >>= fun app' => deliver mido app' ms := rfl

theorem deliver_append (mido : Mido) {app app' : ByteMapView} {ms : List (List UInt8)}
    (h : deliver mido app ms = .ok app') (ms' : List (List UInt8)) :
    deliver mido app (ms ++ ms') = deliver mido app' ms' := by
  induction ms generalizing app with
  | nil => rw [deliver_nil, Except.ok.injEq] at h; rw [h, List.nil_append]
  | cons m ms ih =>
    rw [deliver_cons] at h
    rw [List.cons_append, deliver_cons]
    cases hm : handleEvent app (mido.decode m) with
    | error e => rw [hm] at h; cases h
    | ok app1 => rw [hm] at h; exact ih h

/-! ## Control changes -/

variable {win}

/-- mido reads a control change back. -/
theorem decode_makeCc (mido : Mido) (channel controller value : UInt8) :
    mido.decode (makeCc channel controller value).bytes =
      .controlChange ⟨(channel &&& 0x0F).toNat, UInt8.lt_iff_toNat_lt.1 (and_0F_lt channel)⟩
        ⟨(controller &&& 0x7F).toNat, UInt8.lt_iff_toNat_lt.1 (and_7F_lt controller)⟩
        ⟨(value &&& 0x7F).toNat, UInt8.lt_iff_toNat_lt.1 (and_7F_lt value)⟩ := by
  rw [← mido.decode_cc]
  simp [makeCc, dataByte]

theorem decode_rawCc (mido : Mido) (base : UInt8) (k : Nat) {v : UInt8} (hv : v < 128) :
    mido.decode (rawCc base k v).bytes =
      .controlChange ⟨(base.toNat + k / 128) % 16, Nat.mod_lt _ (by decide)⟩
        ⟨k % 128, Nat.mod_lt _ (by decide)⟩ ⟨v.toNat, UInt8.lt_iff_toNat_lt.1 hv⟩ := by
  obtain ⟨h1, h2⟩ := rawAddress_lt base k
  have hc : (base.toNat + k / 128) % 16 % 256 = (base.toNat + k / 128) % 16 := by omega
  have hn : k % 128 % 256 = k % 128 := by omega
  simp only [rawCc, decode_makeCc, and_0F_of_lt _ h1, and_7F_of_lt _ h2, and_7F_of_lt _ hv]
  simp only [rawAddress, UInt8.toNat_ofNat', hc, hn]

/-- The value the byte map rebuilds from a 7-bit value. -/
theorem reconstructed_eq {v : UInt8} (hv : v < 128) :
    UInt8.ofNat (((v.toNat &&& 0x7F) <<< 1) &&& 0xFF) = v <<< 1 := by
  have hlow : v.toNat &&& 0x7F = v.toNat := by
    have h := congrArg UInt8.toNat (and_7F_of_lt v hv)
    rwa [UInt8.toNat_and] at h
  apply UInt8.toNat_inj.1
  rw [hlow, UInt8.toNat_ofNat', UInt8.toNat_shiftLeft,
    show (v.toNat <<< 1) &&& 0xFF = v.toNat <<< 1 % 256 from Nat.and_two_pow_sub_one_eq_mod _ 8,
    Nat.mod_mod]
  rfl

/-- **The addresses agree**: the control change of slot `k` updates cell `k`. -/
theorem handleEvent_rawCc (mido : Mido) {base : UInt8} (hb : base < 16) {k : Nat} (hk : k < 2048)
    {v : UInt8} (hv : v < 128) (halive : win.alive = true) :
    handleEvent ⟨some win, base.toNat + 1⟩ (mido.decode (rawCc base k v).bytes) =
      .ok ⟨some (win.updateByte k ((v.toNat &&& 0x7F) <<< 1) .cc), base.toNat + 1⟩ := by
  have hb' : base.toNat < 16 := UInt8.lt_iff_toNat_lt.1 hb
  have hoff : ((((base.toNat + k / 128) % 16 : Nat) : Int) + 1 - (base.toNat + 1)) % 16 * 128 +
      ((k % 128 : Nat) : Int) = k := by omega
  rw [decode_rawCc mido base k hv]
  simp only [handleEvent, parseMsg, if_true, routeCcToByteMap, halive, Bool.not_true,
    Bool.false_eq_true, if_false, hoff]

/-- A closed window is not updated. -/
theorem handleEvent_closed (halive : win.alive = false) (base : Int) (msg : Message) :
    handleEvent ⟨some win, base⟩ msg = .ok ⟨some win, base⟩ := by
  cases msg <;> simp [handleEvent, parseMsg, routeCcToByteMap, routeSysexToByteMap, halive]

/-- What a control change at the address of slot `i` writes into cell `i`. -/
def cellWrite (base : UInt8) (i : Nat) (m : MidiMessage) : Option UInt8 :=
  (ccAt (rawAddress base i) m).map fun (v : UInt8) => v <<< 1

theorem cellWrite_rawCc {base : UInt8} {k i : Nat} (hk : k < 2048) (hi : i < maxBytes) {v : UInt8}
    (hv : v < 128) :
    cellWrite base i (rawCc base k v) = if k = i then some (v <<< 1) else none := by
  have haddr : rawAddress base k = rawAddress base i ↔ k = i :=
    ⟨rawAddress_inj hk (Nat.lt_trans hi (by decide)), fun h => h ▸ rfl⟩
  simp only [cellWrite, ccAt, ccOf_rawCc, Option.bind_some, and_7F_of_lt v hv, haddr]
  split <;> rfl

/-- **Cells observe their slots**: over control changes of slots each cell keeps the last value at
its address. -/
theorem deliver_rawCcs (mido : Mido) {base : UInt8} (hb : base < 16) {ms : List MidiMessage}
    (hms : ∀ m ∈ ms, ∃ k < 2048, ∃ v < 128, m = rawCc base k v) (halive : win.alive = true)
    (hcc : win.srcVar.accepts .cc = true) :
    ∃ win', deliver mido ⟨some win, base.toNat + 1⟩ (ms.map (·.bytes)) =
        .ok ⟨some win', base.toNat + 1⟩ ∧
      win'.srcVar = win.srcVar ∧ win'.alive = true ∧
      ∀ i < maxBytes, win'.data[i]? = (win.data[i]?).map (latest (cellWrite base i) · ms) := by
  induction ms generalizing win with
  | nil => exact ⟨win, rfl, rfl, halive, fun i _ => by simp⟩
  | cons m ms ih =>
    obtain ⟨k, hk, v, hv, rfl⟩ := hms m (.head _)
    let win1 := win.updateByte k ((v.toNat &&& 0x7F) <<< 1) .cc
    have hs1 : win1.srcVar = win.srcVar := updateByte_srcVar win _ _ _
    have ha1 : win1.alive = true := (updateByte_alive win _ _ _).trans halive
    obtain ⟨win', hok, hs, ha, hd⟩ :=
      ih (fun m' hm' => hms m' (.tail _ hm')) ha1 (hs1 ▸ hcc)
    refine ⟨win', ?_, hs.trans hs1, ha, fun i hi => ?_⟩
    · rw [List.map_cons, deliver_cons, handleEvent_rawCc mido hb hk hv halive]
      exact hok
    · have hold : win.data[i]? = some win.data[i] := Vector.getElem?_eq_getElem hi
      rw [hd i hi, getElem?_updateByte win k _ _ hi, reconstructed_eq hv, hold]
      simp only [hcc, true_and, Option.map_some, latest_cons, cellWrite_rawCc hk hi hv]
      split <;> rfl

/-- Without the filter's consent control changes do nothing. -/
theorem deliver_ccs_rejected (mido : Mido) {ms : List (List UInt8)}
    (hms : ∀ m ∈ ms, ∃ channel controller value, m = (makeCc channel controller value).bytes)
    (hcc : win.srcVar.accepts .cc = false) (base : Int) :
    deliver mido ⟨some win, base⟩ ms = .ok ⟨some win, base⟩ := by
  have hsame : ∀ idx value, win.updateByte idx value .cc = win := fun idx value => by
    rw [updateByte_eq]
    exact if_neg fun h => Bool.false_ne_true (hcc.symm.trans h.1)
  induction ms with
  | nil => rfl
  | cons m ms ih =>
    obtain ⟨channel, controller, value, rfl⟩ := hms m (.head _)
    rw [deliver_cons, decode_makeCc]
    cases halive : win.alive with
    | true =>
      simp only [handleEvent, parseMsg, if_true, routeCcToByteMap, halive, hsame]
      exact ih fun m' hm' => hms m' (.tail _ hm')
    | false =>
      rw [handleEvent_closed halive]
      exact ih fun m' hm' => hms m' (.tail _ hm')

end Gui
