import S4Bridge.Gui.BitPanel
import S4Bridge.Protocol.Proof.Buttons

/-!
# What the bit panel shows, and where the bridge sends

The panel computes the raw address of a byte and of a bit as the fallback of `decode_input` does
(`lblCcByt_eq`, `lblCcBit_eq`), but does not know the entries of `kBitMappings`, whose controllers are
all others than those shown (`mapped_controller_ne`). So what it shows is right for a run exactly if no
bit with an entry flips in it, or the bit view is off (`bitPanel_names_iff`).
-/

namespace Gui

open Protocol Bytes Latest DeltaFilter

/-- The text is that of the channel and the controller of the message. -/
def Shows (text : String) (m : MidiMessage) : Prop :=
  ∃ a v, ccOf m = some (a, v) ∧ text = ccText a.1.toNat a.2.toNat

/-- The panel names the address of a message caused by `c`: with the byte selected, all rows show it
for the byte, or the bit's row shows it for the bit. -/
def Named (base : UInt8) (c : Control) (m : MidiMessage) : Prop :=
  ∀ (win : MapWindow) panel, win.selectedIdx = some c.index →
    win.bitPanel (base.toNat + 1) = some panel →
    match c with
    | .byte _ => ∀ row ∈ panel.bitRows, Shows row.lblCcByt m
    | .bit _ b => ∃ row, panel.bitRows[7 - b.val]? = some row ∧ Shows row.lblCcBit m

/-- The reports agree about every bit that has an entry in `kBitMappings`, where both have it. -/
def SameMapped (r r' : List UInt8) : Prop :=
  ∀ i (b : Fin 8), findBitMapping Tables.shipped i (UInt8.ofNat b) ≠ none →
    i < r.length → i < r'.length → bit (r.getD i 0) b = bit (r'.getD i 0) b

/-! ## The texts -/

theorem toList_ccText (channel controller : Nat) :
    (ccText channel controller).toList = ['c', 'h'] ++
      (Nat.toDigits 10 (channel + 1) ++ ' ' :: ('c' :: 'c' :: Nat.toDigits 10 controller)) := by
  simp [ccText]

theorem space_not_mem_toDigits (n : Nat) : ' ' ∉ Nat.toDigits 10 n := fun hspace =>
  absurd (Nat.isDigit_of_mem_toDigits (by decide) (by decide) hspace) (by decide)

/-- A text names one address. -/
theorem ccText_inj {a b c d : Nat} (h : ccText a b = ccText c d) : a = c ∧ b = d := by
  have hchars := congrArg String.toList h
  rw [toList_ccText, toList_ccText] at hchars
  have hbehind : ' ' ∉ 'c' :: 'c' :: Nat.toDigits 10 b := by
    simpa using space_not_mem_toDigits b
  obtain ⟨hchannel, -, hcontroller⟩ :=
    (List.append_cons_inj_of_notMem (space_not_mem_toDigits (a + 1)) hbehind).1
      (List.append_cancel_left hchars)
  have hsame : Nat.toDigits 10 b = Nat.toDigits 10 d := by simpa using hcontroller
  have hnext := Formatted.toDigits_inj (by decide) (by decide) hchannel
  exact ⟨Nat.succ.inj hnext, Formatted.toDigits_inj (by decide) (by decide) hsame⟩

/-- The panel's arithmetic is that of the fallback. -/
theorem ccText_rawAddress (base : UInt8) (k : Nat) :
    ccText ((base.toNat + k / 128) &&& 0x0F) (k % 128) =
      ccText (rawAddress base k).1.toNat (rawAddress base k).2.toNat := by
  have hand : (base.toNat + k / 128) &&& 0x0F = (base.toNat + k / 128) % 16 :=
    Nat.and_two_pow_sub_one_eq_mod _ 4
  have hchannel : (base.toNat + k / 128) % 16 % 256 = (base.toNat + k / 128) % 16 := by omega
  have hcontroller : k % 128 % 256 = k % 128 := by omega
  rw [hand, rawAddress, UInt8.toNat_ofNat', UInt8.toNat_ofNat', hchannel, hcontroller]

/-! ## The panel -/

variable {win : MapWindow} {base : UInt8} {i : Nat} {panel : BitPanel}

theorem bitPanel_selected (hselected : win.selectedIdx = some i)
    (h : win.bitPanel (base.toNat + 1) = some panel) :
    ∃ val, panel.bitRows = (List.range 8).reverse.map (bitRow base.toNat i val) := by
  rw [MapWindow.bitPanel, hselected, Option.bind_some] at h
  obtain ⟨val, -, rfl⟩ := Option.map_eq_some_iff.1 h
  have hbase : ((base.toNat : Int) + 1 - 1).toNat = base.toNat := by omega
  exact ⟨val, by rw [Gui.bitPanel, hbase]⟩

theorem lblCcByt_eq (hselected : win.selectedIdx = some i)
    (h : win.bitPanel (base.toNat + 1) = some panel) :
    ∀ row ∈ panel.bitRows,
      row.lblCcByt = ccText (rawAddress base i).1.toNat (rawAddress base i).2.toNat := by
  obtain ⟨val, hrows⟩ := bitPanel_selected hselected h
  rw [hrows]
  intro row hrow
  obtain ⟨bit, -, rfl⟩ := List.mem_map.1 hrow
  exact ccText_rawAddress base i

theorem lblCcBit_eq (hselected : win.selectedIdx = some i)
    (h : win.bitPanel (base.toNat + 1) = some panel) (b : Fin 8) :
    ∃ row, panel.bitRows[7 - b.val]? = some row ∧
      row.lblCcBit =
        ccText (rawAddress base (i * 8 + b)).1.toNat (rawAddress base (i * 8 + b)).2.toNat := by
  obtain ⟨val, hrows⟩ := bitPanel_selected hselected h
  have hbit : (List.range 8).reverse[7 - b.val]? = some b.val := by
    revert b
    decide
  refine ⟨bitRow base.toNat i val b, ?_, ccText_rawAddress base (i * 8 + b)⟩
  rw [hrows, List.getElem?_map, hbit, Option.map_some]

/-! ## One message -/

theorem shows_rawCc (k : Nat) (v : UInt8) (text : String) :
    Shows text (rawCc (base &&& 0x0F) k v) ↔
      text = ccText (rawAddress base k).1.toNat (rawAddress base k).2.toNat := by
  simp [Shows, ccOf_rawCc, rawAddress_mask]

/-- The bit of an entry. -/
theorem mapped_entry {entry : BitMapEntry} {b : Fin 8}
    (h : findBitMapping Tables.shipped i (UInt8.ofNat b) = some entry) :
    entry ∈ kBitMappings ∧ entry.byteIndex = i ∧ entry.bitIndex.toNat = b.val := by
  have hkey := List.find?_some h
  rw [Bool.and_eq_true, beq_iff_eq, beq_iff_eq] at hkey
  refine ⟨List.mem_of_find?_eq_some h, hkey.1, ?_⟩
  rw [hkey.2, UInt8.toNat_ofNat']
  omega

/-- The bytes with entries can be selected. -/
theorem mapped_lt {entry : BitMapEntry} {b : Fin 8}
    (h : findBitMapping Tables.shipped i (UInt8.ofNat b) = some entry) : i < maxBytes := by
  obtain ⟨hmem, rfl, -⟩ := mapped_entry h
  exact (by decide : ∀ e ∈ kBitMappings, e.byteIndex < maxBytes) entry hmem

/-- An entry's controller is not the one the panel shows. -/
theorem mapped_controller_ne {entry : BitMapEntry} {b : Fin 8}
    (h : findBitMapping Tables.shipped i (UInt8.ofNat b) = some entry) :
    (entry.cc &&& 0x7F).toNat ≠ (rawAddress base (i * 8 + b)).2.toNat := by
  have hall : ∀ e ∈ kBitMappings,
      (e.cc &&& 0x7F).toNat ≠ (e.byteIndex * 8 + e.bitIndex.toNat) % 128 := by decide
  obtain ⟨hmem, rfl, hbit⟩ := mapped_entry h
  rw [rawAddress, UInt8.toNat_ofNat', Nat.mod_eq_of_lt (by omega), ← hbit]
  exact hall entry hmem

theorem not_shows_mapped {entry : BitMapEntry} {b : Fin 8}
    (h : findBitMapping Tables.shipped i (UInt8.ofNat b) = some entry) (on : Bool) :
    ¬Shows (ccText (rawAddress base (i * 8 + b)).1.toNat (rawAddress base (i * 8 + b)).2.toNat)
      (bitMessage Tables.shipped (base &&& 0x0F) i b on) := by
  rintro ⟨a, v, hcc, htext⟩
  simp only [bitMessage, h, ccOf_makeCc, Option.some.injEq, Prod.mk.injEq] at hcc
  obtain ⟨rfl, -⟩ := hcc
  exact mapped_controller_ne h (ccText_inj htext).2.symm

theorem named_byte (i : Nat) (v : UInt8) : Named base (.byte i) (rawCc (base &&& 0x0F) i v) := by
  intro win panel hselected hpanel row hrow
  rw [shows_rawCc]
  exact lblCcByt_eq hselected hpanel row hrow

/-- A bit is named exactly if it has no entry. -/
theorem named_bit_iff (i : Nat) (b : Fin 8) (on : Bool) :
    Named base (.bit i b) (bitMessage Tables.shipped (base &&& 0x0F) i b on) ↔
      findBitMapping Tables.shipped i (UInt8.ofNat b) = none := by
  constructor
  · intro hnamed
    rw [Option.eq_none_iff_forall_ne_some]
    intro entry hentry
    -- the byte can be selected, and the panel then shows another controller
    let win : MapWindow := { MapWindow.new with selectedIdx := some i }
    have hlt := mapped_lt hentry
    have hpanel : win.bitPanel (base.toNat + 1) =
        some (Gui.bitPanel (base.toNat + 1) i win.data[i]) := by
      rw [MapWindow.bitPanel, Option.bind_some, Vector.getElem?_eq_getElem hlt, Option.map_some]
    obtain ⟨row, hrow, hshows⟩ := hnamed win _ rfl hpanel
    have hselected : win.selectedIdx = some i := rfl
    obtain ⟨row', hrow', htext⟩ := lblCcBit_eq hselected hpanel b
    obtain rfl := Option.some.inj (hrow.symm.trans hrow')
    rw [htext] at hshows
    exact not_shows_mapped hentry on hshows
  · intro hnone win panel hselected hpanel
    obtain ⟨row, hrow, htext⟩ := lblCcBit_eq hselected hpanel b
    refine ⟨row, hrow, ?_⟩
    simp only [bitMessage, hnone]
    rw [shows_rawCc]
    exact htext

/-! ## Runs -/

/-- A bit sends exactly if it flips. -/
theorem caused_bit_eq_nil {p : S4GenericProtocol} (hmode : p.decodeMode.hasBit = true) (i : Nat)
    (b : Fin 8) (r : List UInt8) :
    caused (.bit i b) (decodeMarked Tables.shipped p r).2 = [] ↔
      (i < p.previousReport.length → i < r.length →
        bit (p.previousReport.getD i 0) b = bit (r.getD i 0) b) := by
  by_cases hin : i < p.previousReport.length ∧ i < r.length
  · obtain ⟨hp, hr⟩ := hin
    rw [caused_bit hmode]
    simp [bitSample, hp, hr]
  · have hc : (Control.bit i b).index = i := rfl
    rw [caused_decodeMarked_of_missing hc hin]
    exact iff_of_true rfl fun hp hr => absurd ⟨hp, hr⟩ hin

/-- One report. -/
theorem named_step {p : S4GenericProtocol} (hbase : p.baseChannel = base &&& 0x0F)
    (r : List UInt8) :
    (∀ x ∈ (decodeMarked Tables.shipped p r).2, Named base x.1 x.2) ↔
      (p.decodeMode.hasBit = true → SameMapped p.previousReport r) := by
  constructor
  · intro hnamed hmode i b hentry
    rw [← caused_bit_eq_nil hmode, List.eq_nil_iff_forall_not_mem]
    intro m hm
    obtain ⟨-, on, rfl⟩ := mem_caused_bit hm
    have hbit := hnamed _ (mem_caused.1 hm)
    rw [hbase] at hbit
    exact hentry ((named_bit_iff i b on).1 hbit)
  · rintro hsame ⟨c, m⟩ hm
    have hcaused := mem_caused.2 hm
    cases c with
    | byte i =>
      obtain ⟨-, -, v, rfl⟩ := mem_caused_byte hcaused
      rw [hbase]
      exact named_byte i v
    | bit i b =>
      obtain ⟨hmode, on, rfl⟩ := mem_caused_bit hcaused
      rw [hbase, named_bit_iff]
      by_contra hentry
      have hnil := (caused_bit_eq_nil hmode i b r).2 (hsame hmode i b hentry)
      rw [hnil] at hcaused
      cases hcaused

/-- A run from a given report on. -/
theorem named_run {p : S4GenericProtocol} (hbase : p.baseChannel = base &&& 0x0F)
    (reports : List (List UInt8)) :
    (∀ x ∈ ((marker Tables.shipped).outs p reports).flatten, Named base x.1 x.2) ↔
      (p.decodeMode.hasBit = true → (p.previousReport :: reports).IsChain SameMapped) := by
  induction reports generalizing p with
  | nil => simp
  | cons r rs ih =>
    rw [Machine.outs_cons, List.flatten_cons, List.forall_mem_append, List.isChain_cons_cons,
      imp_and, ← ih (p := { p with previousReport := r }) hbase]
    exact and_congr_left' (named_step hbase r)

/-- **What the bit panel shows is where the bridge sends**, for every base channel, deadzone and run,
exactly if the bit view is off or no bit with an entry in `kBitMappings` flips from one report to the
next. -/
theorem bitPanel_names_iff (base d : UInt8) (mode : InputDecodeMode)
    (reports : List (List UInt8)) :
    let marked := (marker Tables.shipped).outs (.new base d mode) reports
    (decoder Tables.shipped).outs (.new base d mode) reports = marked.map (·.map Prod.snd) ∧
    ((∀ x ∈ marked.flatten, Named base x.1 x.2) ↔
      (mode.hasBit = true → reports.IsChain SameMapped)) := by
  intro marked
  refine ⟨outs_decoder _ reports, ?_⟩
  have hchain : ([] :: reports).IsChain SameMapped ↔ reports.IsChain SameMapped := by
    cases reports with
    | nil => simp
    | cons r rs =>
      have hfirst : SameMapped [] r := fun i b _ hi => absurd hi (Nat.not_lt_zero i)
      rw [List.isChain_cons_cons, and_iff_right hfirst]
  rw [← hchain]
  exact named_run rfl reports

/-- Shift on the left deck is pressed: the controller is 20, and the panel shows 39. -/
theorem not_bitPanel_names_shift :
    ¬∀ x ∈ ((marker Tables.shipped).outs (.new 0 0 .bit)
      [[0, 0, 0, 0, 0], [0, 0, 0, 0, 0x80]]).flatten, Named 0 x.1 x.2 := by
  intro hnamed
  have hmem : (Control.bit 4 7, bitMessage Tables.shipped (0 &&& 0x0F) 4 7 true) ∈
      ((marker Tables.shipped).outs (.new 0 0 .bit)
        [[0, 0, 0, 0, 0], [0, 0, 0, 0, 0x80]]).flatten := by decide +kernel
  exact absurd ((named_bit_iff 4 7 true).1 (hnamed _ hmem)) (by decide)

end Gui
