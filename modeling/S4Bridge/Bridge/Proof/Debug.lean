import S4Bridge.Bridge.Debug
import S4Bridge.Bridge.Proof.Undisturbed
import S4Bridge.Lib.Codes

/-!
# What the debug output tells

* `printInputDeltas_text`: the text printed for two packets is a line for each byte that changed
  (`deltas`), or in the button mode for some of them (`shown`); the lines can be read back
  (`deltaCode`).
* `transcript_determines`: what was printed since a packet determines the packet it comes to.
* `lines_explain`: the control changes of an iteration are those of the lines printed in it.
* `buttons_complete_iff`: the button mode prints a line for each message exactly if at most two bytes
  changed, each in one bit.
-/

namespace Bridge

open Protocol Formatted Bytes

/-! ## Lines -/

/-- A changed byte. -/
structure Delta where
  index : Nat
  prev : UInt8
  cur : UInt8
  deriving DecidableEq, Repr

def deltaAt (previous current : List UInt8) (i : Nat) : Delta :=
  ⟨i, previous.getD i 0, current.getD i 0⟩

/-- The bytes that changed, in order. -/
def deltas (previous current : List UInt8) : List Delta :=
  ((List.range (min previous.length current.length)).map (deltaAt previous current)).filter
    fun d => decide (d.prev ≠ d.cur)

/-- The changes the mode prints. -/
def shown (buttonsOnly : Bool) (ds : List Delta) : List Delta :=
  if buttonsOnly then
    if ds.length > 2 then [] else ds.filter fun d => decide (popcount (d.prev ^^^ d.cur) = 1)
  else ds

/-- A bit of a change with its new value, if it flipped. -/
def Delta.flip (d : Delta) (bit : Fin 8) : Option (Fin 8 × Bool) :=
  if ((d.prev ^^^ d.cur) >>> UInt8.ofNat bit) &&& 0x01 = 0 then none
  else some (bit, decide ((d.cur >>> UInt8.ofNat bit) &&& 0x01 ≠ 0))

/-- The bits that flipped, in order. -/
def Delta.flips (d : Delta) : List (Fin 8 × Bool) := (List.finRange 8).filterMap d.flip

def flipText (flip : Fin 8 × Bool) : List Char :=
  'b' :: Nat.toDigits 10 flip.1 ++ ['=', if flip.2 then '1' else '0']

def flipsText : Bool → List (Fin 8 × Bool) → List Char
  | _, [] => []
  | first, flip :: rest =>
    (if !first then [','] else []) ++ flipText flip ++ flipsText false rest

/-- The 7-bit values, up to the bits. -/
def Delta.values (d : Delta) : List Char :=
  " v7=".toList ++ Nat.toDigits 10 ((d.prev >>> 1) &&& 0x7F).toNat ++ "->".toList ++
    Nat.toDigits 10 ((d.cur >>> 1) &&& 0x7F).toNat ++ " bits=".toList

/-- What a line says besides the byte and its two values, which determine it. -/
def Delta.details (d : Delta) : List Char := d.values ++ (flipsText true d.flips ++ ['\n'])

def Delta.fields (d : Delta) : Nat × UInt8 × UInt8 := (d.index, d.prev, d.cur)

theorem fields_injective : Function.Injective Delta.fields := by
  rintro ⟨i, p, c⟩ ⟨i', p', c'⟩ h
  simp only [Delta.fields, Prod.mk.injEq] at h
  obtain ⟨rfl, rfl, rfl⟩ := h
  rfl

/-- The byte and its two values. -/
def fieldsCode : Code (Nat × UInt8 × UInt8) :=
  .seq .decimal
    (.lit " prev=0x".toList (.seq .hex2 (.lit " cur=0x".toList .hex2) fun _ _ _ => trivial))
    fun _ _ _ => Code.noDigit_cons (by decide) _

/-- The lines, and how they are read back. -/
def deltaCode (buttonsOnly : Bool) : Code Delta :=
  .lit ((if buttonsOnly then "[btn] " else "[raw] ").toList ++ "byte=".toList)
    ((fieldsCode.map Delta.fields fields_injective).tail Delta.details fun _ _ => trivial)

theorem text_deltaCode (buttonsOnly : Bool) (d : Delta) : (deltaCode buttonsOnly).text d =
    (if buttonsOnly then "[btn] " else "[raw] ").toList ++ "byte=".toList ++
      (fieldsCode.text d.fields ++ d.details) := rfl

/-! ## Printing -/

theorem printBits_text (d : Delta) {cout : Stream} (h : cout.Plain) (first : Bool)
    (bits : List (Fin 8)) :
    (printBits (d.prev ^^^ d.cur) d.cur cout first bits).Plain ∧
    (printBits (d.prev ^^^ d.cur) d.cur cout first bits).text =
      cout.text ++ flipsText first (bits.filterMap d.flip) := by
  induction bits generalizing cout first with
  | nil => exact ⟨h, by simp [printBits, flipsText]⟩
  | cons bit rest ih =>
    rw [printBits]
    by_cases hbit : ((d.prev ^^^ d.cur) >>> UInt8.ofNat bit) &&& 0x01 = 0
    · have hflip : d.flip bit = none := if_pos hbit
      rw [if_pos hbit, List.filterMap_cons_none hflip]
      exact ih h first
    · have hflip : d.flip bit =
          some (bit, decide ((d.cur >>> UInt8.ofNat bit) &&& 0x01 ≠ 0)) := if_neg hbit
      rw [if_neg hbit, List.filterMap_cons_some hflip]
      obtain ⟨hbase, hwidth⟩ := h
      have hcomma : (if !first then cout.putChar ',' else cout).Plain ∧
          (if !first then cout.putChar ',' else cout).text =
            cout.text ++ (if !first then [','] else []) := by
        cases first with
        | true => exact ⟨⟨hbase, hwidth⟩, by simp⟩
        | false => exact ⟨⟨hbase, rfl⟩, by simp [hwidth]⟩
      simp only
      generalize (if !first then cout.putChar ',' else cout) = cout' at hcomma
      obtain ⟨⟨hbase', hwidth'⟩, htext'⟩ := hcomma
      obtain ⟨hplain, htext⟩ := @ih ((((cout'.putChar 'b').putNat bit).putChar '=').putChar
        (if (d.cur >>> UInt8.ofNat bit) &&& 0x01 ≠ 0 then '1' else '0')) ⟨hbase', rfl⟩ false
      refine ⟨hplain, ?_⟩
      rw [htext, flipsText, flipText]
      simp [Stream.putChar, Stream.putNat, hwidth', htext', hbase']

/-- The mode prints no line for the byte. -/
def Skipped (buttonsOnly : Bool) (d : Delta) : Prop :=
  d.prev ^^^ d.cur = 0 ∨ (buttonsOnly && decide (popcount (d.prev ^^^ d.cur) ≠ 1)) = true

instance (buttonsOnly : Bool) (d : Delta) : Decidable (Skipped buttonsOnly d) :=
  inferInstanceAs (Decidable (_ ∨ _))

theorem printDelta_skipped {buttonsOnly : Bool} {d : Delta} (h : Skipped buttonsOnly d)
    (cout : Stream) : printDelta buttonsOnly cout d.index d.prev d.cur = cout := by
  unfold printDelta
  rcases h with h | h
  · exact if_pos h
  · simp only [if_pos h, ite_self]

/-- A line up to its bits. -/
def lineStart (buttonsOnly : Bool) (cout : Stream) (d : Delta) : Stream :=
  let cout := cout.putText (if buttonsOnly then "[btn] " else "[raw] ")
  let cout := (cout.putText "byte=").putNat d.index
  let cout := (((cout.putText " prev=0x").hex.setw 2).setfill '0').putNat d.prev.toNat
  let cout := (((cout.putText " cur=0x").setw 2).putNat d.cur.toNat).dec
  let cout := (cout.putText " v7=").putNat ((d.prev >>> 1) &&& 0x7F).toNat
  let cout := (cout.putText "->").putNat ((d.cur >>> 1) &&& 0x7F).toNat
  cout.putText " bits="

theorem lineStart_text (buttonsOnly : Bool) {cout : Stream} (h : cout.Plain) (d : Delta) :
    (lineStart buttonsOnly cout d).Plain ∧
    (lineStart buttonsOnly cout d).text = cout.text ++
      ((if buttonsOnly then "[btn] " else "[raw] ").toList ++ "byte=".toList ++
        (fieldsCode.text d.fields ++ d.values)) := by
  obtain ⟨hbase, hwidth⟩ := h
  obtain ⟨text, base, fill, width⟩ := cout
  obtain rfl : base = 10 := hbase
  obtain rfl : width = 0 := hwidth
  refine ⟨⟨rfl, rfl⟩, ?_⟩
  simp [lineStart, Stream.putText, Stream.putNat, Stream.put, Stream.hex, Stream.setw,
    Stream.setfill, Stream.dec, List.leftpad, fieldsCode, Code.seq, Code.lit, Code.decimal,
    Code.number, Code.hex2, Code.fixed, Code.hexDigits, Delta.fields, Delta.values]

theorem printDelta_line {buttonsOnly : Bool} {d : Delta} (h : ¬ Skipped buttonsOnly d)
    {cout : Stream} (hcout : cout.Plain) :
    (printDelta buttonsOnly cout d.index d.prev d.cur).Plain ∧
    (printDelta buttonsOnly cout d.index d.prev d.cur).text =
      cout.text ++ (deltaCode buttonsOnly).text d := by
  have hprint : printDelta buttonsOnly cout d.index d.prev d.cur =
      (printBits (d.prev ^^^ d.cur) d.cur (lineStart buttonsOnly cout d) true
        (List.finRange 8)).endl := by
    have hdiff : ¬ d.prev ^^^ d.cur = 0 := fun hzero => h (.inl hzero)
    have hmode : ¬ (buttonsOnly && decide (popcount (d.prev ^^^ d.cur) ≠ 1)) = true :=
      fun hskip => h (.inr hskip)
    unfold printDelta
    simp only [if_neg hdiff, if_neg hmode]
    rfl
  obtain ⟨hstart, hstartText⟩ := lineStart_text buttonsOnly hcout d
  obtain ⟨hbits, hbitsText⟩ := printBits_text d hstart true (List.finRange 8)
  rw [hprint]
  refine ⟨hbits.endl, ?_⟩
  have hflips : (List.finRange 8).filterMap d.flip = d.flips := rfl
  rw [Stream.text_endl, hbitsText, hstartText, text_deltaCode, Delta.details, hflips]
  simp only [List.append_assoc]

theorem printDeltas_text (buttonsOnly : Bool) (ds : List Delta) {cout : Stream} (h : cout.Plain) :
    (ds.foldl (fun cout d => printDelta buttonsOnly cout d.index d.prev d.cur) cout).Plain ∧
    (ds.foldl (fun cout d => printDelta buttonsOnly cout d.index d.prev d.cur) cout).text =
      cout.text ++ (ds.filter fun d => ¬ Skipped buttonsOnly d).flatMap
        (deltaCode buttonsOnly).text := by
  have hone (d : Delta) : Stream.Writes (printDelta buttonsOnly · d.index d.prev d.cur)
      (if decide (¬ Skipped buttonsOnly d) then (deltaCode buttonsOnly).text d else []) := by
    intro cout hcout
    beta_reduce
    by_cases hskip : Skipped buttonsOnly d
    · rw [if_neg (by simpa using hskip), List.append_nil, printDelta_skipped hskip]
      exact ⟨hcout, rfl⟩
    · rw [if_pos (by simpa using hskip)]
      exact printDelta_line hskip hcout
  obtain ⟨hplain, htext⟩ := Stream.Writes.foldl hone ds cout h
  refine ⟨hplain, htext.trans ?_⟩
  rw [Lists.filter_flatMap]

/-- The bytes a line is printed for. -/
theorem filter_skipped (buttonsOnly : Bool) (ds : List Delta) :
    (ds.filter fun d => ¬ Skipped buttonsOnly d) =
      (ds.filter fun d => decide (d.prev ≠ d.cur)).filter fun d =>
        !buttonsOnly || decide (popcount (d.prev ^^^ d.cur) = 1) := by
  rw [List.filter_filter]
  refine List.filter_congr fun d _ => ?_
  unfold Skipped
  cases buttonsOnly <;> simp [Bool.and_comm]

/-- **What is printed for two packets**: a line for each change that is shown. -/
theorem printInputDeltas_text {cout : Stream} (h : cout.Plain) (previous current : List UInt8)
    (buttonsOnly : Bool) :
    (printInputDeltas cout previous current buttonsOnly).Plain ∧
    (printInputDeltas cout previous current buttonsOnly).text = cout.text ++
      (shown buttonsOnly (deltas previous current)).flatMap (deltaCode buttonsOnly).text := by
  have hcount : ((List.range (min previous.length current.length)).countP fun i =>
      decide (previous.getD i 0 ≠ current.getD i 0)) = (deltas previous current).length := by
    rw [deltas, ← List.countP_eq_length_filter, List.countP_map]
    rfl
  unfold printInputDeltas
  simp only [hcount]
  by_cases hmany : buttonsOnly = true ∧ (deltas previous current).length > 2
  · obtain ⟨rfl, hlength⟩ := hmany
    rw [if_pos (by simpa using hlength), shown, if_pos rfl, if_pos hlength]
    exact ⟨h, by simp⟩
  · have hshown : shown buttonsOnly (deltas previous current) =
        ((List.range (min previous.length current.length)).map (deltaAt previous current)).filter
          fun d => ¬ Skipped buttonsOnly d := by
      rw [filter_skipped, shown, ← deltas]
      cases buttonsOnly with
      | false => simp
      | true =>
        rw [if_pos rfl, if_neg fun hlength => hmany ⟨rfl, hlength⟩]
        simp
    have hfold := printDeltas_text buttonsOnly
      ((List.range (min previous.length current.length)).map (deltaAt previous current)) h
    rw [List.foldl_map, ← hshown] at hfold
    rw [if_neg (by simpa using hmany)]
    exact hfold

/-! ## Transcripts -/

def Delta.apply (bytes : List UInt8) (d : Delta) : List UInt8 := bytes.set d.index d.cur

theorem length_apply (ds : List Delta) (bytes : List UInt8) :
    (ds.foldl Delta.apply bytes).length = bytes.length := by
  induction ds generalizing bytes with
  | nil => rfl
  | cons d ds ih => rw [List.foldl_cons, ih, Delta.apply, List.length_set]

/-- The changes among the first `k` bytes give the first `k` bytes. -/
theorem apply_first {previous current : List UInt8} (hlength : current.length = previous.length)
    {k : Nat} (hk : k ≤ previous.length) :
    (((List.range k).map (deltaAt previous current)).filter
      fun d => decide (d.prev ≠ d.cur)).foldl Delta.apply previous =
      current.take k ++ previous.drop k := by
  induction k with
  | zero => simp
  | succ k ih =>
    have hlt : k < current.length := by omega
    have hdelta : deltaAt previous current k = ⟨k, previous[k], current[k]⟩ := by
      simp [deltaAt, List.getD_eq_getElem?_getD, List.getElem?_eq_getElem hk, hlt]
    have hdrop : previous.drop k = previous[k] :: previous.drop (k + 1) :=
      List.drop_eq_getElem_cons hk
    have htake : current.take (k + 1) = current.take k ++ [current[k]] :=
      List.take_succ_eq_append_getElem hlt
    rw [List.range_succ, List.map_append, List.filter_append, List.foldl_append, ih (by omega),
      List.map_cons, List.map_nil, hdelta, htake, hdrop, List.append_assoc]
    by_cases hsame : previous[k] = current[k]
    · rw [List.filter_cons_of_neg (by simpa using hsame), hsame]
      rfl
    · rw [List.filter_cons_of_pos (by simpa using hsame)]
      have hset : ∀ x y : UInt8, (current.take k ++ x :: previous.drop (k + 1)).set k y =
          current.take k ++ y :: previous.drop (k + 1) := by
        intro x y
        have hprefix : (current.take k).length = k := by simp; omega
        rw [List.set_append_right _ _ (Nat.le_of_eq hprefix), hprefix, Nat.sub_self]
        rfl
      exact hset _ _

/-- The changes made to the one packet give the other. -/
theorem apply_deltas {previous current : List UInt8} (hlength : current.length = previous.length) :
    (deltas previous current).foldl Delta.apply previous = current := by
  rw [deltas, hlength, Nat.min_self, apply_first hlength (Nat.le_refl _), ← hlength,
    List.take_length, hlength, List.drop_length, List.append_nil]

section
variable {debug : DebugOptions}

theorem debugPart_packet {it : Iteration} (h : it.packet ≠ []) (s : DebugState) :
    debugPart debug s it =
      if debug.inputDebug then
        ⟨it.packet, if s.previousDebugPacket.isEmpty then s.cout else
          printInputDeltas s.cout s.previousDebugPacket it.packet debug.inputDebugButtonsOnly⟩
      else s := by
  unfold Iteration.packet at h ⊢
  unfold debugPart
  cases hread : it.read with
  | packet bytes =>
    rw [hread] at h
    have hne : bytes.isEmpty = false := by simpa using h
    simp only [hne, Bool.false_eq_true, if_false]
    cases s.previousDebugPacket.isEmpty <;> rfl
  | disconnected | threw what => rw [hread] at h; exact absurd rfl h

theorem debugPart_quiet {it : Iteration} (h : it.packet = []) (hread : it.read ≠ .disconnected)
    (s : DebugState) : debugPart debug s it = s := by
  unfold Iteration.packet at h
  unfold debugPart
  cases hcase : it.read with
  | packet bytes =>
    rw [hcase] at h
    simp [show bytes = [] from h]
  | disconnected => exact absurd hcase hread
  | threw what => rfl

/-- `cout` is left plain. -/
theorem debugPart_plain {s : DebugState} (h : s.cout.Plain) (it : Iteration) :
    (debugPart debug s it).cout.Plain := by
  by_cases hpacket : it.packet = []
  · by_cases hread : it.read = .disconnected
    · unfold debugPart
      rw [hread]
      cases it.connected <;> exact h
    · rw [debugPart_quiet hpacket hread]
      exact h
  · rw [debugPart_packet hpacket]
    split
    · show Stream.Plain (if _ then _ else _)
      split
      · exact h
      · exact (printInputDeltas_text h _ _ _).1
    · exact h

theorem run_plain (T : Tables) (options : AppOptions) (its : List Iteration) {s : DebugRun}
    (h : s.debug.cout.Plain) :
    ((debugBridge T options debug).final s its).debug.cout.Plain := by
  refine ((debugBridge T options debug).invariant (I := fun s => s.debug.cout.Plain)
    (P := fun _ => True) its (fun s it _ hs => ⟨?_, trivial⟩) h).1
  show Stream.Plain (DebugState.cout (if _ then _ else _))
  split
  · exact hs
  · exact debugPart_plain hs it

/-- An iteration in a session with packets of `n` bytes: the device stays. -/
structure InSession (n : Nat) (it : Iteration) : Prop where
  stays : it.read ≠ .disconnected
  length : it.packet = [] ∨ it.packet.length = n

theorem inSession_ok {n : Nat} {packet : List UInt8} (h : packet = [] ∨ packet.length = n) :
    InSession n (.ok packet) :=
  ⟨fun hread => (by cases hread), h⟩

/-- **A session in the debug output**: its lines are changes that lead from the packet it begins with
to the last one. -/
theorem session_lines (T : Tables) (options : AppOptions) (hdebug : debug = ⟨true, false⟩)
    {s : DebugRun} (hplain : s.debug.cout.Plain) (hne : s.debug.previousDebugPacket ≠ [])
    (its : List Iteration)
    (hits : ∀ it ∈ its, InSession s.debug.previousDebugPacket.length it) :
    ∃ ds : List Delta,
      ((debugBridge T options debug).final s its).debug.cout.text =
        s.debug.cout.text ++ ds.flatMap (deltaCode false).text ∧
      ((debugBridge T options debug).final s its).debug.previousDebugPacket =
        ds.foldl Delta.apply s.debug.previousDebugPacket := by
  induction its generalizing s with
  | nil => exact ⟨[], by simp, rfl⟩
  | cons it its ih =>
    obtain ⟨hstays, hlength⟩ := hits it (.head _)
    rw [Machine.final_cons]
    generalize hnext : ((debugBridge T options debug).step s it).1 = next
    have hpart : next.debug = if s.loop.ending.isSome then s.debug else debugPart debug s.debug it := by
      rw [← hnext]
      rfl
    -- what the iteration prints leads to its packet
    have hstep : next.debug.cout.Plain ∧ ∃ ds : List Delta,
        next.debug.cout.text = s.debug.cout.text ++ ds.flatMap (deltaCode false).text ∧
        next.debug.previousDebugPacket = ds.foldl Delta.apply s.debug.previousDebugPacket := by
      by_cases hend : s.loop.ending.isSome = true
      · rw [hpart, if_pos hend]
        exact ⟨hplain, [], by simp, rfl⟩
      · rw [hpart, if_neg hend]
        rcases hlength with hquiet | hlength
        · rw [debugPart_quiet hquiet hstays]
          exact ⟨hplain, [], by simp, rfl⟩
        · have hpacket : it.packet ≠ [] := by
            intro hnil
            rw [hnil] at hlength
            exact hne (List.eq_nil_of_length_eq_zero hlength.symm)
          have hstarted : s.debug.previousDebugPacket.isEmpty = false := by simpa using hne
          obtain ⟨hprinted, htext⟩ :=
            printInputDeltas_text hplain s.debug.previousDebugPacket it.packet false
          rw [debugPart_packet hpacket, hdebug]
          simp only [if_true, hstarted, Bool.false_eq_true, if_false]
          exact ⟨hprinted, _, htext, (apply_deltas hlength).symm⟩
    obtain ⟨hplain', ds, htext, hprev⟩ := hstep
    have hlen : next.debug.previousDebugPacket.length = s.debug.previousDebugPacket.length := by
      rw [hprev, length_apply]
    have hne' : next.debug.previousDebugPacket ≠ [] := by
      intro hnil
      rw [hnil] at hlen
      exact hne (List.eq_nil_of_length_eq_zero hlen.symm)
    obtain ⟨ds', htext', hprev'⟩ := ih hplain' hne' fun it' hit' => hlen ▸ hits it' (.tail _ hit')
    refine ⟨ds ++ ds', ?_, ?_⟩
    · rw [htext', htext, List.flatMap_append, List.append_assoc]
    · rw [hprev', hprev, List.foldl_append]

end

/-- The lines of a text. -/
theorem lines_inj (buttonsOnly : Bool) {ds es : List Delta}
    (h : ds.flatMap (deltaCode buttonsOnly).text = es.flatMap (deltaCode buttonsOnly).text) :
    ds = es := by
  refine (deltaCode buttonsOnly).flatMap_inj (fun _ => trivial) (fun d hnil => ?_) h
  rw [text_deltaCode] at hnil
  cases buttonsOnly <;> simp at hnil

/-- **A transcript determines the packet it comes to**: two runs whose debug states agree, and which
from there print the same while the device stays and its packets keep their length, end with the same
packet, whatever their tables and options, their other packets and the sending of their messages. -/
theorem transcript_determines (T T' : Tables) (options options' : AppOptions)
    (before before' its its' : List Iteration) :
    let s := (debugBridge T options ⟨true, false⟩).final (.start options) before
    let s' := (debugBridge T' options' ⟨true, false⟩).final (.start options') before'
    let last := (debugBridge T options ⟨true, false⟩).final s its
    let last' := (debugBridge T' options' ⟨true, false⟩).final s' its'
    s.debug = s'.debug → s.debug.previousDebugPacket ≠ [] →
    (∀ it ∈ its ++ its', InSession s.debug.previousDebugPacket.length it) →
    last.debug.cout.text = last'.debug.cout.text →
    last.debug.previousDebugPacket = last'.debug.previousDebugPacket := by
  intro s s' last last' hsame hne hits htext
  have hstart : Stream.Plain {} := ⟨rfl, rfl⟩
  have hplain : s.debug.cout.Plain := run_plain T options before hstart
  obtain ⟨ds, hds, hlast⟩ := session_lines T options rfl hplain hne its
    fun it hit => hits it (List.mem_append_left _ hit)
  obtain ⟨es, hes, hlast'⟩ := session_lines T' options' rfl
    (hsame ▸ hplain : s'.debug.cout.Plain) (hsame ▸ hne) its'
    fun it hit => hsame ▸ hits it (List.mem_append_right _ hit)
  have hlines : ds = es := by
    have hboth : s.debug.cout.text ++ ds.flatMap (deltaCode false).text =
        s.debug.cout.text ++ es.flatMap (deltaCode false).text := by
      rw [← hds, hsame, ← hes]
      exact htext
    exact lines_inj false (List.append_cancel_left hboth)
  show ((debugBridge T options ⟨true, false⟩).final s its).debug.previousDebugPacket = _
  rw [hlast, hlines, hsame]
  exact hlast'.symm

/-- The second run sees a packet twice and a timeout, and publishes frames as well. -/
theorem transcript_determines_repeated :
    let run (rawSysex : Bool) (its : List Iteration) :=
      ((debugBridge .shipped ⟨0, 0, .byte, rawSysex⟩ ⟨true, false⟩).final
        ((debugBridge .shipped ⟨0, 0, .byte, rawSysex⟩ ⟨true, false⟩).final
          (.start ⟨0, 0, .byte, rawSysex⟩) [.ok [1, 2]]) its).debug.previousDebugPacket
    run false [.ok [1, 3], .ok [5, 3]] = run true [.ok [1, 3], .ok [], .ok [1, 3], .ok [5, 3]] :=
  transcript_determines .shipped .shipped ⟨0, 0, .byte, false⟩ ⟨0, 0, .byte, true⟩ [.ok [1, 2]]
    [.ok [1, 2]] [.ok [1, 3], .ok [5, 3]] [.ok [1, 3], .ok [], .ok [1, 3], .ok [5, 3]]
    (by decide +kernel) (by decide +kernel)
    (fun it hit => by
      show InSession 2 it
      simp only [List.cons_append, List.nil_append, List.mem_cons, List.not_mem_nil, or_false] at hit
      rcases hit with rfl | rfl | rfl | rfl | rfl | rfl <;> exact inSession_ok (by decide))
    (by decide +kernel)

/-! ## Control changes -/

section
variable {T : Tables} {options : AppOptions} {debug : DebugOptions}

/-- The packet the next one is compared with is the decoder's too, unless none has come since the
last connect. -/
structure Follows (options : AppOptions) (s : DebugRun) : Prop where
  mode : s.loop.protocol.decodeMode = options.inputDecodeMode
  previous : s.debug.previousDebugPacket = [] ∨
    s.debug.previousDebugPacket = s.loop.protocol.previousReport
  plain : s.debug.cout.Plain

theorem decodeInput_fields (T : Tables) (p : S4GenericProtocol) (report : List UInt8) :
    (decodeInput T p report).1.decodeMode = p.decodeMode ∧
      (decodeInput T p report).1.previousReport = report := by
  unfold decodeInput
  split <;> exact ⟨rfl, rfl⟩

theorem follows_step (hdebug : debug.inputDebug = true) {s : DebugRun} (h : Follows options s)
    (it : Iteration) : Follows options (debugIterate T options debug s it).1 := by
  have hplain : (debugIterate T options debug s it).1.debug.cout.Plain :=
    run_plain T options [it] h.plain
  by_cases hend : s.loop.ending.isSome = true
  · have hsame : (debugIterate T options debug s it).1 = s := by
      unfold debugIterate iterate
      rw [if_pos hend, if_pos hend]
    rwa [hsame]
  · have hnone : s.loop.ending = none := by simpa using hend
    have hloop : (debugIterate T options debug s it).1.loop = (iterate T options s.loop it).1 := rfl
    have hpart : (debugIterate T options debug s it).1.debug = debugPart debug s.debug it :=
      if_neg hend
    by_cases hpacket : it.packet = []
    · obtain ⟨-, hprotocol, -⟩ := iterate_idle T options s.loop hpacket
      refine ⟨by rw [hloop, hprotocol]; exact h.mode, ?_, hplain⟩
      rw [hloop, hprotocol, hpart]
      by_cases hread : it.read = .disconnected
      · unfold debugPart
        rw [hread]
        cases it.connected with
        | true => exact .inl rfl
        | false => exact h.previous
      · rw [debugPart_quiet hpacket hread]
        exact h.previous
    · obtain ⟨hmode, hprevious⟩ := decodeInput_fields T s.loop.protocol it.packet
      have hprotocol : (iterate T options s.loop it).1.protocol =
          (decodeInput T s.loop.protocol it.packet).1 := by
        rw [iterate_packet hnone hpacket]
      refine ⟨by rw [hloop, hprotocol, hmode]; exact h.mode, .inr ?_, hplain⟩
      rw [hloop, hprotocol, hprevious, hpart, debugPart_packet hpacket, if_pos hdebug]

theorem follows_run (hdebug : debug.inputDebug = true) (T : Tables) (options : AppOptions)
    (its : List Iteration) :
    Follows options ((debugBridge T options debug).final (.start options) its) :=
  ((debugBridge T options debug).invariant (I := Follows options) (P := fun _ => True) its
    (fun _ it _ hs => ⟨follows_step hdebug hs it, trivial⟩) ⟨rfl, .inl rfl, ⟨rfl, rfl⟩⟩).1

/-- The messages of a report are those of its changes. -/
theorem decodeInput_deltas (T : Tables) {p : S4GenericProtocol} (hne : p.previousReport ≠ [])
    (report : List UInt8) :
    (decodeInput T p report).2 =
      (deltas p.previousReport report).flatMap fun d => decodeByte T p d.index d.prev d.cur := by
  have hnot : p.previousReport.isEmpty = false := by simpa using hne
  unfold decodeInput
  rw [hnot]
  simp only [Bool.false_eq_true, if_false]
  have hsame : ∀ d : Delta, decide (d.prev ≠ d.cur) = false →
      decodeByte T p d.index d.prev d.cur = [] := by
    intro d hd
    exact if_pos (by simpa using hd)
  rw [deltas, Lists.filter_flatMap_of_nil fun d _ => hsame d, List.flatMap_map]
  rfl

/-- One iteration of a run with a packet that is compared with another. -/
theorem iteration_deltas (T : Tables) (debug : DebugOptions) (hdebug : debug.inputDebug = true)
    {s : DebugRun} (h : Follows options s) (hend : s.loop.ending = none)
    (hprev : s.debug.previousDebugPacket ≠ []) {it : Iteration} (hpacket : it.packet ≠ [])
    (hsent : ∀ k, it.ccOutcome k = .noErr) :
    let changes := deltas s.debug.previousDebugPacket it.packet
    let step := debugIterate T options debug s it
    step.1.debug.cout.text = s.debug.cout.text ++
      (shown debug.inputDebugButtonsOnly changes).flatMap
        (deltaCode debug.inputDebugButtonsOnly).text ∧
    step.2.ccs = (changes.flatMap fun d =>
      decodeByte T s.loop.protocol d.index d.prev d.cur).map (·.bytes) := by
  intro changes step
  have hsame : s.debug.previousDebugPacket = s.loop.protocol.previousReport :=
    h.previous.resolve_left hprev
  have hpart : step.1.debug = debugPart debug s.debug it := if_neg (by simp [hend])
  have hstarted : s.debug.previousDebugPacket.isEmpty = false := by simpa using hprev
  refine ⟨?_, ?_⟩
  · rw [hpart, debugPart_packet hpacket, if_pos hdebug]
    simp only [hstarted, Bool.false_eq_true, if_false]
    exact (printInputDeltas_text h.plain _ _ _).2
  · have hccs : ∀ m ∈ (decodeInput T s.loop.protocol it.packet).2,
        ∃ channel controller value, m = makeCc channel controller value := fun m hm =>
      mem_decodeInput hm
    show (iterate T options s.loop it).2.ccs = _
    rw [iterate_packet hend hpacket]
    simp only
    rw [sendAll_noErr hccs hsent, decodeInput_deltas T (hsame ▸ hprev), ← hsame]

end

/-- **The lines printed for a packet explain its control changes**: in every run with
`--input-debug`, whatever was disconnected or failed to be sent before, if the packet is not the first
one since the device was connected, the control changes published are those of the changes printed,
line by line. -/
theorem lines_explain (T : Tables) (options : AppOptions) (before : List Iteration)
    (it : Iteration) :
    let s := (debugBridge T options ⟨true, false⟩).final (.start options) before
    let next := (debugBridge T options ⟨true, false⟩).step s it
    s.loop.ending = none → s.debug.previousDebugPacket ≠ [] → it.packet ≠ [] →
    (∀ k, it.ccOutcome k = .noErr) →
    ∃ lines : List Delta,
      next.1.debug.cout.text = s.debug.cout.text ++ lines.flatMap (deltaCode false).text ∧
      next.2.ccs = (lines.flatMap fun d =>
        decodeByte T s.loop.protocol d.index d.prev d.cur).map (·.bytes) := by
  intro s next hend hprev hpacket hsent
  obtain ⟨htext, hccs⟩ := iteration_deltas T ⟨true, false⟩ rfl
    (follows_run rfl T options before) hend hprev hpacket hsent
  exact ⟨_, htext, hccs⟩

/-- The second packet after a reconnect. -/
theorem lines_explain_reconnected :
    let run := debugBridge .shipped ⟨0, 0, .hybrid, false⟩ ⟨true, false⟩
    let s := run.final (.start ⟨0, 0, .hybrid, false⟩)
      [.ok [0, 0], ⟨.disconnected, true, .noErr, fun _ => .noErr⟩, .ok [1, 1]]
    ∃ lines : List Delta,
      (run.step s (.ok [7, 1])).1.debug.cout.text =
        s.debug.cout.text ++ lines.flatMap (deltaCode false).text ∧
      (run.step s (.ok [7, 1])).2.ccs = (lines.flatMap fun d =>
        decodeByte .shipped s.loop.protocol d.index d.prev d.cur).map (·.bytes) :=
  lines_explain .shipped ⟨0, 0, .hybrid, false⟩
    [.ok [0, 0], ⟨.disconnected, true, .noErr, fun _ => .noErr⟩, .ok [1, 1]] (.ok [7, 1])
    (by decide +kernel) (by decide +kernel) (by decide) fun _ => rfl

/-! ## Buttons -/

theorem length_flatMap_single {α β : Type*} {f : α → List β} {p : α → Bool}
    (h : ∀ a, (f a).length = if p a then 1 else 0) (l : List α) :
    (l.flatMap f).length = l.countP p := by
  induction l with
  | nil => rfl
  | cons a l ih =>
    rw [List.flatMap_cons, List.length_append, ih, h a, List.countP_cons]
    omega

/-- In the bit view a changed byte has a message for each bit that flipped. -/
theorem length_decodeByte {T : Tables} {p : S4GenericProtocol} (hmode : p.decodeMode = .bit)
    (i : Nat) {prev cur : UInt8} (hne : prev ≠ cur) :
    (decodeByte T p i prev cur).length = popcount (prev ^^^ cur) := by
  have hone : ∀ bt : Fin 8, (bitView T p i (prev ^^^ cur) cur bt).length =
      if decide ((prev ^^^ cur) >>> UInt8.ofNat bt &&& 0x01 ≠ 0) = true then 1 else 0 := by
    intro bt
    have hflip : (prev ^^^ cur) >>> UInt8.ofNat bt &&& 0x01 ≠ 0 ↔ bit prev bt ≠ bit cur bt := by
      rw [shiftRight_and_one, bit_xor]
      cases bit prev bt <;> cases bit cur bt <;> decide
    rw [bitView_xor]
    simp only [decide_eq_true_eq, hflip]
    split <;> rfl
  unfold decodeByte
  rw [if_neg hne]
  simp only [hmode, reduceCtorEq, or_self, if_false, true_or, if_true, List.nil_append]
  exact length_flatMap_single hone _

theorem popcount_pos {x : UInt8} (h : x ≠ 0) : 0 < popcount x :=
  @forall_byte (fun x => x ≠ 0 → 0 < popcount x) (by decide +kernel) x h

/-- Numbers that are not zero add up to how many are one exactly if all are. -/
theorem sum_eq_count_iff {α : Type*} {f : α → Nat} {l : List α} (hpos : ∀ a ∈ l, 0 < f a) :
    (l.filter fun a => decide (f a = 1)).length = (l.map f).sum ↔ ∀ a ∈ l, f a = 1 := by
  have hle : ∀ l : List α, (l.filter fun a => decide (f a = 1)).length ≤ (l.map f).sum := by
    intro l
    induction l with
    | nil => exact Nat.le_refl 0
    | cons a l ih =>
      rw [List.filter_cons, List.map_cons, List.sum_cons]
      split
      · rename_i h
        have hone : f a = 1 := of_decide_eq_true h
        rw [List.length_cons]
        omega
      · omega
  induction l with
  | nil => simp
  | cons a l ih =>
    have hrest : _ ↔ ∀ b ∈ l, f b = 1 := ih fun b hb => hpos b (.tail _ hb)
    have ha := hpos a (.head _)
    have hbound := hle l
    rw [List.forall_mem_cons, List.filter_cons, List.map_cons, List.sum_cons]
    by_cases hone : f a = 1
    · rw [if_pos (decide_eq_true hone), List.length_cons, ← hrest]
      omega
    · rw [if_neg (by simpa using hone)]
      exact ⟨fun h => by omega, fun h => absurd h.1 hone⟩

/-- **When the button mode tells every message**: in every run with `--input-debug-buttons` in bit
mode, a packet that is not the first one since the device was connected has as many lines as control
changes exactly if at most two bytes changed, each of them in one bit. -/
theorem buttons_complete_iff (T : Tables) (options : AppOptions)
    (hmode : options.inputDecodeMode = .bit) (before : List Iteration) (it : Iteration) :
    let s := (debugBridge T options ⟨true, true⟩).final (.start options) before
    let next := (debugBridge T options ⟨true, true⟩).step s it
    let changes := deltas s.debug.previousDebugPacket it.packet
    s.loop.ending = none → s.debug.previousDebugPacket ≠ [] → it.packet ≠ [] →
    (∀ k, it.ccOutcome k = .noErr) →
    ∃ lines : List Delta,
      next.1.debug.cout.text = s.debug.cout.text ++ lines.flatMap (deltaCode true).text ∧
      (lines.length = next.2.ccs.length ↔
        changes.length ≤ 2 ∧ ∀ d ∈ changes, popcount (d.prev ^^^ d.cur) = 1) := by
  intro s next changes hend hprev hpacket hsent
  have hfollows : Follows options s := follows_run rfl T options before
  obtain ⟨htext, hccs⟩ := iteration_deltas T ⟨true, true⟩ rfl hfollows hend hprev hpacket
    hsent
  refine ⟨shown true changes, htext, ?_⟩
  have hchanged : ∀ d ∈ changes, d.prev ≠ d.cur := fun d hd => by
    have := (List.mem_filter.1 hd).2
    simpa using this
  have hpos : ∀ d ∈ changes, 0 < popcount (d.prev ^^^ d.cur) := fun d hd =>
    popcount_pos (by simpa using hchanged d hd)
  have hcount : next.2.ccs.length = (changes.map fun d => popcount (d.prev ^^^ d.cur)).sum := by
    have hlen : next.2.ccs.length =
        (changes.flatMap fun d => decodeByte T s.loop.protocol d.index d.prev d.cur).length := by
      rw [show next.2.ccs = _ from hccs, List.length_map]
    rw [hlen, List.length_flatMap]
    refine congrArg List.sum (List.map_congr_left fun d hd => ?_)
    exact length_decodeByte (hfollows.mode.trans hmode) d.index (hchanged d hd)
  rw [hcount, shown, if_pos rfl]
  by_cases hmany : changes.length > 2
  · rw [if_pos hmany]
    refine ⟨fun hnone => ?_, fun h => absurd h.1 (by omega)⟩
    cases hcase : changes with
    | nil => simp [hcase] at hmany
    | cons d ds =>
      have hd := hpos d (hcase ▸ .head _)
      rw [hcase, List.map_cons, List.sum_cons, List.length_nil] at hnone
      omega
  · rw [if_neg hmany, sum_eq_count_iff hpos]
    exact ⟨fun h => ⟨by omega, h⟩, fun h => h.2⟩

/-- Two buttons pressed at once, each in its byte. -/
theorem buttons_complete_iff_two :
    let s := (debugBridge .shipped ⟨0, 0, .bit, false⟩ ⟨true, true⟩).final
      (.start ⟨0, 0, .bit, false⟩) [.ok [0, 0, 9]]
    let next := (debugBridge .shipped ⟨0, 0, .bit, false⟩ ⟨true, true⟩).step s (.ok [4, 32, 9])
    ∃ lines : List Delta,
      next.1.debug.cout.text = s.debug.cout.text ++ lines.flatMap (deltaCode true).text ∧
      lines.length = next.2.ccs.length := by
  obtain ⟨lines, htext, hcomplete⟩ := buttons_complete_iff .shipped ⟨0, 0, .bit, false⟩ rfl
    [.ok [0, 0, 9]] (.ok [4, 32, 9]) (by decide +kernel) (by decide +kernel) (by decide) fun _ => rfl
  have hlines := hcomplete.2 (by decide +kernel)
  exact ⟨lines, htext, hlines⟩

end Bridge
