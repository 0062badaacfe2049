import S4Bridge.Bridge.Proof.Publish
import S4Bridge.Gui.Proof.CcMirror

/-!
# The byte map under both feeds

With raw-USB frames and control changes both shown, each report that differs from the one before it
is first written whole, then its control changes overwrite the bytes whose 7-bit value moved with a
value whose lowest bit is cleared. So the byte map shows each byte of the report up to that bit, and
exactly unless the byte's 7-bit value moved at the last change (`combined_feeds`).
-/

namespace Bridge

open Protocol Gui Bytes Latest DeltaFilter

/-! ## The reports of a run -/

/-- Nothing fails in the iteration, and a packet it reads has `n` bytes. -/
structure Clean (n : Nat) (it : Iteration) : Prop where
  reads : ∀ what, it.read ≠ .threw what
  connected : it.connected = true
  frameSent : it.sysexOutcome = .noErr
  ccsSent : ∀ k, it.ccOutcome k = .noErr
  length : it.packet = [] ∨ it.packet.length = n

/-- The iteration that reads `packet` and in which nothing fails. -/
def Iteration.ok (packet : List UInt8) : Iteration := ⟨.packet packet, true, .noErr, fun _ => .noErr⟩

theorem clean_ok {n : Nat} {packet : List UInt8} (h : packet.length = n) : Clean n (.ok packet) :=
  ⟨fun _ => by simp [Iteration.ok], rfl, rfl, fun _ => rfl, .inr h⟩

/-- The packets read. -/
def reports (its : List Iteration) : List (List UInt8) :=
  (its.map (·.packet)).filter (· ≠ [])

/-- The last two consecutive reports that differ. -/
def lastChange (seen : List (List UInt8)) : Option (List UInt8 × List UInt8) :=
  ((seen.zip seen.tail).filter fun change => change.1 ≠ change.2).getLast?

/-- The 7-bit value of byte `i` moved at the last change. -/
def movedLast (i : Nat) (seen : List (List UInt8)) : Bool :=
  (lastChange seen).any fun change => high7 (change.1.getD i 0) ≠ high7 (change.2.getD i 0)

theorem zip_tail_concat {α : Type*} (xs : List α) (a b : α) :
    (xs ++ [a] ++ [b]).zip (xs ++ [a] ++ [b]).tail =
      (xs ++ [a]).zip (xs ++ [a]).tail ++ [(a, b)] := by
  induction xs with
  | nil => rfl
  | cons x xs ih =>
    cases xs with
    | nil => rfl
    | cons y ys => simpa using ih

theorem movedLast_concat (i : Nat) (xs : List (List UInt8)) (q r : List UInt8) :
    movedLast i (xs ++ [q] ++ [r]) =
      if q = r then movedLast i (xs ++ [q])
      else decide (high7 (q.getD i 0) ≠ high7 (r.getD i 0)) := by
  unfold movedLast lastChange
  rw [zip_tail_concat, List.filter_append]
  split
  · rename_i h
    simp [h]
  · rename_i h
    simp [h]

/-! ## One iteration -/

/-- The state of the loop and the byte map after the reports `seen`. -/
structure Synced (base : UInt8) (n : Nat) (seen : List (List UInt8)) (s : RunBridge)
    (win : ByteMapWindow) : Prop where
  ending : s.ending = none
  previous : s.previousRawSysexPacket = seen.getLastD []
  protocol : s.protocol =
    { S4GenericProtocol.new base 0 .byte with previousReport := seen.getLastD [] }
  alive : win.alive = true
  srcVar : win.srcVar = .both
  lengths : ∀ r ∈ seen, r.length = n ∧ r ≠ []
  cells : ∀ i < n, seen ≠ [] → win.data[i]? =
    some (if movedLast i seen then (seen.getLastD []).getD i 0 &&& 0xFE
      else (seen.getLastD []).getD i 0)

variable {base : UInt8} {n : Nat} {seen : List (List UInt8)} {s : RunBridge} {win : ByteMapWindow}
  {it : Iteration}

/-- What the control changes of one report write into cell `i`. -/
theorem latest_cellWrite_step {p : S4GenericProtocol} (hm : p.decodeMode = .byte) {i : Nat}
    (hi : i < 2048) {r : List UInt8} (hr : r.length ≤ 2048) (old : UInt8) :
    latest (cellWrite p.baseChannel i) old (decodeInput Tables.shipped p r).2 =
      ((report (movedBeyond p.inputDeadzone) (sample i p.previousReport) (sample i r)).map
        fun (v : UInt8) => v <<< 1).getD old := by
  have hwrites : (decodeInput Tables.shipped p r).2.filterMap (cellWrite p.baseChannel i) =
      ((decodeInput Tables.shipped p r).2.filterMap (ccAt (rawAddress p.baseChannel i))).map
        fun (v : UInt8) => v <<< 1 := by
    rw [List.map_filterMap]
    rfl
  rw [latest, hwrites, filterMap_ccAt_decodeInput hm hi hr]
  cases report (movedBeyond p.inputDeadzone) (sample i p.previousReport) (sample i r) <;> rfl

/-- A report like the one before it has no messages. -/
theorem decodeInput_self {T : Tables} {p : S4GenericProtocol} :
    (decodeInput T p p.previousReport).2 = [] := by
  rw [decodeInput_eq]
  exact List.flatMap_eq_nil_iff.2 fun i _ => if_pos rfl

theorem iterate_synced_quiet (h : Synced base n seen s win) (hit : Clean n it)
    (hp : it.packet = []) (options : AppOptions) :
    iterate Tables.shipped options s it = (s, .nothing) := by
  unfold iterate
  rw [h.ending]
  cases hr : it.read with
  | packet bytes =>
    have hnil : bytes = [] := by simpa [Iteration.packet, hr] using hp
    simp [hnil]
  | disconnected => simp [hit.connected]
  | threw what => exact absurd hr (hit.reads what)

theorem iterate_synced {options : AppOptions} (hraw : options.rawSysex = true)
    (h : Synced base n seen s win) (hit : Clean n it) (hp : it.packet ≠ []) :
    iterate Tables.shipped options s it =
      (⟨{ s.protocol with previousReport := it.packet }, it.packet, none⟩,
       ⟨if it.packet = s.previousRawSysexPacket then none else some (rawSysexFrame it.packet),
        (decodeInput Tables.shipped s.protocol it.packet).2.map (·.bytes)⟩) := by
  have hcc := sendAll_noErr
    (fun m (hm : m ∈ (decodeInput Tables.shipped s.protocol it.packet).2) => mem_decodeInput hm)
    hit.ccsSent
  rw [iterate_packet h.ending hp, publishRawSysex_eq hraw, hcc, decodeInput_state, hit.frameSent]
  by_cases heq : it.packet = s.previousRawSysexPacket
  · simp [heq]
  · simp [heq]

/-- The cells after a report that differs from the one before: the frame first, then the control
changes. -/
theorem cells_of_report (hn : n ≤ maxBytes) (h : Synced base n seen s win) {r : List UInt8}
    (hr : r.length = n) (hdiff : r ≠ seen.getLastD []) {i : Nat} (hi : i < n) :
    (r[i]?).map (latest (cellWrite s.protocol.baseChannel i) ·
        (decodeInput Tables.shipped s.protocol r).2) =
      some (if movedLast i (seen ++ [r]) then r.getD i 0 &&& 0xFE else r.getD i 0) := by
  have hi' : i < 2048 := Nat.lt_trans (Nat.lt_of_lt_of_le hi hn) (by decide)
  have hlen : r.length ≤ 2048 := hr ▸ hn.trans (by decide)
  have hget : r[i]? = some (r.getD i 0) := by
    rw [List.getD_eq_getElem?_getD, List.getElem?_eq_getElem (hr ▸ hi)]; rfl
  have hdz : s.protocol.inputDeadzone = min 0 127 := by rw [h.protocol]; rfl
  have hprev : s.protocol.previousReport = seen.getLastD [] := by rw [h.protocol]
  have hsample : sample i r = some (high7 (r.getD i 0)) := sample_eq (hr ▸ hi)
  rw [hget, Option.map_some, latest_cellWrite_step (by rw [h.protocol]; rfl) hi' hlen, hdz, hprev,
    hsample]
  rcases List.eq_nil_or_concat' seen with rfl | ⟨xs, q, rfl⟩
  · rfl
  · have hq : q.length = n := (h.lengths q (by simp)).1
    rw [List.getLastD_concat] at hdiff ⊢
    rw [sample_eq (hq ▸ hi), report_some, movedBeyond_zero, movedLast_concat,
      if_neg (Ne.symm hdiff)]
    split
    · rw [Option.map_some, Option.getD_some]
      exact congrArg some (high7_shiftLeft _)
    · rfl

/-- The loop and the byte map stay in step over report `r` if the byte map's cells do. -/
theorem Synced.next (h : Synced base n seen s win) {r : List UInt8} (hlen : r.length = n)
    (hne : r ≠ []) {win' : ByteMapWindow} (halive : win'.alive = true) (hsrc : win'.srcVar = .both)
    (hcells : ∀ i < n, win'.data[i]? =
      some (if movedLast i (seen ++ [r]) then r.getD i 0 &&& 0xFE else r.getD i 0)) :
    Synced base n (seen ++ [r]) ⟨{ s.protocol with previousReport := r }, r, none⟩ win' := by
  have hlast : (seen ++ [r]).getLastD [] = r := List.getLastD_concat
  refine ⟨rfl, hlast.symm, ?_, halive, hsrc, fun r' hr' => ?_, fun i hi _ => ?_⟩
  · rw [h.protocol, hlast]
  · rcases List.mem_append.1 hr' with hr' | hr'
    · exact h.lengths r' hr'
    · rw [List.mem_singleton.1 hr']; exact ⟨hlen, hne⟩
  · rw [hlast]; exact hcells i hi

/-- The same report again: no frame, no control change. -/
theorem deliver_repeated (mido : Mido) (h : Synced base n seen s win) (hit : Clean n it)
    (hp : it.packet ≠ []) (hsame : it.packet = seen.getLastD []) :
    deliver mido ⟨some win, base.toNat + 1⟩
        (iterate Tables.shipped ⟨base, 0, .byte, true⟩ s it).2.messages =
        .ok ⟨some win, base.toNat + 1⟩ ∧
      Synced base n (seen ++ [it.packet])
        (iterate Tables.shipped ⟨base, 0, .byte, true⟩ s it).1 win := by
  have hprev : it.packet = s.protocol.previousReport := by rw [h.protocol]; exact hsame
  have hseen : seen ≠ [] := by rintro rfl; exact hp hsame
  obtain ⟨xs, q, rfl⟩ := (List.eq_nil_or_concat' seen).resolve_left hseen
  rw [List.getLastD_concat] at hsame
  rw [iterate_synced rfl h hit hp]
  refine ⟨?_, h.next (hit.length.resolve_left hp) hp h.alive h.srcVar fun i hi => ?_⟩
  · rw [Published.messages, if_pos (by rw [h.previous, List.getLastD_concat, hsame]), hprev,
      decodeInput_self]
    rfl
  · have hcell := h.cells i hi (by simp)
    rw [List.getLastD_concat] at hcell
    rw [movedLast_concat, if_pos hsame.symm, hsame]
    exact hcell

/-- Another report: the frame writes its bytes, then the control changes those that moved. -/
theorem deliver_changed (mido : Mido) (hb : base < 16) (hn : n ≤ maxBytes)
    (h : Synced base n seen s win) (hit : Clean n it) (hp : it.packet ≠ [])
    (hdiff : it.packet ≠ seen.getLastD []) :
    ∃ win', deliver mido ⟨some win, base.toNat + 1⟩
        (iterate Tables.shipped ⟨base, 0, .byte, true⟩ s it).2.messages =
        .ok ⟨some win', base.toNat + 1⟩ ∧
      Synced base n (seen ++ [it.packet])
        (iterate Tables.shipped ⟨base, 0, .byte, true⟩ s it).1 win' := by
  have hlen : it.packet.length = n := hit.length.resolve_left hp
  have hbase : s.protocol.baseChannel = base := by
    rw [h.protocol]; exact and_0F_of_lt base hb
  have hframe := handleEvent_rawSysexFrame mido hp h.alive (base.toNat + 1)
  let win1 := win.updatePacket it.packet .sysex
  have halive1 : win1.alive = true := (updatePacket_alive win _ _).trans h.alive
  have hsrc1 : win1.srcVar = .both := (updatePacket_srcVar win _ _).trans h.srcVar
  have hmsgs : ∀ m ∈ (decodeInput Tables.shipped s.protocol it.packet).2,
      ∃ k < 2048, ∃ v < 128, m = rawCc base k v := by
    have hone := mem_messages (p := s.protocol) (d := 0) hb [it.packet]
      (fun r hr => by rw [List.mem_singleton.1 hr, hlen]; exact hn.trans (by decide))
      (by rw [h.protocol])
    simpa [decoder] using hone
  obtain ⟨win', hok, hsrc, halive, hcells⟩ :=
    deliver_rawCcs mido hb hmsgs halive1 (by rw [hsrc1]; rfl)
  rw [iterate_synced rfl h hit hp]
  refine ⟨win', ?_, h.next hlen hp halive (hsrc.trans hsrc1) fun i hi => ?_⟩
  · rw [Published.messages, if_neg (by rw [h.previous]; exact hdiff), Option.toList_some,
      List.singleton_append, deliver_cons, hframe]
    exact hok
  · have hi' : i < maxBytes := Nat.lt_of_lt_of_le hi hn
    have hwritten : win1.data[i]? = it.packet[i]? := by
      rw [getElem?_updatePacket win _ _ hi', h.srcVar]
      simp [SourceFilter.accepts, hlen, hi]
    rw [hcells i hi', hwritten, ← hbase, cells_of_report hn h hlen hdiff hi]

/-- **One iteration** keeps the loop and the byte map in step. -/
theorem deliver_synced (mido : Mido) (hb : base < 16) (hn : n ≤ maxBytes)
    (h : Synced base n seen s win) (hit : Clean n it) :
    ∃ win', deliver mido ⟨some win, base.toNat + 1⟩
        (iterate Tables.shipped ⟨base, 0, .byte, true⟩ s it).2.messages =
        .ok ⟨some win', base.toNat + 1⟩ ∧
      Synced base n (seen ++ reports [it])
        (iterate Tables.shipped ⟨base, 0, .byte, true⟩ s it).1 win' := by
  by_cases hp : it.packet = []
  · have hreports : reports [it] = [] := by simp [reports, hp]
    rw [iterate_synced_quiet h hit hp, hreports, List.append_nil]
    exact ⟨win, rfl, h⟩
  · have hreports : reports [it] = [it.packet] := by simp [reports, hp]
    rw [hreports]
    by_cases hsame : it.packet = seen.getLastD []
    · exact ⟨win, deliver_repeated mido h hit hp hsame⟩
    · exact deliver_changed mido hb hn h hit hp hsame

/-- A whole run keeps them in step. -/
theorem deliver_synced_run (mido : Mido) (hb : base < 16) (hn : n ≤ maxBytes)
    (its : List Iteration) (hits : ∀ it ∈ its, Clean n it) (h : Synced base n seen s win) :
    ∃ win', deliver mido ⟨some win, base.toNat + 1⟩
        (((bridge Tables.shipped ⟨base, 0, .byte, true⟩).outs s its).flatMap Published.messages) =
        .ok ⟨some win', base.toNat + 1⟩ ∧
      Synced base n (seen ++ reports its)
        ((bridge Tables.shipped ⟨base, 0, .byte, true⟩).final s its) win' := by
  induction its generalizing seen s win with
  | nil => exact ⟨win, rfl, by rwa [show reports [] = [] from rfl, List.append_nil]⟩
  | cons it its ih =>
    obtain ⟨win1, hok1, h1⟩ := deliver_synced mido hb hn h (hits it (.head _))
    obtain ⟨win', hok, h'⟩ := ih (fun it' hit' => hits it' (.tail _ hit')) h1
    have hreports : reports (it :: its) = reports [it] ++ reports its := by
      simp only [reports, List.map_cons, List.map_nil, ← List.filter_append, List.singleton_append]
    refine ⟨win', ?_, ?_⟩
    · rw [Machine.outs_cons, List.flatMap_cons]
      exact (deliver_append mido hok1 _).trans hok
    · rw [hreports, ← List.append_assoc]
      exact h'

theorem synced_start (base : UInt8) (n : Nat) :
    Synced base n [] (.start ⟨base, 0, .byte, true⟩) (.new .both) :=
  ⟨rfl, rfl, rfl, rfl, rfl, by simp, by simp⟩

/-- **Both feeds together**: after every run in which nothing fails, each cell of the byte map, by
itself or in the application, shows its byte of the last report, with the lowest bit cleared if the
byte's 7-bit value moved at the last change. -/
theorem combined_feeds (mido : Mido) (base : UInt8) (hb : base < 16) (n : Nat) (hn : n ≤ 512)
    (its : List Iteration) (hits : ∀ it ∈ its, Clean n it) (hne : reports its ≠ []) :
    let last := (reports its).getLast hne
    let ms := ((bridge Tables.shipped ⟨base, 0, .byte, true⟩).outs (.start ⟨base, 0, .byte, true⟩)
      its).flatMap Published.messages
    ∃ win, deliver mido ⟨some (.new .both), base.toNat + 1⟩ ms = .ok ⟨some win, base.toNat + 1⟩ ∧
      AppShows mido ⟨some (.new .both), base.toNat + 1⟩ ms ⟨some win, base.toNat + 1⟩ ∧
      ∀ i < n, win.data[i]? =
        some (if movedLast i (reports its) then last.getD i 0 &&& 0xFE else last.getD i 0) := by
  intro last ms
  obtain ⟨win, hok, h⟩ := deliver_synced_run mido hb hn its hits (synced_start base n)
  rw [List.nil_append] at h
  refine ⟨win, hok, appShows_of_deliver hok, fun i hi => ?_⟩
  have hlast : (reports its).getLastD [] = last := by
    rw [List.getLastD_eq_getLast?, List.getLast?_eq_some_getLast hne, Option.getD_some]
  rw [h.cells i hi hne, hlast]

theorem clean_two_reports : ∀ it ∈ [Iteration.ok [0], .ok [5]], Clean 1 it := by
  intro it hit
  rcases List.mem_cons.1 hit with rfl | hit
  · exact clean_ok rfl
  · rw [List.mem_singleton.1 hit]
    exact clean_ok rfl

theorem combined_feeds_two_reports :
    ∃ win, deliver .standard ⟨some (.new .both), 1⟩
        (((bridge Tables.shipped ⟨0, 0, .byte, true⟩).outs (.start ⟨0, 0, .byte, true⟩)
          [.ok [0], .ok [5]]).flatMap Published.messages) = .ok ⟨some win, 1⟩ ∧
      win.data[0]? = some 4 := by
  obtain ⟨win, hok, -, hcells⟩ := combined_feeds .standard 0 (by decide) 1 (by decide)
    [.ok [0], .ok [5]] clean_two_reports (by decide)
  exact ⟨win, hok, (hcells 0 (by decide)).trans (by decide)⟩

theorem not_combined_feeds_exact :
    ¬ ∀ (mido : Mido) (base : UInt8), base < 16 → ∀ n ≤ 512, ∀ (its : List Iteration),
      (∀ it ∈ its, Clean n it) → ∀ hne : reports its ≠ [],
      ∃ win, deliver mido ⟨some (.new .both), base.toNat + 1⟩
          (((bridge Tables.shipped ⟨base, 0, .byte, true⟩).outs (.start ⟨base, 0, .byte, true⟩)
            its).flatMap Published.messages) = .ok ⟨some win, base.toNat + 1⟩ ∧
        ∀ i < n, win.data[i]? = some (((reports its).getLast hne).getD i 0) := by
  intro h
  obtain ⟨win, hok, hexact⟩ := h .standard 0 (by decide) 1 (by decide) [.ok [0], .ok [5]]
    clean_two_reports (by decide)
  -- the frame writes 5, then the control change writes 2 shifted back
  obtain ⟨win', hok', hsynced⟩ := deliver_synced_run .standard (by decide) (by decide)
    [.ok [0], .ok [5]] clean_two_reports (synced_start 0 1)
  rw [hok, Except.ok.injEq, ByteMapView.mk.injEq, Option.some.injEq] at hok'
  have hfour := hsynced.cells 0 (by decide) (by decide)
  rw [← hok'.1, hexact 0 (by decide)] at hfour
  exact absurd hfour (by decide)

end Bridge
