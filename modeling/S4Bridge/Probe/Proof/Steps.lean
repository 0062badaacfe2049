import S4Bridge.Probe.Run
import S4Bridge.Device.Proof.Listing
import S4Bridge.Device.Proof.Open
import S4Bridge.Bridge.Proof.Handles

/-!
# Steps of the probe

What each call of the probe does on an open device: `readInput_open`, `readAndPrint_open`,
`writeCycle_open` and `streamTurn_open`, one for each turn of the two loops. A transfer is `Readable`
where `read_input` does not throw, and has `received` what is returned then; a cycle is made up of the
acts `cycleActs`, of which the first that is not `Act.done` ends the loop. A read that is refused for
the report size is none that is made (`Act.made`).
-/

namespace Probe

open Device Startup Formatted Bridge Args

/-! ## Reading -/

section
variable (options : UsbOptions)

/-- `read_input` returns. -/
def Readable (t : Transferred) : Prop :=
  0 < options.reportSize ∧ (¬ t.rc.val < 0 ∨ t.rc.val = libusbErrorTimeout ∨
    t.rc.val = libusbErrorNoDevice ∨ t.rc.val = libusbErrorIo)

instance (t : Transferred) : Decidable (Readable options t) :=
  inferInstanceAs (Decidable (_ ∧ _))

/-- What `read_input` returns, empty where it throws. -/
def received (t : Transferred) : List UInt8 :=
  if 0 < options.reportSize ∧ ¬ t.rc.val < 0 then t.data else []

/-- What `read_input` throws otherwise. -/
def readError (errorName : Int → String) (t : Transferred) : String :=
  if options.reportSize ≤ 0 then "Report size must be > 0"
  else checkMessage errorName "USB input transfer failed" t.rc

theorem readInput_open (errorName : Int → String) {device : UsbDevice}
    (hopen : device.handle ≠ none) (t : Transferred) :
    ∃ device' : UsbDevice, device'.handle = device.handle ∧
      readInput errorName options device t = (device',
        if Readable options t then .ok (received options t)
        else .error (readError options errorName t)) := by
  have hsome : device.handle.isNone = false := by
    rw [Option.isNone_eq_false_iff, Option.isSome_iff_ne_none]
    exact hopen
  unfold readInput
  rw [hsome]
  simp only [Bool.false_eq_true, if_false]
  by_cases hsize : options.reportSize ≤ 0
  · have hread : ¬ Readable options t := fun h => by
      have := h.1
      omega
    refine ⟨device, rfl, ?_⟩
    rw [if_pos hsize, if_neg hread, readError, if_pos hsize]
  · have hpos : 0 < options.reportSize := by omega
    rw [if_neg hsize]
    by_cases htimeout : t.rc.val = libusbErrorTimeout
    · have hneg : t.rc.val < 0 := by rw [htimeout]; decide
      refine ⟨device, rfl, ?_⟩
      rw [if_pos htimeout, if_pos ⟨hpos, .inr (.inl htimeout)⟩, received,
        if_neg fun h => h.2 hneg]
    · rw [if_neg htimeout]
      by_cases hgone : t.rc.val = libusbErrorNoDevice ∨ t.rc.val = libusbErrorIo
      · have hneg : t.rc.val < 0 := by rcases hgone with h | h <;> rw [h] <;> decide
        refine ⟨{ device with disconnected := true }, rfl, ?_⟩
        rw [if_pos hgone, if_pos ⟨hpos, .inr (.inr hgone)⟩, received, if_neg fun h => h.2 hneg]
      · rw [if_neg hgone]
        by_cases hneg : t.rc.val < 0
        · have hread : ¬ Readable options t := by
            rintro ⟨-, h | h | h⟩
            · exact h hneg
            · exact htimeout h
            · exact hgone h
          refine ⟨device, rfl, ?_⟩
          rw [if_pos hneg, if_neg hread, readError, if_neg hsize]
        · refine ⟨device, rfl, ?_⟩
          rw [if_neg hneg, if_pos ⟨hpos, .inl hneg⟩, received, if_pos ⟨hpos, hneg⟩]

end

/-! ## Moments of the probe -/

/-- At most one handle, list and descriptor at a time. -/
def Singles (host : Host) : Prop :=
  Ledger.Single host.handles ∧ Ledger.Single host.lists ∧ Ledger.Single host.configs

/-- `Quiet`, but that the device may be gone before it was ever initialized. -/
def Kept (host : Host) : Prop := Quiet host.clearDisconnected

theorem kept_of_quiet {w : History Host} (hw : w.Holds Sound Quiet) : w.Holds Singles Kept :=
  ⟨⟨hw.now.single, fun host hhost => by
      obtain ⟨list, config, hmoment⟩ := hw.always.2 host hhost
      exact hmoment.single⟩, hw.now.clearDisconnected⟩

theorem Kept.singles {host : Host} (h : Kept host) : Singles host := h.single

theorem kept_step {w : History Host} (hw : w.Holds Singles Kept) (f : Host → Host)
    (hf : Kept (f w.now)) : (w.step f).Holds Singles Kept :=
  hw.step (fun _ => Kept.singles) hf

theorem Kept.setDevice {host : Host} (h : Kept host) {device : UsbDevice}
    (hhandle : device.handle = host.device.handle) : Kept (host.setDevice device) := by
  refine ⟨?_, h.lists, h.configs, fun hd => (by cases hd)⟩
  show Ledger.Settled device.handle host.handles
  rw [hhandle]
  exact h.handles

theorem Kept.stopRunning {host : Host} (h : Kept host) : Kept host.stopRunning :=
  Moment.stopRunning h

theorem Kept.closeHandle {host : Host} (h : Kept host) :
    Kept host.closeHandle ∧ host.closeHandle.device.handle = none := by
  have hsame : host.clearDisconnected.closeHandle = host.closeHandle.clearDisconnected := by
    obtain ⟨⟨handle, disconnected, input, output⟩, handles, lists, configs, usb, running⟩ := host
    cases handle <;> rfl
  obtain ⟨hquiet, hhandle⟩ := Moment.closeHandle h
  rw [hsame] at hquiet hhandle
  exact ⟨hquiet, hhandle⟩

/-- The act is a pause or a transfer that is made. -/
def Act.made (options : UsbOptions) : Act → Bool
  | .read _ => decide (0 < options.reportSize)
  | _ => true

/-- The acts, those of them that are made, lead from one state to the other, and the text is printed
meanwhile. -/
structure Leads (options : UsbOptions) (s : ProbeRun) (acts : List Act) (text : List Char)
    (s' : ProbeRun) : Prop where
  kept : s.world.Holds Singles Kept → s'.world.Holds Singles Kept
  handle : s'.world.now.device.handle = s.world.now.device.handle
  acts : s'.acts = s.acts ++ acts.filter (Act.made options)
  text : s.cout.Plain → s'.cout.Plain ∧ s'.cout.text = s.cout.text ++ text

theorem Leads.refl (options : UsbOptions) (s : ProbeRun) : Leads options s [] [] s :=
  ⟨id, rfl, (List.append_nil _).symm, fun h => ⟨h, (List.append_nil _).symm⟩⟩

theorem Leads.trans {options : UsbOptions} {s s' s'' : ProbeRun} {as bs : List Act}
    {t u : List Char} (h : Leads options s as t s') (h' : Leads options s' bs u s'') :
    Leads options s (as ++ bs) (t ++ u) s'' := by
  refine ⟨h'.kept ∘ h.kept, h'.handle.trans h.handle, ?_, fun hplain => ?_⟩
  · rw [h'.acts, h.acts, List.filter_append, List.append_assoc]
  · obtain ⟨hfirst, hfirstText⟩ := h.text hplain
    obtain ⟨hsecond, hsecondText⟩ := h'.text hfirst
    refine ⟨hsecond, ?_⟩
    rw [hsecondText, hfirstText, List.append_assoc]

theorem leads_act {options : UsbOptions} (s : ProbeRun) {a : Act} (h : a.made options = true) :
    Leads options s [a] [] (s.act a) := by
  refine ⟨id, rfl, ?_, fun h => ⟨h, (List.append_nil _).symm⟩⟩
  rw [List.filter_cons_of_pos h]
  rfl

variable (errorName : Int → String) (options : Args.AppOptions)

/-- What is printed of a transfer: the line of the packet received, if any. -/
def lineOf (options : UsbOptions) (line : List UInt8 → List Char) (t : Transferred) : List Char :=
  if received options t = [] then [] else line (received options t)

/-- **A read** of the probe. -/
theorem readAndPrint_open {print : Stream → List UInt8 → Stream} {line : List UInt8 → List Char}
    (hprint : ∀ packet, Stream.Writes (print · packet) (line packet)) {s : ProbeRun}
    (hopen : s.world.now.device.handle ≠ none) (t : Transferred) :
    ∃ s' : ProbeRun, Leads options.usb s [.read t] (lineOf options.usb line t) s' ∧
      s'.world.now.running = s.world.now.running ∧
      readAndPrint errorName options print s t = (s',
        if Readable options.usb t then .ok () else .error (readError options.usb errorName t)) := by
  obtain ⟨device, hhandle, hread⟩ := readInput_open options.usb errorName hopen t
  have hkept : s.world.Holds Singles Kept →
      (s.world.step (·.setDevice device)).Holds Singles Kept := fun hw =>
    kept_step hw (·.setDevice device) (hw.now.setDevice hhandle)
  let s1 : ProbeRun := { s with
    world := s.world.step (·.setDevice device)
    acts := s.acts ++ [Act.read t].filter (Act.made options.usb) }
  have hleads : Leads options.usb s [.read t] [] s1 :=
    ⟨hkept, hhandle, rfl, fun h => ⟨h, (List.append_nil _).symm⟩⟩
  -- what is recorded is the transfer, if it is made
  have hrecord : (if reads options s.world.now.device then s.act (.read t) else s) =
      { s with acts := s.acts ++ [Act.read t].filter (Act.made options.usb) } := by
    have hsome : s.world.now.device.handle.isSome = true := Option.isSome_iff_ne_none.2 hopen
    have hreads : reads options s.world.now.device = (Act.read t).made options.usb := by
      rw [reads, hsome, Bool.true_and, Act.made]
    rw [hreads]
    cases hmade : (Act.read t).made options.usb with
    | true => simp [hmade, ProbeRun.act]
    | false => simp [hmade]
  unfold readAndPrint
  rw [hread, hrecord]
  by_cases hreadable : Readable options.usb t
  · simp only [if_pos hreadable]
    by_cases hnil : received options.usb t = []
    · rw [hnil, lineOf, if_pos hnil]
      exact ⟨s1, hleads, rfl, rfl⟩
    · rw [lineOf, if_neg hnil, if_neg (by simpa using hnil)]
      exact ⟨{ s1 with cout := print s1.cout (received options.usb t) },
        ⟨hkept, hhandle, rfl, hprint _ s.cout⟩, rfl, rfl⟩
  · simp only [if_neg hreadable]
    have hnil : received options.usb t = [] := if_neg fun h => hreadable ⟨h.1, .inl h.2⟩
    rw [lineOf, if_pos hnil]
    exact ⟨s1, hleads, rfl, rfl⟩

/-! ## Cycles -/

/-- The act goes well. -/
def Act.done (options : UsbOptions) : Act → Bool
  | .write payload t => decide (¬ t.rc.val < 0 ∧ t.data.length = payload.length)
  | .read t => decide (Readable options t)
  | .sleep _ => true

/-- What is thrown where it does not. -/
def Act.error (errorName : Int → String) (options : UsbOptions) : Act → String
  | .write _ t =>
    if t.rc.val < 0 then checkMessage errorName "USB output transfer failed" t.rc
    else "USB output transfer was short"
  | .read t => readError options errorName t
  | .sleep _ => ""

def responseLine (packet : List UInt8) : List Char :=
  "RX ".toList ++ (hexDump packet).toList ++ ['\n']

def Act.printed (options : UsbOptions) : Act → List Char
  | .read t => lineOf options responseLine t
  | _ => []

/-- The acts of a cycle behind its write. -/
def responseActs (options : Args.AppOptions) (index : Nat) (response : Transferred) : List Act :=
  (if options.stream then [.read response] else []) ++
    if (index + 1 : Int) < options.writeRepeat ∧ options.writeIntervalMs > 0 then
      [.sleep options.writeIntervalMs]
    else []

def cycleActs (options : Args.AppOptions) (cycle : Nat × CycleEnv) : List Act :=
  .write options.writePayload cycle.2.write :: responseActs options cycle.1 cycle.2.response

/-- The acts of a write probe in which everything goes well. -/
def plan (options : Args.AppOptions) (env : Nat → CycleEnv) : List Act :=
  (cyclesOf options env).flatMap (cycleActs options)

theorem printResponse_text (packet : List UInt8) :
    Stream.Writes (printResponse · packet) (responseLine packet) := by
  rintro s ⟨hbase, hwidth⟩
  refine ⟨⟨hbase, rfl⟩, ?_⟩
  simp [printResponse, Stream.putText, hwidth, responseLine]

theorem writeOutput_open {device : UsbDevice} (hopen : device.handle ≠ none)
    (hout : options.usb.outputEndpoint ≠ 0) (payload : List UInt8) (t : Transferred) :
    writeOutput errorName options.usb device payload t = (some payload,
      if (Act.write payload t).done options.usb then .ok ()
      else .error ((Act.write payload t).error errorName options.usb)) := by
  have hsome : device.handle.isNone = false := by
    rw [Option.isNone_eq_false_iff, Option.isSome_iff_ne_none]
    exact hopen
  unfold writeOutput
  rw [hsome]
  simp only [Bool.false_eq_true, if_false, if_neg hout, Act.done, Act.error, decide_eq_true_eq]
  by_cases hneg : t.rc.val < 0
  · rw [if_pos hneg, if_neg fun h => h.1 hneg, if_pos hneg]
  · by_cases hlength : t.data.length = payload.length
    · rw [if_neg hneg, if_neg (not_not_intro hlength), if_pos ⟨hneg, hlength⟩]
    · rw [if_neg hneg, if_pos hlength, if_neg fun h => hlength h.2, if_neg hneg]

/-- What a part of a cycle has done: all its acts, or those up to the first that failed. -/
def Performs (errorName : Int → String) (options : Args.AppOptions) (acts : List Act)
    (s s' : ProbeRun) (result : Except String Unit) : Prop :=
  Leads options.usb s (Retry.upTo (Act.done options.usb) acts)
      ((Retry.upTo (Act.done options.usb) acts).flatMap (Act.printed options.usb)) s' ∧
    result = match acts.find? (!Act.done options.usb ·) with
      | none => .ok ()
      | some act => .error (act.error errorName options.usb)

section
variable {errorName options} {as bs : List Act} {s s' s'' : ProbeRun} {result : Except String Unit}

theorem performs_nil (s : ProbeRun) : Performs errorName options [] s s (.ok ()) :=
  ⟨.refl _ s, rfl⟩

theorem performs_one {a : Act} (h : Leads options.usb s [a] (a.printed options.usb) s')
    (hresult : result =
      if a.done options.usb then .ok () else .error (a.error errorName options.usb)) :
    Performs errorName options [a] s s' result := by
  refine ⟨?_, ?_⟩
  · simpa [Retry.upTo] using h
  · rw [hresult]
    cases hdone : a.done options.usb <;> simp [hdone]

theorem Performs.all_done (h : Performs errorName options as s s' (.ok ())) :
    as.find? (!Act.done options.usb ·) = none := by
  have hresult := h.2
  cases hfind : as.find? (!Act.done options.usb ·) with
  | none => rfl
  | some a =>
    rw [hfind] at hresult
    cases hresult

theorem Performs.append (h : Performs errorName options as s s' (.ok ()))
    (h' : Performs errorName options bs s' s'' result) :
    Performs errorName options (as ++ bs) s s'' result := by
  have hnone := h.all_done
  have hleads := h.1
  rw [Retry.upTo_eq_self hnone] at hleads
  refine ⟨?_, ?_⟩
  · rw [Retry.upTo_append hnone, List.flatMap_append]
    exact hleads.trans h'.1
  · rw [List.find?_append, hnone]
    exact h'.2

theorem Performs.append_failed {what : String}
    (h : Performs errorName options as s s' (.error what)) :
    Performs errorName options (as ++ bs) s s' (.error what) := by
  have hresult := h.2
  cases hfind : as.find? (!Act.done options.usb ·) with
  | none =>
    rw [hfind] at hresult
    cases hresult
  | some a =>
    rw [hfind] at hresult
    refine ⟨?_, ?_⟩
    · rw [Retry.upTo_append_of_failed hfind]
      exact h.1
    · rw [List.find?_append, hfind]
      exact hresult

end

theorem response_open {s : ProbeRun} (hopen : s.world.now.device.handle ≠ none)
    (response : Transferred) :
    let read := if options.stream then readAndPrint errorName options printResponse s response
      else (s, .ok ())
    Performs errorName options (if options.stream then [.read response] else []) s read.1 read.2 := by
  cases options.stream with
  | false => exact performs_nil s
  | true =>
    obtain ⟨s', hleads, -, hread⟩ :=
      readAndPrint_open errorName options printResponse_text hopen response
    simp only [if_true, hread]
    exact performs_one hleads (by simp [Act.done, Act.error])

theorem respond_open {s : ProbeRun} (hopen : s.world.now.device.handle ≠ none) (index : Nat)
    (response : Transferred) :
    Performs errorName options (responseActs options index response) s
      (respond errorName options s index response).1
      (respond errorName options s index response).2 := by
  have hresponse := response_open errorName options hopen response
  unfold respond responseActs
  simp only at hresponse ⊢
  generalize (if options.stream then readAndPrint errorName options printResponse s response
    else (s, .ok ())) = read at *
  obtain ⟨s', result⟩ := read
  cases result with
  | error what => exact hresponse.append_failed
  | ok u =>
    refine hresponse.append ?_
    split
    · exact performs_one (leads_act s' rfl) rfl
    · exact performs_nil s'

/-- **A cycle** on an open device. -/
theorem writeCycle_open {s : ProbeRun} (hopen : s.world.now.device.handle ≠ none)
    (hout : options.usb.outputEndpoint ≠ 0) (cycle : Nat × CycleEnv) :
    match writeCycle errorName options s cycle with
    | .again s' => Performs errorName options (cycleActs options cycle) s s' (.ok ())
    | .exit s' what => Performs errorName options (cycleActs options cycle) s s' (.error what) := by
  obtain ⟨index, env⟩ := cycle
  have hwrite : Performs errorName options [.write options.writePayload env.write] s
      (s.act (.write options.writePayload env.write)) _ :=
    performs_one (leads_act s rfl) rfl
  unfold writeCycle cycleActs
  simp only [writeOutput_open errorName options hopen hout, Option.elim_some]
  generalize (if (Act.write options.writePayload env.write).done options.usb then Except.ok ()
    else .error ((Act.write options.writePayload env.write).error errorName options.usb)) = written
    at hwrite ⊢
  cases written with
  | error what => exact hwrite.append_failed
  | ok u =>
    have hrespond := respond_open errorName options
      (s := s.act (.write options.writePayload env.write)) hopen index env.response
    generalize respond errorName options (s.act (.write options.writePayload env.write)) index
      env.response = responded at hrespond ⊢
    obtain ⟨s', result⟩ := responded
    cases result with
    | error what => exact hwrite.append hrespond
    | ok u => exact hwrite.append hrespond

end Probe
