import S4Bridge.Args.Proof.HexDump
import S4Bridge.Probe.Proof.Runs

/-!
# What the probe prints

* `stream_probe`: a probe that streams prints a line for each packet that is not empty, until a signal
  comes or `read_input` throws; a device that is gone does not end it.
* `stream_readable`: what such a probe has printed determines what it listed and what it received.
-/

namespace Probe

open Device Startup Formatted Bridge Args

variable (errorName : Int → String) (options : Args.AppOptions)

/-! ## Streams -/

/-- The packet a turn prints, if any. -/
def packetOf (options : UsbOptions) (x : StreamInput) : Option (List UInt8) :=
  if x.signalled ∨ received options x.transfer = [] then none else some (received options x.transfer)

/-- The packets a stream receives. -/
def streamed (options : UsbOptions) (turns : List StreamInput) : List (List UInt8) :=
  (Retry.upTo (goesOn options) turns).filterMap (packetOf options)

theorem flatMap_streamLine (usb : UsbOptions) (turns : List StreamInput) :
    turns.flatMap (streamLine usb) = (turns.filterMap (packetOf usb)).flatMap packetLine := by
  induction turns with
  | nil => rfl
  | cons x turns ih =>
    rw [List.flatMap_cons, ih, List.filterMap_cons]
    unfold streamLine packetOf lineOf
    cases x.signalled with
    | true => simp
    | false =>
      by_cases hnil : received usb x.transfer = []
      · simp [hnil]
      · simp [hnil]

/-- The options ask for a stream. -/
structure Streams (options : Args.AppOptions) : Prop where
  payload : options.writePayload = []
  stream : options.stream = true

theorem streamProbe_opens {s : ProbeRun} (hs : s.world.Holds Sound Closed)
    (hrunning : s.world.now.running = true) (hplain : s.cout.Plain) {x : ProbeInput}
    (hopens : Opens options.usb x.openEnv ∧ Configures options.usb x.openEnv)
    (turns : List StreamInput) :
    (streamProbe errorName options s x turns).1.acts =
        s.acts ++ madeActs options.usb
          ((Retry.upTo (goesOn options.usb) turns).flatMap streamActs) ∧
      (streamProbe errorName options s x turns).1.cout.text =
        s.cout.text ++ (streamed options.usb turns).flatMap packetLine ∧
      (streamProbe errorName options s x turns).2 =
        (turns.find? (!goesOn options.usb ·)).map (streamExit errorName options.usb) := by
  unfold streamProbe
  rcases openDevice_cases errorName options hs x.openEnv with
    ⟨w, hopen, -, -, hhandle, hsame⟩ | ⟨w, what, hopen, hnot, -⟩
  · rw [hopen]
    obtain ⟨hleads, hends⟩ := streamLoop_open errorName options
      (s := { s with world := w }) hhandle (hsame.trans hrunning) turns
    obtain ⟨-, htext⟩ := hleads.text hplain
    have hacts := hleads.acts
    rw [flatMap_streamLine] at htext
    simp only
    generalize Retry.run (streamTurn errorName options) _ _ = run at hends htext hacts ⊢
    obtain ⟨s', how⟩ := run
    cases how with
    | none => exact ⟨hacts, htext, hends⟩
    | some exit => exact ⟨hacts, htext, hends⟩
  · exact absurd hopens hnot

/-- A probe that streams does so behind its listing. -/
theorem runProbe_streams (hstreams : Streams options) {x : ProbeInput} (hstarted : Started options x)
    (turns : List StreamInput) :
    ∃ s : ProbeRun, s.world.Holds Sound Closed ∧ s.world.now.running = true ∧ s.cout.Plain ∧
      s.cout.text = listingText options x.deviceList ∧ s.acts = [] ∧
      runProbe errorName options x turns = streamProbe errorName options s x turns := by
  obtain ⟨devices, hdevices⟩ := hstarted.listed
  obtain ⟨s, hclosed, hrunning, hplain, htext, hacts, hrun⟩ :=
    runProbe_listed errorName options hstarted.context hdevices turns
  rw [hstreams.payload, hstreams.stream] at hrun
  exact ⟨s, hclosed, hrunning, hplain, htext, hacts, hrun⟩

/-- **A stream** ends with the first signal or the first call of `read_input` that throws, which a device
that is gone does not make it do, and has printed a line for each packet until then. Each of the calls
makes a transfer, but for one that is refused for the report size. -/
theorem stream_probe (hstreams : Streams options) {x : ProbeInput} (hstarted : Started options x)
    (turns : List StreamInput) :
    let run := runProbe errorName options x turns
    run.1.acts = madeActs options.usb ((Retry.upTo (goesOn options.usb) turns).flatMap streamActs) ∧
    run.1.cout.text = listingText options x.deviceList ++
      (streamed options.usb turns).flatMap packetLine ∧
    run.2 = (turns.find? (!goesOn options.usb ·)).map (streamExit errorName options.usb) := by
  intro run
  obtain ⟨s, hclosed, hrunning, hplain, htext, hacts, hrun⟩ :=
    runProbe_streams errorName options hstreams hstarted turns
  have hspec := streamProbe_opens errorName options hclosed hrunning hplain
    ⟨hstarted.opens, hstarted.configures⟩ turns
  rw [hacts, List.nil_append, htext] at hspec
  simp only [run, hrun]
  exact hspec

/-! ### A device that is gone for a while -/

def streamOptions : Args.AppOptions := { twoCycles with writePayload := [] }

theorem started_stream : Started streamOptions probeInput :=
  ⟨started_probeInput.context, started_probeInput.listed,
    started_probeInput.opens, started_probeInput.configures⟩

def goneTurns : List StreamInput := [
  ⟨false, ⟨.ok, [0x01, 0xFF]⟩⟩, ⟨false, ⟨⟨libusbErrorNoDevice, by decide⟩, []⟩⟩,
  ⟨false, ⟨⟨libusbErrorTimeout, by decide⟩, []⟩⟩, ⟨false, ⟨.ok, [0x02]⟩⟩]

/-- The stream goes on, and ends with a signal. -/
theorem stream_probe_gone :
    (runProbe (fun _ => "") streamOptions probeInput goneTurns).2 = none ∧
    (runProbe (fun _ => "") streamOptions probeInput
      (goneTurns ++ [⟨true, ⟨.ok, []⟩⟩])).2 = some (.returned 0) := by
  have hstreams : Streams streamOptions := ⟨rfl, rfl⟩
  obtain ⟨-, -, hgone⟩ := stream_probe (fun _ => "") streamOptions hstreams started_stream goneTurns
  obtain ⟨-, -, hsignal⟩ := stream_probe (fun _ => "") streamOptions hstreams started_stream
    (goneTurns ++ [⟨true, ⟨.ok, []⟩⟩])
  exact ⟨hgone.trans (by decide), hsignal.trans (by decide)⟩

/-! ## Lines -/

theorem mem_hexDump {bytes : List UInt8} {c : Char} (h : c ∈ (hexDump bytes).toList) :
    c = ' ' ∨ ∃ b, c ∈ hexWord b := by
  cases bytes with
  | nil =>
    rw [hexDump, hexDumpLoop, String.toList_ofList] at h
    cases h
  | cons byte rest =>
    rw [hexDump_cons] at h
    rcases List.mem_append.1 h with h | h
    · exact .inr ⟨byte, h⟩
    · obtain ⟨b, -, hb⟩ := List.mem_flatMap.1 h
      rcases List.mem_cons.1 hb with rfl | hb
      · exact .inl rfl
      · exact .inr ⟨b, hb⟩

theorem newline_notMem_hexDump (bytes : List UInt8) : '\n' ∉ (hexDump bytes).toList := by
  intro h
  rcases mem_hexDump h with h | ⟨b, hb⟩
  · exact absurd h (by decide)
  · exact absurd (isSpace_hexWord hb) (by decide)

theorem hexDump_injective : Function.Injective fun bytes => (hexDump bytes).toList := by
  intro as bs h
  have htext : hexDump as = hexDump bs := String.toList_inj.1 h
  have hnil : ∀ {bytes : List UInt8}, hexDump [] = hexDump bytes → bytes = [] := by
    intro bytes hbytes
    by_contra hne
    have hparsed := parseHexBytes_hexDump hne
    have hfails : (parseHexBytes (hexDump [])).toOption = none := by decide +kernel
    rw [hbytes, hparsed] at hfails
    cases hfails
  by_cases has : as = []
  · subst has
    exact (hnil htext).symm
  · by_cases hbs : bs = []
    · subst hbs
      exact hnil htext.symm
    · have hread := parseHexBytes_hexDump has
      rw [htext, parseHexBytes_hexDump hbs] at hread
      exact (Except.ok.inj hread).symm

/-- The line of a packet. -/
def packetCode : Code (List UInt8) :=
  .line (fun bytes => (hexDump bytes).toList) newline_notMem_hexDump hexDump_injective

theorem text_packetCode : packetCode.text = packetLine := rfl

/-- No digit is that of a listing. -/
theorem found_notMem_hexWord (b : UInt8) : 'F' ∉ hexWord b := by
  have hall : ∀ n < 256, 'F' ∉ (Nat.toDigits 16 n).leftpad 2 '0' := by decide +kernel
  exact hall b.toNat b.toNat_lt

/-- The lines of a stream are none of the listing. -/
theorem noDevice_lines {packets : List (List UInt8)} (h : ∀ packet ∈ packets, packet ≠ []) :
    NoDevice (packets.flatMap packetLine) := by
  cases packets with
  | nil => exact noDevice_nil
  | cons packet packets =>
    obtain ⟨b, bytes, rfl⟩ := List.exists_cons_of_ne_nil (h packet (.head _))
    obtain ⟨c, cs, hword⟩ := List.exists_cons_of_ne_nil (hexWord_digits b).1
    have hc : c ∈ hexWord b := by
      rw [hword]
      exact .head _
    have htext : ∃ rest, ((b :: bytes) :: packets).flatMap packetLine = c :: rest := by
      rw [List.flatMap_cons, packetLine, hexDump_cons, hword]
      exact ⟨_, rfl⟩
    obtain ⟨rest, hrest⟩ := htext
    rw [hrest]
    refine ⟨fun hspace => ?_, fun hfound => ?_⟩
    · obtain rfl : ' ' = c := (List.cons_prefix_cons.1 hspace).1
      exact absurd (isSpace_hexWord hc) (by decide)
    · obtain rfl : 'F' = c := (List.cons_prefix_cons.1 hfound).1
      exact found_notMem_hexWord b hc

theorem ne_nil_of_mem_streamed {usb : UsbOptions} {turns : List StreamInput}
    {packet : List UInt8} (h : packet ∈ streamed usb turns) : packet ≠ [] := by
  obtain ⟨x, -, hx⟩ := List.mem_filterMap.1 h
  unfold packetOf at hx
  split at hx
  · cases hx
  · rename_i hnot
    obtain rfl := Option.some.inj hx
    exact fun hnil => hnot (.inr hnil)

/-- What a probe has listed. -/
def found (options : Args.AppOptions) (x : ProbeInput) : List FoundDevice :=
  match x.deviceList with
  | .error _ => []
  | .ok devices => devices.filterMap (listed options.usb)

theorem streams_text {options : Args.AppOptions} (hstreams : Streams options) {x : ProbeInput}
    (hstarted : Started options x) (turns : List StreamInput) :
    (runProbe errorName options x turns).1.cout.text =
      listingCode.text (found options x) ++ (streamed options.usb turns).flatMap packetCode.text := by
  obtain ⟨s, hclosed, hrunning, hplain, htext, -, hrun⟩ :=
    runProbe_streams errorName options hstreams hstarted turns
  obtain ⟨-, hspec, -⟩ := streamProbe_opens errorName options hclosed hrunning hplain
    ⟨hstarted.opens, hstarted.configures⟩ turns
  obtain ⟨devices, hdevices⟩ := hstarted.listed
  have hlisting : listingText options x.deviceList = listingCode.text (found options x) := by
    unfold listingText found
    rw [hdevices]
  rw [hrun, hspec, htext, hlisting, text_packetCode]

/-- **What a stream has printed** determines what the probe has listed and the packets it has
received. -/
theorem stream_readable {options options' : Args.AppOptions} (hstreams : Streams options)
    (hstreams' : Streams options') {x x' : ProbeInput} (hstarted : Started options x)
    (hstarted' : Started options' x') (turns turns' : List StreamInput) :
    (runProbe errorName options x turns).1.cout.text =
        (runProbe errorName options' x' turns').1.cout.text ↔
      found options x = found options' x' ∧
        streamed options.usb turns = streamed options'.usb turns' := by
  rw [streams_text errorName hstreams hstarted, streams_text errorName hstreams' hstarted']
  constructor
  · intro h
    obtain ⟨hfound, hlines⟩ := listingCode.read
      (noDevice_lines fun _ => ne_nil_of_mem_streamed)
      (noDevice_lines fun _ => ne_nil_of_mem_streamed) h
    refine ⟨hfound, packetCode.flatMap_inj (fun _ => trivial) (fun bytes => ?_) hlines⟩
    exact fun hnil => absurd (congrArg List.length hnil) (by simp [packetCode, Code.line])
  · rintro ⟨hfound, hpackets⟩
    rw [hfound, hpackets]

/-- The packets printed are those around the time the device was gone. -/
theorem stream_readable_gone :
    (runProbe (fun _ => "") streamOptions probeInput goneTurns).1.cout.text =
      (runProbe (fun _ => "") streamOptions probeInput
        [⟨false, ⟨.ok, [0x01, 0xFF]⟩⟩, ⟨false, ⟨.ok, [0x02]⟩⟩]).1.cout.text :=
  (stream_readable (fun _ => "") ⟨rfl, rfl⟩ ⟨rfl, rfl⟩ started_stream started_stream goneTurns
    [⟨false, ⟨.ok, [0x01, 0xFF]⟩⟩, ⟨false, ⟨.ok, [0x02]⟩⟩]).2 ⟨rfl, by decide⟩

end Probe
