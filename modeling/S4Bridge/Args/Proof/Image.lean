import S4Bridge.Args.Proof.HexDump
import S4Bridge.Args.Proof.Order

/-!
# The options that can be given

`commandLine` is a command line for given options: each number as a hexadecimal numeral, the payload
as `hex_dump` prints it. It is parsed to these options if they pass the checks and fit the parsers'
types (`Expressible`, `parseArgs_commandLine`); and no command line gives others (`parseArgs_image`).
-/

namespace Args

open Formatted Numerals

/-! ## Numbers -/

/-- A number that `stoi` can return. -/
def Fits32 (n : Int) : Prop := -0x80000000 ≤ n ∧ n ≤ 0x7FFFFFFF

def hexText (n : Int) : String :=
  String.ofList ((if n < 0 then ['-'] else []) ++ '0' :: 'x' :: Nat.toDigits 16 n.natAbs)

theorem scan_hexText (n : Int) :
    scan 0 (hexText n).toList = some ⟨decide (n < 0), n.natAbs, []⟩ := by
  obtain ⟨hdigits, hvalue⟩ := toDigits_read (by decide : 2 ≤ 16) (Nat.le_refl 16) n.natAbs
  have hunsigned : Unsigned 0 ('0' :: 'x' :: Nat.toDigits 16 n.natAbs) n.natAbs := by
    have hread := Unsigned.hex (x := 'x') (.inl rfl : 0 = 0 ∨ 0 = 16) (.inl rfl) hdigits
    rwa [hvalue] at hread
  rw [hexText, String.toList_ofList]
  refine @scan_unsigned 0 _ n.natAbs (by decide) [] _ (fun c hc => by cases hc) hunsigned _ ?_
  by_cases hneg : n < 0
  · exact .inr ⟨if_pos hneg, decide_eq_true hneg⟩
  · exact .inl ⟨.inl (if_neg hneg), decide_eq_false hneg⟩

theorem value_hexText (n : Int) : (Numeral.mk (decide (n < 0)) n.natAbs []).value = n := by
  unfold Numeral.value
  simp only [decide_eq_true_eq]
  split <;> omega

theorem parseI32_hexText {n : Int} (h : Fits32 n) : parseI32 (hexText n) = .ok n := by
  obtain ⟨hlow, hhigh⟩ := h
  rw [parseI32, stoi, scan_hexText]
  simp only [value_hexText]
  rw [if_neg (by omega)]

theorem stoul_hexText {n : Nat} (h : n ≤ 0xFFFF) :
    stoul 0 (hexText n).toList = .ok (UInt64.ofNat n) := by
  have hpos : ¬ (n : Int) < 0 := by omega
  rw [stoul, scan_hexText]
  simp only [Int.natAbs_natCast, decide_eq_false hpos, Bool.false_eq_true, if_false]
  rw [if_neg (by omega)]

theorem parseU16_hexText (v : UInt16) : parseU16 (hexText v.toNat) = .ok v := by
  have hlt := v.toNat_lt
  rw [parseU16, stoul_hexText (by omega)]
  exact congrArg Except.ok (by simp)

theorem parseU8_hexText (v : UInt8) : parseU8 (hexText v.toNat) = .ok v := by
  have hlt := v.toNat_lt
  rw [parseU8, stoul_hexText (by omega)]
  exact congrArg Except.ok (by simp)

theorem parseChecked_hexText {valid : Int → Bool} {n : Int} (hfits : Fits32 n)
    (hvalid : valid n = true) (what : String) : parseChecked valid what (hexText n) = .ok n := by
  rw [parseChecked, parseI32_hexText hfits]
  exact if_pos hvalid

/-! ## The command line of some options -/

def modeText : Mode → String
  | .probe => "probe"
  | .bridge => "bridge"

open Protocol in
def decodeText : InputDecodeMode → String
  | .byte => "byte"
  | .bit => "bit"
  | .hybrid => "hybrid"

/-- The number of `int` whose bits are the given ones. -/
def signed (n : UInt32) : Int := if n.toNat < 0x80000000 then n.toNat else n.toNat - 0x100000000

/-- A group, if the flag is to be given. -/
def given (p : Prop) [Decidable p] (g : Group) : List Group := if p then [g] else []

/-- A flag with a number. -/
def numberGroup (flag : String) (n : Int) : Group := ⟨flag, some (hexText n)⟩

def usbGroups (usb : Device.UsbOptions) : List Group := [
  numberGroup "--vid" usb.vendorId.toNat,
  numberGroup "--pid" usb.productId.toNat,
  numberGroup "--interface" usb.interfaceNumber,
  numberGroup "--alt-setting" usb.alternateSetting,
  numberGroup "--in-ep" usb.inputEndpoint.toNat,
  numberGroup "--out-ep" usb.outputEndpoint.toNat,
  numberGroup "--report-size" usb.reportSize,
  numberGroup "--timeout-ms" (signed usb.timeoutMs)]

def optionGroups (o : AppOptions) : List Group := [
  numberGroup "--write-repeat" o.writeRepeat,
  numberGroup "--write-interval-ms" o.writeIntervalMs,
  numberGroup "--midi-channel" (o.midiBaseChannel.toNat + 1),
  numberGroup "--input-deadzone" o.inputDeadzone.toNat,
  ⟨"--input-decode", some (decodeText o.inputDecodeMode)⟩]

def switchGroups (o : AppOptions) : List Group :=
  given (o.stream = true) ⟨"--stream", none⟩ ++
  given (o.rawSysex = true) ⟨"--raw-sysex", none⟩ ++
  given (o.inputDebug = true) ⟨"--input-debug", none⟩ ++
  given (o.inputDebugButtonsOnly = true) ⟨"--input-debug-buttons", none⟩ ++
  given (o.writePayload ≠ []) ⟨"--write-hex", some (hexDump o.writePayload)⟩

def commandLine (o : AppOptions) : List String :=
  "s4_mk1_usb2midi" :: modeText o.mode ::
    (usbGroups o.usb ++ optionGroups o ++ switchGroups o).flatMap Group.args

/-- The options pass every check, and what is read by `stoi` fits. -/
structure Expressible (o : AppOptions) : Prop extends Valid o where
  ids : o.usb.vendorId ≠ 0 ∧ o.usb.productId ≠ 0
  bridge : o.mode = .bridge → o.usb.inputEndpoint ≠ 0 ∧ 0 < o.usb.reportSize
  buttons : o.inputDebugButtonsOnly = true → o.inputDebug = true
  interface : Fits32 o.usb.interfaceNumber
  altSetting : Fits32 o.usb.alternateSetting
  reportSize : Fits32 o.usb.reportSize
  repeats : Fits32 o.writeRepeat
  interval : Fits32 o.writeIntervalMs

/-! ## The command line parsed -/

/-- The groups are accepted, with the given changes. -/
abbrev Accepted (gs : List Group) (us : List (AppOptions → AppOptions)) : Prop :=
  List.Forall₂ (fun g u => g.update = some u) gs us

theorem parseFlags_accepted {gs : List Group} {us : List (AppOptions → AppOptions)}
    (h : Accepted gs us) (o : AppOptions) :
    parseFlags o (gs.flatMap Group.args) = .ok (us.foldl (fun o u => u o) o) := by
  induction h generalizing o with
  | nil => rfl
  | cons hg _ ih => rw [List.flatMap_cons, parseFlags_group hg, ih, List.foldl_cons]

theorem update_number {flag : String} (f : Flag) (hf : Flag.ofText flag = some f)
    {β : Type*} {parse : String → Except String β} {set : β → AppOptions → AppOptions}
    (haction : f.action = .value fun text => (parse text).map set) {n : Int} {v : β}
    (hparse : parse (hexText n) = .ok v) : (numberGroup flag n).update = some (set v) := by
  simp only [Group.update, numberGroup, hf, Option.map_some, haction, hparse]
  rfl

theorem fits32_signed (n : UInt32) : Fits32 (signed n) := by
  have hlt := n.toNat_lt
  unfold Fits32 signed
  split <;> omega

theorem ofInt_signed (n : UInt32) : UInt32.ofInt (signed n) = n := by
  have hlt := n.toNat_lt
  have hword := toNat_word (signed n)
  have hmod : signed n % 0x100000000 = n.toNat := by
    unfold signed
    split <;> omega
  exact UInt32.toNat_inj.1 (by omega)

theorem accepted_usb {usb : Device.UsbOptions} (hinterface : Fits32 usb.interfaceNumber)
    (halt : Fits32 usb.alternateSetting) (hreport : Fits32 usb.reportSize) :
    ∃ us, Accepted (usbGroups usb) us ∧ ∀ o, us.foldl (fun o u => u o) o = { o with usb := usb } := by
  refine ⟨_, .cons (update_number .vid (by decide) rfl (parseU16_hexText _))
    (.cons (update_number .pid (by decide) rfl (parseU16_hexText _))
    (.cons (update_number .interface (by decide) rfl (parseI32_hexText hinterface))
    (.cons (update_number .altSetting (by decide) rfl (parseI32_hexText halt))
    (.cons (update_number .inEp (by decide) rfl (parseU8_hexText _))
    (.cons (update_number .outEp (by decide) rfl (parseU8_hexText _))
    (.cons (update_number .reportSize (by decide) rfl (parseI32_hexText hreport))
    (.cons (update_number .timeoutMs (by decide) rfl (parseI32_hexText (fits32_signed _))) .nil))))))), fun o => ?_⟩
  simp only [List.foldl_cons, List.foldl_nil, ofInt_signed]

/-- The options of `optionGroups`, taken from others. -/
def AppOptions.withOptions (o o' : AppOptions) : AppOptions :=
  { o with
    writeRepeat := o'.writeRepeat
    writeIntervalMs := o'.writeIntervalMs
    midiBaseChannel := o'.midiBaseChannel
    inputDeadzone := o'.inputDeadzone
    inputDecodeMode := o'.inputDecodeMode }

theorem update_decode (mode : Protocol.InputDecodeMode) :
    (Group.mk "--input-decode" (some (decodeText mode))).update =
      some fun o => { o with inputDecodeMode := mode } := by
  cases mode <;> rfl

theorem accepted_options {o : AppOptions} (h : Expressible o) :
    ∃ us, Accepted (optionGroups o) us ∧
      ∀ start : AppOptions, us.foldl (fun o u => u o) start = start.withOptions o := by
  have hchannel := h.midiBaseChannel
  have hdeadzone := h.inputDeadzone
  have hrepeat := h.writeRepeat
  have hinterval := h.writeIntervalMs
  have hchannelFits : Fits32 (o.midiBaseChannel.toNat + 1) := by constructor <;> omega
  have hdeadzoneFits : Fits32 o.inputDeadzone.toNat := by constructor <;> omega
  have hbase : UInt8.ofInt ((o.midiBaseChannel.toNat : Int) + 1 - 1) = o.midiBaseChannel := by
    have hbyte := toNat_byte ((o.midiBaseChannel.toNat : Int) + 1 - 1)
    exact UInt8.toNat_inj.1 (by omega)
  have hzone : UInt8.ofInt o.inputDeadzone.toNat = o.inputDeadzone := by
    have hbyte := toNat_byte o.inputDeadzone.toNat
    exact UInt8.toNat_inj.1 (by omega)
  refine ⟨_, .cons (update_number .writeRepeat (by decide) rfl
      (parseChecked_hexText h.repeats (decide_eq_true hrepeat) _))
    (.cons (update_number .writeIntervalMs (by decide) rfl
      (parseChecked_hexText h.interval (decide_eq_true hinterval) _))
    (.cons (update_number .midiChannel (by decide) rfl
      (parseChecked_hexText hchannelFits (decide_eq_true (by omega)) _))
    (.cons (update_number .inputDeadzone (by decide) rfl
      (parseChecked_hexText hdeadzoneFits (decide_eq_true (by omega)) _))
    (.cons (update_decode o.inputDecodeMode) .nil)))), fun start => ?_⟩
  simp only [List.foldl_cons, List.foldl_nil, hbase, hzone]
  rfl

theorem update_payload {bytes : List UInt8} (h : bytes ≠ []) :
    (Group.mk "--write-hex" (some (hexDump bytes))).update =
      some fun o => { o with writePayload := bytes } := by
  have hflag : Flag.ofText "--write-hex" = some .writeHex := by decide
  simp only [Group.update, hflag, Option.map_some, Flag.action, parseHexBytes_hexDump h]
  rfl

/-- A flag that is given or left out, where leaving it out changes nothing. -/
theorem accepted_given {p : Prop} [Decidable p] {g : Group} {u : AppOptions → AppOptions}
    (h : p → g.update = some u) :
    ∃ us, Accepted (given p g) us ∧
      ∀ start : AppOptions, us.foldl (fun o u => u o) start = if p then u start else start := by
  unfold given
  split
  · rename_i hp
    exact ⟨[u], .cons (h hp) .nil, fun _ => rfl⟩
  · exact ⟨[], .nil, fun _ => rfl⟩

theorem accepted_append {gs gs' : List Group} {us us' : List (AppOptions → AppOptions)}
    (h : Accepted gs us) (h' : Accepted gs' us') : Accepted (gs ++ gs') (us ++ us') :=
  List.rel_append h h'

/-- The options without what the switches and the payload change. -/
def AppOptions.unswitched (o : AppOptions) : AppOptions :=
  AppOptions.withOptions { mode := o.mode, usb := o.usb } o

theorem accepted_switches {o : AppOptions}
    (hbuttons : o.inputDebugButtonsOnly = true → o.inputDebug = true) :
    ∃ us, Accepted (switchGroups o) us ∧ us.foldl (fun o u => u o) o.unswitched = o := by
  obtain ⟨stream, hstream, hstream'⟩ := accepted_given (p := o.stream = true)
    (g := ⟨"--stream", none⟩) (u := fun o => { o with stream := true }) fun _ => rfl
  obtain ⟨raw, hraw, hraw'⟩ := accepted_given (p := o.rawSysex = true)
    (g := ⟨"--raw-sysex", none⟩) (u := fun o => { o with rawSysex := true }) fun _ => rfl
  obtain ⟨debug, hdebug, hdebug'⟩ := accepted_given (p := o.inputDebug = true)
    (g := ⟨"--input-debug", none⟩) (u := fun o => { o with inputDebug := true }) fun _ => rfl
  obtain ⟨only, honly, honly'⟩ := accepted_given (p := o.inputDebugButtonsOnly = true)
    (g := ⟨"--input-debug-buttons", none⟩)
    (u := fun o => { o with inputDebug := true, inputDebugButtonsOnly := true }) fun _ => rfl
  obtain ⟨payload, hpayload, hpayload'⟩ := accepted_given (p := o.writePayload ≠ [])
    (g := ⟨"--write-hex", some (hexDump o.writePayload)⟩)
    (u := fun s => { s with writePayload := o.writePayload }) update_payload
  refine ⟨_, accepted_append (accepted_append (accepted_append (accepted_append hstream hraw) hdebug)
    honly) hpayload, ?_⟩
  rw [List.foldl_append, List.foldl_append, List.foldl_append, List.foldl_append, hstream', hraw',
    hdebug', honly', hpayload', AppOptions.unswitched]
  obtain ⟨mode, stream, rawSysex, usb, channel, deadzone, decode, inputDebug, buttonsOnly, bytes,
    repeats, interval⟩ := o
  simp only at hbuttons
  simp only [AppOptions.withOptions]
  by_cases hbytes : bytes = []
  · subst hbytes
    cases stream <;> cases rawSysex <;> cases inputDebug <;> cases buttonsOnly <;>
      first | rfl | exact absurd (hbuttons rfl) (by decide)
  · rw [if_pos hbytes]
    cases stream <;> cases rawSysex <;> cases inputDebug <;> cases buttonsOnly <;>
      first | rfl | exact absurd (hbuttons rfl) (by decide)

/-- **A command line for given options** is parsed to them. -/
theorem parseArgs_commandLine {o : AppOptions} (h : Expressible o) :
    parseArgs (commandLine o) = .ok o := by
  obtain ⟨usb, husb, husb'⟩ := accepted_usb h.interface h.altSetting h.reportSize
  obtain ⟨options, hoptions, hoptions'⟩ := accepted_options h
  obtain ⟨switches, hswitches, hswitches'⟩ := accepted_switches h.buttons
  have hmode : parseMode (modeText o.mode) = .ok o.mode := by cases o.mode <;> rfl
  have hflags : parseFlags { mode := o.mode }
      ((usbGroups o.usb ++ optionGroups o ++ switchGroups o).flatMap Group.args) = .ok o := by
    rw [parseFlags_accepted (accepted_append (accepted_append husb hoptions) hswitches),
      List.foldl_append, List.foldl_append, husb', hoptions']
    exact congrArg Except.ok hswitches'
  have hcheck : checkOptions o = .ok o := by
    have hids : ¬ (o.usb.vendorId = 0 ∨ o.usb.productId = 0) := not_or.2 h.ids
    have hbridge : ¬ (o.mode = .bridge ∧ (o.usb.inputEndpoint = 0 ∨ o.usb.reportSize ≤ 0)) := by
      rintro ⟨hmode, hzero⟩
      obtain ⟨hendpoint, hsize⟩ := h.bridge hmode
      rcases hzero with hzero | hzero
      · exact hendpoint hzero
      · omega
    rw [checkOptions, if_neg hids, if_neg hbridge]
  simp only [commandLine, parseArgs, hmode, hflags]
  exact hcheck

/-! ## No other options -/

/-- What is read by `stoi` fits. -/
structure ReadFits (o : AppOptions) : Prop where
  interface : Fits32 o.usb.interfaceNumber
  altSetting : Fits32 o.usb.alternateSetting
  reportSize : Fits32 o.usb.reportSize
  repeats : Fits32 o.writeRepeat
  interval : Fits32 o.writeIntervalMs

theorem fits32_of_parse {text : String} {n : Int} (h : parseI32 text = .ok n) : Fits32 n := by
  obtain ⟨-, -, -, hlow, hhigh⟩ := parseI32_ok h
  exact ⟨hlow, hhigh⟩

theorem changes_fits {f : Flag} {update : AppOptions → AppOptions} (h : f.Changes update)
    (o : AppOptions) (ho : ReadFits o) : ReadFits (update o) := by
  cases f
  case interface =>
    obtain ⟨text, v, hv, rfl⟩ := h.parsed rfl
    exact { ho with interface := fits32_of_parse hv }
  case altSetting =>
    obtain ⟨text, v, hv, rfl⟩ := h.parsed rfl
    exact { ho with altSetting := fits32_of_parse hv }
  case reportSize =>
    obtain ⟨text, v, hv, rfl⟩ := h.parsed rfl
    exact { ho with reportSize := fits32_of_parse hv }
  case writeRepeat =>
    obtain ⟨text, v, hv, rfl⟩ := h.parsed rfl
    exact { ho with repeats := fits32_of_parse (parseChecked_ok hv).1 }
  case writeIntervalMs =>
    obtain ⟨text, v, hv, rfl⟩ := h.parsed rfl
    exact { ho with interval := fits32_of_parse (parseChecked_ok hv).1 }
  case stream | inputDebug | inputDebugButtons | rawSysex =>
    obtain rfl := h
    exact ⟨ho.interface, ho.altSetting, ho.reportSize, ho.repeats, ho.interval⟩
  all_goals
    obtain ⟨text, v, -, rfl⟩ := h.parsed rfl
    exact ⟨ho.interface, ho.altSetting, ho.reportSize, ho.repeats, ho.interval⟩

theorem defaults_fit (mode : Mode) : ReadFits { mode := mode } := by
  constructor
  all_goals cases mode <;> constructor <;> decide

/-- **The options that can be given**: some command line is parsed to them exactly if they pass the
checks and fit the types they are read as; then `commandLine` is one. -/
theorem parseArgs_image (o : AppOptions) :
    ((∃ args, parseArgs args = .ok o) ↔ Expressible o) ∧
      (Expressible o → parseArgs (commandLine o) = .ok o) := by
  refine ⟨⟨fun ⟨args, h⟩ => ?_, fun h => ⟨commandLine o, parseArgs_commandLine h⟩⟩,
    parseArgs_commandLine⟩
  obtain ⟨mode, hflags, -⟩ := parseArgs_ok h
  obtain ⟨hvalid, hvendor, hproduct, hbridge⟩ := parseArgs_valid h
  have hreads := parseFlags_reads hflags
  have hfits := hreads.invariant (fun f update => changes_fits) (defaults_fit mode)
  exact { hvalid with
    ids := ⟨hvendor, hproduct⟩
    bridge := hbridge
    buttons := hreads.invariant (fun f update => changes_debug) fun hfalse => by cases hfalse
    interface := hfits.interface
    altSetting := hfits.altSetting
    reportSize := hfits.reportSize
    repeats := hfits.repeats
    interval := hfits.interval }

end Args
