import S4Bridge.Device.Listing
import S4Bridge.Device.Proof.Handles
import S4Bridge.Lib.Codes

/-!
# What the listing tells

* `printDescriptors_keeps`: printing neither opens nor closes a device and gives back the list and
  every configuration it obtains, each before the next is obtained.
* `printDescriptors_text`: the text printed is a block for each device with the configured ids
  (`listed`), and the blocks can be read back (`deviceCode`).
* `listing_readable`: so two listings with the same text list the same alternate settings and
  endpoints, in the same order.
-/

namespace Device

open Formatted

/-! ## Resources -/

variable (options : UsbOptions)

/-- A device that is listed neither holds a configuration nor is kept. -/
theorem printDevice_keeps {s : History Host × Stream} {list : Option Nat}
    (hw : s.1.Holds Sound (Moment list none)) (d : ListedDevice) :
    (printDevice options s d).1.Holds Sound (Moment list none) ∧
      Same s.1.now (printDevice options s d).1.now := by
  unfold printDevice
  cases d.ids with
  | none => exact ⟨hw, rfl, rfl, rfl⟩
  | some ids =>
    by_cases hids : ids ≠ (options.vendorId, options.productId)
    · simp only [if_pos hids]
      exact ⟨hw, rfl, rfl, rfl⟩
    · simp only [if_neg hids]
      split
      · exact ⟨hw, rfl, rfl, rfl⟩
      · have hconfig := holds_step hw (·.obtainConfig) hw.now.obtainConfig
        have hfree := holds_step hconfig (·.freeConfig s.1.now.configs.length)
          hconfig.now.freeConfig
        exact ⟨hfree, rfl, rfl, rfl⟩

theorem Same.trans {a b c : Host} (hab : Same a b) (hbc : Same b c) : Same a c :=
  ⟨hbc.handle.trans hab.handle, hbc.disconnected.trans hab.disconnected,
    hbc.handles.trans hab.handles⟩

theorem printDevices_keep {s : History Host × Stream} {list : Option Nat}
    (hw : s.1.Holds Sound (Moment list none)) (devices : List ListedDevice) :
    (devices.foldl (printDevice options) s).1.Holds Sound (Moment list none) ∧
      Same s.1.now (devices.foldl (printDevice options) s).1.now := by
  induction devices generalizing s with
  | nil => exact ⟨hw, rfl, rfl, rfl⟩
  | cons d devices ih =>
    obtain ⟨hstep, hsame⟩ := printDevice_keeps options hw d
    obtain ⟨hrest, hsame'⟩ := ih hstep
    exact ⟨hrest, hsame.trans hsame'⟩

/-- **The listing gives back what it obtains**, and leaves the handles alone. -/
theorem printDescriptors_keeps {w : History Host} (hw : w.Holds Sound Quiet) (cout : Stream)
    (list : Except Int (List ListedDevice)) :
    (printDescriptors options w cout list).1.1.Holds Sound Quiet ∧
      Same w.now (printDescriptors options w cout list).1.1.now := by
  unfold printDescriptors
  cases list with
  | error rc => exact ⟨hw, rfl, rfl, rfl⟩
  | ok devices =>
    have hlist := holds_step hw (·.obtainList) hw.now.obtainList
    obtain ⟨hprinted, hsame⟩ := printDevices_keep options
      (s := (w.step (·.obtainList), cout)) hlist devices
    have hfree := holds_step hprinted (·.freeList w.now.lists.length) hprinted.now.freeList
    exact ⟨hfree, hsame.handle, hsame.disconnected, hsame.handles⟩

/-! ## Codes -/

theorem not_prefix_append {p q : List Char} (h : ¬ p <+: q) (hlength : p.length ≤ q.length)
    (s : List Char) : ¬ p <+: q ++ s := fun hp =>
  h (List.prefix_of_prefix_length_le hp (List.prefix_append q s) hlength)

def idBytes (id : UInt16) : UInt8 × UInt8 := ((id >>> 8).toUInt8, (id &&& 0xFF).toUInt8)

theorem idBytes_eq (id : UInt16) :
    (idBytes id).1.toNat = id.toNat / 256 ∧ (idBytes id).2.toNat = id.toNat % 256 := by
  have hid := id.toNat_lt
  have hmask : id.toNat % 256 &&& 255 = id.toNat % 256 := by
    rw [Nat.and_two_pow_sub_one_eq_mod _ 8, Nat.mod_mod]
  constructor
  · simp [idBytes, Nat.shiftRight_eq_div_pow]
    omega
  · simp [idBytes, hmask]

theorem idBytes_injective : Function.Injective idBytes := by
  intro a b h
  obtain ⟨hhigh, hlow⟩ := idBytes_eq a
  obtain ⟨hhigh', hlow'⟩ := idBytes_eq b
  rw [h] at hhigh hlow
  exact UInt16.toNat_inj.1 (by omega)

/-- The digits of an id. -/
def idCode : Code UInt16 :=
  (Code.seq .hex2 .hex2 fun _ _ _ => trivial).map idBytes idBytes_injective

def byteCode (c : Code Nat) : Code UInt8 := c.map UInt8.toNat fun _ _ => UInt8.toNat_inj.1

def EndpointInfo.fields (e : EndpointInfo) : UInt8 × UInt8 × UInt16 × UInt8 :=
  (e.bEndpointAddress, e.bmAttributes, e.wMaxPacketSize, e.bInterval)

theorem EndpointInfo.fields_injective : Function.Injective EndpointInfo.fields := by
  rintro ⟨⟨address, attributes⟩, maxPacket, interval⟩ ⟨⟨address', attributes'⟩, _, _⟩ h
  simp only [EndpointInfo.fields, Prod.mk.injEq] at h
  obtain ⟨rfl, rfl, rfl, rfl⟩ := h
  rfl

/-- The line of an endpoint. -/
def endpointCode : Code EndpointInfo :=
  .lit "    endpoint=0x".toList
    (((Code.seq .hex2
      (.lit " attributes=0x".toList
        (.seq (byteCode .hexadecimal)
          (.lit " max_packet=".toList
            (.seq (Code.decimal.map UInt16.toNat fun _ _ => UInt16.toNat_inj.1)
              (.lit " interval=".toList (byteCode .decimal))
              fun _ _ _ => Code.noDigit_cons (by decide) _))
          fun _ _ _ => Code.noDigit_cons (by decide) _))
      fun _ _ _ => trivial).map EndpointInfo.fields EndpointInfo.fields_injective).tail
      (fun _ => ['\n']) fun _ _ => Code.noDigit_cons (by decide) _)

/-- No line of an endpoint comes next. -/
def NoEndpoint (s : List Char) : Prop := ¬ "    ".toList <+: s

def AltInfo.fields (alt : AltInfo) : (UInt8 × UInt8 × UInt8 × UInt8) × List EndpointInfo :=
  ((alt.bInterfaceNumber, alt.bAlternateSetting, alt.bInterfaceClass, alt.bInterfaceSubClass),
    alt.endpoint)

theorem AltInfo.fields_injective : Function.Injective AltInfo.fields := by
  rintro ⟨number, setting, cls, subclass, endpoint⟩ ⟨_, _, _, _, _⟩ h
  simp only [AltInfo.fields, Prod.mk.injEq] at h
  obtain ⟨⟨rfl, rfl, rfl, rfl⟩, rfl⟩ := h
  rfl

/-- An alternate setting and its endpoints. -/
def altCode : Code AltInfo :=
  .lit "  interface=".toList
    ((Code.seq
      ((Code.seq (byteCode .decimal)
        (.lit " alt=".toList
          (.seq (byteCode .decimal)
            (.lit " class=0x".toList
              (.seq (byteCode .hexadecimal)
                (.lit " subclass=0x".toList (byteCode .hexadecimal))
                fun _ _ _ => Code.noDigit_cons (by decide) _))
            fun _ _ _ => Code.noDigit_cons (by decide) _))
        fun _ _ _ => Code.noDigit_cons (by decide) _).tail
        (fun _ => ['\n']) fun _ _ => Code.noDigit_cons (by decide) _)
      (endpointCode.many NoEndpoint
        (fun _ _ h => h ⟨_, (List.append_assoc ..).symm⟩) (fun _ _ => trivial) fun _ _ => trivial)
      fun _ _ _ => trivial).map AltInfo.fields AltInfo.fields_injective)

theorem text_altCode (alt : AltInfo) (s : List Char) :
    ∃ t, altCode.text alt ++ s = "  interface=".toList ++ t :=
  ⟨_, List.append_assoc ..⟩

/-- No line of a configuration comes next. -/
def NoAlt (s : List Char) : Prop := ¬ "  ".toList <+: s

theorem NoAlt.noEndpoint {s : List Char} (h : NoAlt s) : NoEndpoint s := fun hp =>
  h (List.IsPrefix.trans (by decide) hp)

/-- The ids of a device and its alternate settings. -/
abbrev FoundDevice := (UInt16 × UInt16) × List AltInfo

/-- What is printed for a device. -/
def deviceCode : Code FoundDevice :=
  .lit "Found device vid=0x".toList
    (.seq
      ((Code.seq idCode (.lit " pid=0x".toList idCode) fun _ _ _ => trivial).tail
        (fun _ => ['\n']) fun _ _ => trivial)
      (altCode.many NoAlt
        (fun alt s h => by
          obtain ⟨t, ht⟩ := text_altCode alt s
          rw [ht] at h
          exact h ⟨_, rfl⟩)
        (fun _ h => h.noEndpoint)
        (fun alt s => by
          obtain ⟨t, ht⟩ := text_altCode alt s
          rw [ht]
          exact not_prefix_append (by decide) (by decide) t))
      fun _ _ _ => trivial)

/-- Nothing more of the listing comes next. -/
structure NoDevice (s : List Char) : Prop where
  alt : NoAlt s
  found : ¬ "Found".toList <+: s

theorem noDevice_nil : NoDevice [] :=
  ⟨fun h => absurd (List.IsPrefix.length_le h) (by decide),
    fun h => absurd (List.IsPrefix.length_le h) (by decide)⟩

theorem text_deviceCode (d : FoundDevice) (s : List Char) :
    ∃ t, deviceCode.text d ++ s = "Found".toList ++ (" device vid=0x".toList ++ t) :=
  ⟨_, List.append_assoc ..⟩

/-- The whole listing. -/
def listingCode : Code (List FoundDevice) :=
  deviceCode.many NoDevice
    (fun d s h => by
      obtain ⟨t, ht⟩ := text_deviceCode d s
      rw [ht] at h
      exact h.found ⟨_, rfl⟩)
    (fun _ h => h.alt)
    (fun d s => by
      obtain ⟨t, ht⟩ := text_deviceCode d s
      rw [ht]
      exact not_prefix_append (by decide) (by decide) _)

/-! ## Printing -/

theorem hexByte_text (value : UInt8) :
    hexByte value = "0x".toList ++ Code.hexDigits value := by
  simp [hexByte, Stream.putText, Stream.putNat, Stream.put, Stream.hex, Stream.setw,
    Stream.setfill, List.leftpad, Code.hexDigits]

theorem printEndpoint_text (e : EndpointInfo) :
    Stream.Writes (fun cout => ((cout.putText "    ").put (describeEndpoint e)).endl)
      (endpointCode.text e) := by
  rintro ⟨text, base, fill, width⟩ ⟨hbase, hwidth⟩
  obtain rfl : base = 10 := hbase
  obtain rfl : width = 0 := hwidth
  refine ⟨⟨rfl, rfl⟩, ?_⟩
  simp [describeEndpoint, hexByte_text, Stream.putText, Stream.putNat, Stream.put, Stream.hex,
    Stream.dec, List.leftpad, endpointCode, Code.lit, Code.seq, Code.tail, Code.map, byteCode,
    Code.hex2, Code.fixed, Code.hexadecimal, Code.decimal, Code.number, EndpointInfo.fields]

/-- The first line of an alternate setting. -/
def printAltLine (cout : Stream) (alt : AltInfo) : Stream := printAlt cout { alt with endpoint := [] }

theorem printAltLine_text (alt : AltInfo) :
    Stream.Writes (printAltLine · alt) (altCode.text { alt with endpoint := [] }) := by
  rintro ⟨text, base, fill, width⟩ ⟨hbase, hwidth⟩
  obtain rfl : base = 10 := hbase
  obtain rfl : width = 0 := hwidth
  refine ⟨⟨rfl, rfl⟩, ?_⟩
  simp [printAltLine, printAlt, Stream.putText, Stream.putNat, Stream.put, Stream.hex, Stream.dec,
    List.leftpad, altCode, Code.lit, Code.seq, Code.tail, Code.map, Code.many, byteCode,
    Code.hexadecimal, Code.decimal, Code.number, AltInfo.fields]

theorem text_altCode_endpoint (alt : AltInfo) : altCode.text alt =
    altCode.text { alt with endpoint := [] } ++ alt.endpoint.flatMap endpointCode.text := by
  simp [altCode, Code.lit, Code.seq, Code.map, Code.many, AltInfo.fields]

theorem printAlt_text (alt : AltInfo) :
    Stream.Writes (printAlt · alt) (altCode.text alt) := by
  rw [text_altCode_endpoint]
  exact (Stream.Writes.foldl printEndpoint_text alt.endpoint).comp (printAltLine_text alt)

theorem printFound_text (ids : UInt16 × UInt16) :
    Stream.Writes (printFound · ids) (deviceCode.text (ids, [])) := by
  rintro ⟨text, base, fill, width⟩ ⟨hbase, hwidth⟩
  obtain rfl : width = 0 := hwidth
  refine ⟨⟨hbase, rfl⟩, ?_⟩
  simp [printFound, putId, hexByte_text, Stream.putText, Stream.put, List.leftpad, deviceCode,
    idCode, idBytes, Code.lit, Code.seq, Code.tail, Code.map, Code.many, Code.hex2, Code.fixed]

theorem text_deviceCode_alts (d : FoundDevice) :
    deviceCode.text d = deviceCode.text (d.1, []) ++ d.2.flatMap altCode.text := by
  simp [deviceCode, Code.lit, Code.seq, Code.many]

/-- What the listing says of a device. -/
def listed (options : UsbOptions) (d : ListedDevice) : Option FoundDevice :=
  if d.ids = some (options.vendorId, options.productId) then
    some ((options.vendorId, options.productId), if d.configured then d.config.flatten else [])
  else none

theorem printDevice_text (options : UsbOptions) (w : History Host) (d : ListedDevice) :
    Stream.Writes (fun cout => (printDevice options (w, cout) d).2)
      ((listed options d).elim [] deviceCode.text) := by
  intro cout hcout
  unfold printDevice listed
  cases hids : d.ids with
  | none => exact ⟨hcout, (List.append_nil _).symm⟩
  | some ids =>
    by_cases hsame : ids = (options.vendorId, options.productId)
    · subst hsame
      have hfound := printFound_text (options.vendorId, options.productId)
      rw [if_pos rfl, Option.elim_some, text_deviceCode_alts]
      simp only [ne_eq, not_true_eq_false, if_false]
      by_cases hconfig : d.activeConfigRc.val ≠ 0 ∧ d.configRc.val ≠ 0
      · have hnone : d.configured = false := by
          simpa [ListedDevice.configured] using hconfig
        rw [hnone]
        simpa [hconfig] using hfound cout hcout
      · have hsome : d.configured = true := by
          unfold ListedDevice.configured
          grind
        rw [hsome, if_neg hconfig]
        exact (Stream.Writes.foldl printAlt_text d.config.flatten).comp hfound cout hcout
    · rw [if_neg (by simpa using hsame)]
      simp only [ne_eq, hsame, not_false_eq_true, if_true]
      exact ⟨hcout, (List.append_nil _).symm⟩

theorem printDevices_text (options : UsbOptions) (devices : List ListedDevice)
    (s : History Host × Stream) (h : s.2.Plain) :
    (devices.foldl (printDevice options) s).2.Plain ∧
    (devices.foldl (printDevice options) s).2.text =
      s.2.text ++ listingCode.text (devices.filterMap (listed options)) := by
  induction devices generalizing s with
  | nil => exact ⟨h, (List.append_nil _).symm⟩
  | cons d devices ih =>
    obtain ⟨hfirst, hfirstText⟩ := printDevice_text options s.1 d s.2 h
    obtain ⟨hrest, hrestText⟩ := ih (printDevice options s d) hfirst
    refine ⟨hrest, ?_⟩
    rw [List.foldl_cons, hrestText, hfirstText, List.append_assoc, List.filterMap_cons]
    cases listed options d <;> rfl

/-- **What is printed**: a block for each device with the configured ids. -/
theorem printDescriptors_text (options : UsbOptions) (w : History Host) {cout : Stream}
    (h : cout.Plain) (devices : List ListedDevice) :
    (printDescriptors options w cout (.ok devices)).1.2.Plain ∧
    (printDescriptors options w cout (.ok devices)).1.2.text =
      cout.text ++ listingCode.text (devices.filterMap (listed options)) :=
  printDevices_text options devices (w.step (·.obtainList), cout) h

/-- **The listing can be read back**: two listings have the same text exactly if they list the same
ids, alternate settings and endpoints in the same order. -/
theorem listing_readable (options options' : UsbOptions) (w w' : History Host)
    (devices devices' : List ListedDevice) :
    (printDescriptors options w {} (.ok devices)).1.2.text =
        (printDescriptors options' w' {} (.ok devices')).1.2.text ↔
      devices.filterMap (listed options) = devices'.filterMap (listed options') := by
  have hplain : Stream.Plain {} := ⟨rfl, rfl⟩
  obtain ⟨-, htext⟩ := printDescriptors_text options w hplain devices
  obtain ⟨-, htext'⟩ := printDescriptors_text options' w' hplain devices'
  rw [htext, htext', List.append_cancel_left_eq]
  exact ⟨fun h => listingCode.inj noDevice_nil h, fun h => congrArg listingCode.text h⟩

end Device
