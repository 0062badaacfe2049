import Mathlib.Data.List.Nodup
import S4Bridge.Lib.Latest
import S4Bridge.Lib.Lists
import S4Bridge.Device.Descriptors

/-!
# Resolving the endpoints

* `scanConfig_spec`: what the loops over the selected alternate setting find is the last descriptor of
  each configured endpoint, and whether there is one.
* `resolveEndpointTypes_described`, `resolveEndpointTypes_undescribed`: when the call returns, and what
  it records.
* `scanConfig_perm`: the order of a setting's endpoints is of no account.
* `resolves_iff`: an endpoint that is left unset is optional, but for the input endpoint:
  `found_input` starts as `false` where `found_output` starts as `output_endpoint == 0`.
-/

namespace Device

open Startup (Rc Outcome)
open Latest

variable (errorName : Int → String) (options : UsbOptions) {w : History Host} {env : OpenEnv}

/-! ## The loops -/

def transferTypeOf (endpoint : EndpointDescriptor) : UsbTransferType :=
  if endpoint.bmAttributes &&& 0x03 = 0x03 then .interrupt else .bulk

/-- What a descriptor says of the endpoint with the address. -/
def typeFor (address : UInt8) (endpoint : EndpointDescriptor) : Option UsbTransferType :=
  if endpoint.bEndpointAddress = address then some (transferTypeOf endpoint) else none

/-- The endpoints the loops look at. -/
def selectedEndpoints (config : ConfigDescriptor) : List EndpointDescriptor :=
  ((if options.interfaceNumber < 0 then [] else config.getD options.interfaceNumber.toNat []).filter
    (isSelected options)).flatMap (·.endpoint)

/-- An endpoint with the address is listed. -/
def Listed (address : UInt8) (endpoints : List EndpointDescriptor) : Prop :=
  ∃ e ∈ endpoints, e.bEndpointAddress = address

theorem listed_cons {address : UInt8} {e : EndpointDescriptor} {endpoints : List EndpointDescriptor} :
    Listed address (e :: endpoints) ↔ e.bEndpointAddress = address ∨ Listed address endpoints := by
  simp [Listed]

/-- One turn of the inner loop. -/
theorem scanEndpoint_eq (found : Endpoints) (e : EndpointDescriptor) :
    scanEndpoint options found e =
      { inputTransferType := (typeFor options.inputEndpoint e).getD found.inputTransferType
        outputTransferType :=
          if options.outputEndpoint = 0 then found.outputTransferType
          else (typeFor options.outputEndpoint e).getD found.outputTransferType
        foundInput := found.foundInput || e.bEndpointAddress == options.inputEndpoint
        foundOutput := found.foundOutput ||
          (options.outputEndpoint != 0 && e.bEndpointAddress == options.outputEndpoint) } := by
  obtain ⟨input, output, foundIn, foundOut⟩ := found
  unfold scanEndpoint typeFor transferTypeOf
  split_ifs <;> simp_all

theorem foldl_scanEndpoint (endpoints : List EndpointDescriptor) (found : Endpoints) :
    let result := endpoints.foldl (scanEndpoint options) found
    result.inputTransferType =
        latest (typeFor options.inputEndpoint) found.inputTransferType endpoints ∧
      (options.outputEndpoint ≠ 0 → result.outputTransferType =
        latest (typeFor options.outputEndpoint) found.outputTransferType endpoints) ∧
      (options.outputEndpoint = 0 → result.outputTransferType = found.outputTransferType) ∧
      (result.foundInput = true ↔
        found.foundInput = true ∨ Listed options.inputEndpoint endpoints) ∧
      (result.foundOutput = true ↔ found.foundOutput = true ∨
        (options.outputEndpoint ≠ 0 ∧ Listed options.outputEndpoint endpoints)) := by
  induction endpoints generalizing found with
  | nil => simp [Listed]
  | cons e endpoints ih =>
    obtain ⟨hin, hout, hunset, hfoundIn, hfoundOut⟩ := ih (scanEndpoint options found e)
    simp only [List.foldl_cons, latest_cons, listed_cons]
    refine ⟨?_, fun hne => ?_, fun hzero => ?_, ?_, ?_⟩
    · rw [hin, scanEndpoint_eq]
    · rw [hout hne, scanEndpoint_eq]
      simp [hne]
    · rw [hunset hzero, scanEndpoint_eq]
      simp [hzero]
    · rw [hfoundIn, scanEndpoint_eq]
      simp [or_assoc]
    · rw [hfoundOut, scanEndpoint_eq]
      simp only [Bool.or_eq_true, Bool.and_eq_true, bne_iff_ne, beq_iff_eq, ne_eq]
      tauto

/-- What the loops record of the device's fields. -/
def recorded (device : UsbDevice) (endpoints : List EndpointDescriptor) : UsbDevice :=
  { device with
    inputTransferType :=
      latest (typeFor options.inputEndpoint) device.inputTransferType endpoints
    outputTransferType :=
      if options.outputEndpoint = 0 then device.outputTransferType
      else latest (typeFor options.outputEndpoint) device.outputTransferType endpoints }

/-- What the loops find: the type each endpoint's last descriptor says, and whether there is one;
there need be none for an output endpoint that is not set. -/
theorem scanConfig_spec (device : UsbDevice) (config : ConfigDescriptor) :
    let found := scanConfig options device config
    let endpoints := selectedEndpoints options config
    { device with
      inputTransferType := found.inputTransferType
      outputTransferType := found.outputTransferType } = recorded options device endpoints ∧
      (found.foundInput = true ↔ Listed options.inputEndpoint endpoints) ∧
      (found.foundOutput = true ↔
        options.outputEndpoint = 0 ∨ Listed options.outputEndpoint endpoints) := by
  obtain ⟨hin, hout, hunset, hfoundIn, hfoundOut⟩ :=
    foldl_scanEndpoint options (selectedEndpoints options config)
      ⟨device.inputTransferType, device.outputTransferType, false, options.outputEndpoint == 0⟩
  refine ⟨?_, hfoundIn.trans (by simp), hfoundOut.trans ?_⟩
  · unfold recorded
    congr 1
    split
    · exact hunset ‹_›
    · exact hout ‹_›
  · by_cases hzero : options.outputEndpoint = 0 <;> simp [hzero]

/-! ## The call -/

/-- The device is there and its configuration descriptor is read. -/
structure Described (env : OpenEnv) : Prop where
  present : ∃ devices, env.findList = .ok devices ∧ ∃ d ∈ devices, matchesIds options d = true
  read : env.activeConfigRc.val = 0 ∨ ¬ env.configRc.val < 0

theorem findDevice_isSome (list : Except Int (List DeviceInfo)) :
    (findDevice options w list).2.isSome = true ↔
      ∃ devices, list = .ok devices ∧ ∃ d ∈ devices, matchesIds options d = true := by
  cases list with
  | error rc => simp [findDevice]
  | ok devices => simp [findDevice]

theorem findDevice_device (list : Except Int (List DeviceInfo)) :
    (findDevice options w list).1.now.device = w.now.device := by
  unfold findDevice
  split <;> rfl

/-- Without a descriptor nothing is recorded. -/
theorem resolveEndpointTypes_undescribed (h : ¬ Described options env) :
    (resolveEndpointTypes errorName options w env).2 ≠ .returned ∧
      (resolveEndpointTypes errorName options w env).1.now.device = w.now.device := by
  have hdevice := findDevice_device options (w := w) env.findList
  have hsome := findDevice_isSome options (w := w) env.findList
  unfold resolveEndpointTypes
  generalize findDevice options w env.findList = found at hdevice hsome ⊢
  obtain ⟨w1, device⟩ := found
  cases device with
  | none => exact ⟨Outcome.noConfusion, hdevice⟩
  | some device =>
    have hfails : env.activeConfigRc.val ≠ 0 ∧ env.configRc.val < 0 := by
      have hread : ¬ (env.activeConfigRc.val = 0 ∨ ¬ env.configRc.val < 0) :=
        fun hread => h ⟨hsome.1 rfl, hread⟩
      tauto
    simp only [if_pos hfails]
    exact ⟨Outcome.noConfusion, hdevice⟩

/-- **With a descriptor**, the call returns if the loops have found both endpoints, and records what
they found in any case. -/
theorem resolveEndpointTypes_described (h : Described options env) :
    ((resolveEndpointTypes errorName options w env).2 = .returned ↔
      Listed options.inputEndpoint (selectedEndpoints options env.config) ∧
        (options.outputEndpoint = 0 ∨
          Listed options.outputEndpoint (selectedEndpoints options env.config))) ∧
      (resolveEndpointTypes errorName options w env).1.now.device =
        recorded options w.now.device (selectedEndpoints options env.config) := by
  obtain ⟨hrecorded, hfoundIn, hfoundOut⟩ := scanConfig_spec options w.now.device env.config
  have hdevice := findDevice_device options (w := w) env.findList
  have hsome := (findDevice_isSome options (w := w) env.findList).2 h.present
  have hreads : ¬ (env.activeConfigRc.val ≠ 0 ∧ env.configRc.val < 0) := by
    have hread := h.read
    tauto
  rw [← hrecorded, ← hfoundIn, ← hfoundOut]
  unfold resolveEndpointTypes
  generalize findDevice options w env.findList = found at hdevice hsome ⊢
  obtain ⟨w1, device⟩ := found
  cases device with
  | none => cases hsome
  | some device =>
    have hscan : scanConfig options (w1.step (·.obtainConfig)).now.device env.config =
        scanConfig options w.now.device env.config :=
      congrArg (scanConfig options · env.config) hdevice
    simp only [if_neg hreads, hscan]
    rw [← hdevice]
    cases (scanConfig options w1.now.device env.config).foundInput <;>
      cases (scanConfig options w1.now.device env.config).foundOutput <;>
      exact ⟨by simp, rfl⟩

/-! ## Which endpoints these are -/

/-- The interfaces are stored at the index equal to their number. -/
def StoredByNumber (config : List Interface) : Prop :=
  ∀ (i : Nat) (iface : Interface), config[i]? = some iface → iface.bInterfaceNumber.toNat = i

/-- Then the loops look at the configured one. -/
theorem selectedEndpoints_alternates {config : List Interface} (hindex : StoredByNumber config)
    (hnumber : 0 ≤ options.interfaceNumber) :
    selectedEndpoints options (alternates config) = configuredEndpoints options config := by
  obtain ⟨n, hn⟩ := Int.eq_ofNat_of_zero_le hnumber
  have hfilter : config.filter (Configured options ·) = config[n]?.toList := by
    have hposition : config.filter (fun iface => iface.bInterfaceNumber.toNat = 0 + n) =
        config[n]?.toList := by
      refine Lists.filter_position (fun i iface h => ?_) n
      rw [hindex i iface h, Nat.zero_add]
    rw [← hposition, Nat.zero_add]
    simp only [Configured, hn, Int.ofNat_inj]
  unfold selectedEndpoints configuredEndpoints alternates
  rw [hfilter, hn, if_neg (by omega), Int.toNat_natCast, List.getD_eq_getElem?_getD, List.getElem?_map]
  cases config[n]? with
  | none => rfl
  | some iface => simp

/-- The alternate settings in another order, and the endpoints of each. -/
def Reordered (before after : List AltSetting) : Prop :=
  ∃ between, before.Perm between ∧ List.Forall₂ (fun a b =>
    a.bAlternateSetting = b.bAlternateSetting ∧ a.endpoint.Perm b.endpoint) between after

/-- The same interfaces but for the order of their alternate settings and endpoints. -/
def ReorderedConfig : List Interface → List Interface → Prop :=
  List.Forall₂ fun a b =>
    a.bInterfaceNumber = b.bInterfaceNumber ∧ Reordered a.altsetting b.altsetting

/-- The configured endpoints, one interface after the other. -/
theorem configuredEndpoints_eq (config : List Interface) :
    configuredEndpoints options config = config.flatMap fun iface =>
      if Configured options iface then
        (iface.altsetting.filter (isSelected options)).flatMap (·.endpoint)
      else [] := by
  rw [configuredEndpoints, Lists.filter_flatMap, Lists.filter_flatMap, List.flatMap_assoc]
  refine List.flatMap_congr fun iface _ => ?_
  by_cases h : Configured options iface
  · simp [h, Lists.filter_flatMap]
  · simp [h]

theorem Reordered.perm {before after : List AltSetting} (h : Reordered before after) :
    ((before.filter (isSelected options)).flatMap (·.endpoint)).Perm
      ((after.filter (isSelected options)).flatMap (·.endpoint)) := by
  obtain ⟨between, hperm, hparts⟩ := h
  refine ((hperm.filter _).flatMap_right _).trans ?_
  rw [Lists.filter_flatMap, Lists.filter_flatMap]
  refine Lists.flatMap_perm hparts fun a b hab => ?_
  have hsame : isSelected options a = isSelected options b := by
    unfold isSelected
    rw [hab.1]
  rw [hsame]
  split
  · exact hab.2
  · exact .refl _

theorem ReorderedConfig.perm {before after : List Interface} (h : ReorderedConfig before after) :
    (configuredEndpoints options before).Perm (configuredEndpoints options after) := by
  rw [configuredEndpoints_eq, configuredEndpoints_eq]
  refine Lists.flatMap_perm h fun a b hab => ?_
  have hsame : Configured options a ↔ Configured options b := by
    unfold Configured
    rw [hab.1]
  by_cases ha : Configured options a
  · rw [if_pos ha, if_pos (hsame.1 ha)]
    exact hab.2.perm options
  · rw [if_neg ha, if_neg (fun hb => ha (hsame.2 hb))]

theorem StoredByNumber.reordered {config config' : List Interface} (hindex : StoredByNumber config)
    (h : ReorderedConfig config config') : StoredByNumber config' := by
  intro i iface hi
  obtain ⟨hlt, rfl⟩ := List.getElem?_eq_some_iff.1 hi
  have hlength : config.length = config'.length := List.Forall₂.length_eq h
  have hpair := (List.forall₂_iff_get.1 h).2 i (hlength ▸ hlt) hlt
  have hsame : config[i].bInterfaceNumber = config'[i].bInterfaceNumber := hpair.1
  rw [← hsame]
  exact hindex i _ (List.getElem?_eq_getElem _)

/-! ## What is recorded -/

theorem filterMap_typeFor (address : UInt8) (endpoints : List EndpointDescriptor) :
    endpoints.filterMap (typeFor address) =
      (endpoints.filter (·.bEndpointAddress = address)).map transferTypeOf := by
  induction endpoints with
  | nil => rfl
  | cons e endpoints ih =>
    by_cases he : e.bEndpointAddress = address
    · simp [typeFor, he, ← ih]
    · simp [typeFor, he, ← ih]

/-- The type is the one of the endpoint's descriptor; of several with the address, the last. -/
def RecordedAs (endpoints : List EndpointDescriptor) (address : UInt8) (type : UsbTransferType) :
    Prop :=
  ∃ e, (endpoints.filter (·.bEndpointAddress = address)).getLast? = some e ∧
    (type = .interrupt ↔ e.bmAttributes &&& 0x03 = 0x03)

theorem recordedAs_latest {endpoints : List EndpointDescriptor} {address : UInt8}
    (h : Listed address endpoints) (init : UsbTransferType) :
    RecordedAs endpoints address (latest (typeFor address) init endpoints) := by
  obtain ⟨e, he, haddress⟩ := h
  have hne : endpoints.filter (·.bEndpointAddress = address) ≠ [] :=
    List.ne_nil_of_mem (List.mem_filter.2 ⟨he, by simpa using haddress⟩)
  refine ⟨_, List.getLast?_eq_some_getLast hne, ?_⟩
  rw [latest, filterMap_typeFor, List.getLast?_map, List.getLast?_eq_some_getLast hne]
  simp only [Option.map_some, Option.getD_some, transferTypeOf]
  split
  · exact ⟨fun _ => ‹_›, fun _ => rfl⟩
  · exact ⟨fun h => (by cases h), fun h => absurd h ‹_›⟩

/-- Distinct addresses: one descriptor at most is for an endpoint. -/
theorem length_typeFor_le {endpoints : List EndpointDescriptor}
    (hnodup : (endpoints.map (·.bEndpointAddress)).Nodup) (address : UInt8) :
    (endpoints.filterMap (typeFor address)).length ≤ 1 := by
  have hcount : (endpoints.map (·.bEndpointAddress)).count address ≤ 1 :=
    List.nodup_iff_count_le_one.1 hnodup address
  rw [List.count_eq_countP, List.countP_map, List.countP_eq_length_filter] at hcount
  rw [filterMap_typeFor, List.length_map]
  simpa only [Function.comp_def, beq_eq_decide] using hcount

theorem recorded_perm {device : UsbDevice} {endpoints endpoints' : List EndpointDescriptor}
    (h : endpoints.Perm endpoints') (hnodup : (endpoints.map (·.bEndpointAddress)).Nodup) :
    recorded options device endpoints = recorded options device endpoints' := by
  unfold recorded
  rw [latest_perm h (length_typeFor_le hnodup _), latest_perm h (length_typeFor_le hnodup _)]

theorem listed_perm {address : UInt8} {endpoints endpoints' : List EndpointDescriptor}
    (h : endpoints.Perm endpoints') : Listed address endpoints ↔ Listed address endpoints' := by
  unfold Listed
  simp only [h.mem_iff]

/-- The order of a setting's endpoints is of no account to the loops. -/
theorem scanConfig_perm {config config' : ConfigDescriptor}
    (h : (selectedEndpoints options config).Perm (selectedEndpoints options config'))
    (hnodup : ((selectedEndpoints options config).map (·.bEndpointAddress)).Nodup)
    (device : UsbDevice) : scanConfig options device config = scanConfig options device config' := by
  obtain ⟨htypes, hin, hout⟩ := scanConfig_spec options device config
  obtain ⟨htypes', hin', hout'⟩ := scanConfig_spec options device config'
  have hsame := htypes.trans ((recorded_perm options h hnodup).trans htypes'.symm)
  have hfoundIn := hin.trans ((listed_perm h).trans hin'.symm)
  have hfoundOut := hout.trans ((or_congr_right (listed_perm h)).trans hout'.symm)
  generalize scanConfig options device config = found at hsame hfoundIn hfoundOut ⊢
  generalize scanConfig options device config' = found' at hsame hfoundIn hfoundOut ⊢
  obtain ⟨input, output, foundIn, foundOut⟩ := found
  obtain ⟨input', output', foundIn', foundOut'⟩ := found'
  simp only [UsbDevice.mk.injEq, true_and] at hsame
  obtain ⟨rfl, rfl⟩ := hsame
  obtain rfl : foundIn = foundIn' := Bool.eq_iff_iff.2 hfoundIn
  obtain rfl : foundOut = foundOut' := Bool.eq_iff_iff.2 hfoundOut
  rfl

/-- The configuration counts for what the loops find. -/
theorem resolveEndpointTypes_congr {config' : ConfigDescriptor}
    (h : ∀ device, scanConfig options device env.config = scanConfig options device config') :
    resolveEndpointTypes errorName options w { env with config := config' } =
      resolveEndpointTypes errorName options w env := by
  unfold resolveEndpointTypes
  simp only [h]

/-! ## The configured endpoints are resolved -/

/-- Resolving the endpoints of a configuration: the call returns if and only if every endpoint that is
set is listed, the types it records are those of the descriptors, and it does the same for a
configuration listed in another order. -/
structure Resolves (w : History Host) (env : OpenEnv) (config : List Interface) : Prop where
  returns : (resolveEndpointTypes errorName options w env).2 = .returned ↔
    (options.inputEndpoint ≠ 0 →
      Listed options.inputEndpoint (configuredEndpoints options config)) ∧
    (options.outputEndpoint ≠ 0 →
      Listed options.outputEndpoint (configuredEndpoints options config))
  types : (resolveEndpointTypes errorName options w env).2 = .returned →
    let device := (resolveEndpointTypes errorName options w env).1.now.device
    (options.inputEndpoint ≠ 0 → RecordedAs (configuredEndpoints options config)
      options.inputEndpoint device.inputTransferType) ∧
    (options.outputEndpoint ≠ 0 → RecordedAs (configuredEndpoints options config)
      options.outputEndpoint device.outputTransferType)
  order : ((configuredEndpoints options config).map (·.bEndpointAddress)).Nodup →
    ∀ config', ReorderedConfig config config' →
      resolveEndpointTypes errorName options w { env with config := alternates config' } =
        resolveEndpointTypes errorName options w env

/-- **Endpoint resolution**: it does what is asked of it but for an input endpoint that is left unset,
where the output endpoint is unset too or listed. Then it needs an endpoint with the address 0. -/
theorem resolves_iff {config : List Interface} (hindex : StoredByNumber config)
    (hnumber : 0 ≤ options.interfaceNumber ∧ options.interfaceNumber < config.length)
    (hconfig : env.config = alternates config) (hdescribed : Described options env) :
    Resolves errorName options w env config ↔
      (options.inputEndpoint = 0 →
        options.outputEndpoint = 0 ∨
          Listed options.outputEndpoint (configuredEndpoints options config) →
        Listed 0 (configuredEndpoints options config)) := by
  have hselected := selectedEndpoints_alternates options hindex hnumber.1
  obtain ⟨hreturned, hrecorded⟩ := resolveEndpointTypes_described errorName options (w := w) hdescribed
  rw [hconfig, hselected] at hreturned hrecorded
  constructor
  · intro h hzero hout
    rw [← hzero]
    refine (hreturned.1 (h.returns.2 ⟨fun hne => absurd hzero hne, fun hne => ?_⟩)).1
    exact hout.resolve_left hne
  · intro h
    refine ⟨?_, fun hret => ?_, fun hnodup config' hreordered => ?_⟩
    · rw [hreturned]
      constructor
      · exact fun ⟨hin, hout⟩ => ⟨fun _ => hin, hout.resolve_left⟩
      · rintro ⟨hin, hout⟩
        have hout' : options.outputEndpoint = 0 ∨
            Listed options.outputEndpoint (configuredEndpoints options config) :=
          or_iff_not_imp_left.2 hout
        refine ⟨?_, hout'⟩
        by_cases hzero : options.inputEndpoint = 0
        · rw [hzero]
          exact h hzero hout'
        · exact hin hzero
    · obtain ⟨hin, hout⟩ := hreturned.1 hret
      simp only [hrecorded]
      refine ⟨fun _ => recordedAs_latest hin _, fun hne => ?_⟩
      simp only [recorded, if_neg hne]
      exact recordedAs_latest (hout.resolve_left hne) _
    · have hselected' :=
        selectedEndpoints_alternates options (hindex.reordered hreordered) hnumber.1
      have hperm := hreordered.perm options
      refine resolveEndpointTypes_congr errorName options fun device => ?_
      rw [hconfig]
      refine scanConfig_perm options ?_ ?_ device
      · rw [hselected, hselected']
        exact hperm
      · rw [hselected]
        exact hnodup

/-- A device with one interface: an interrupt endpoint in each direction. -/
def twoEndpoints : List Interface :=
  [⟨0, [⟨0, [⟨0x01, 0x03⟩, ⟨0x84, 0x03⟩]⟩]⟩]

theorem twoEndpoints_stored : StoredByNumber twoEndpoints := by
  intro i iface h
  cases i with
  | zero => rw [← Option.some.inj h]; rfl
  | succ i => cases h

def probeEnv (config : List Interface) : OpenEnv where
  deviceList := .ok [⟨some (0x17CC, 0xBAFF)⟩]
  openRc := Startup.Rc.ok
  autoDetachRc := Startup.Rc.ok
  claimRc := Startup.Rc.ok
  altSettingRc := Startup.Rc.ok
  findList := .ok [⟨some (0x17CC, 0xBAFF)⟩]
  activeConfigRc := Startup.Rc.ok
  configRc := Startup.Rc.ok
  config := alternates config

/-- The options of `probe --vid 0x17CC --pid 0xBAFF --out-ep 0x01`. -/
def probeOptions : UsbOptions :=
  { vendorId := 0x17CC, productId := 0xBAFF, outputEndpoint := 0x01 }

theorem resolves_iff_bridge :
    Resolves (fun _ => "") { probeOptions with inputEndpoint := 0x84 } (History.start {})
      (probeEnv twoEndpoints) twoEndpoints ↔ ((0x84 : UInt8) = 0 →
        (0x01 : UInt8) = 0 ∨ Listed 0x01 (configuredEndpoints probeOptions twoEndpoints) →
        Listed 0 (configuredEndpoints probeOptions twoEndpoints)) := by
  exact resolves_iff (fun _ => "") { probeOptions with inputEndpoint := 0x84 } twoEndpoints_stored
    (by decide) rfl ⟨⟨_, rfl, _, .head _, rfl⟩, .inl rfl⟩

/-- The probe's options without an input endpoint: the output endpoint is there, and the call throws
for the input endpoint. -/
theorem not_resolves_probe :
    StoredByNumber twoEndpoints ∧ Described probeOptions (probeEnv twoEndpoints) ∧
      ¬ Resolves (fun _ => "") probeOptions (History.start {}) (probeEnv twoEndpoints)
        twoEndpoints := by
  refine ⟨twoEndpoints_stored, ⟨⟨_, rfl, _, .head _, rfl⟩, .inl rfl⟩, fun h => ?_⟩
  have hreturned := h.returns.2 ⟨fun hne => absurd rfl hne, fun _ => ⟨_, .head _, rfl⟩⟩
  cases hreturned

end Device
