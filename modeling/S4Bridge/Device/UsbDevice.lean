import S4Bridge.Lib.Ledger
import S4Bridge.Startup.Init

/-!
# The USB device (`usb_device.cpp`)

`openDevice`, `closeDevice`, `readInput` and `writeOutput` are the functions of `UsbDevice` the bridge
calls. libusb is outside this repository: what its calls return is an input (`OpenEnv`,
`Transferred`). What it holds for the program (device handles, device lists, configuration
descriptors) is kept in ledgers, so that a resource never given back, or given back twice, shows.
A `Host` is the device object with these and the other state start-up and reconnects touch; the
functions act on its history, one step for each libusb call that changes it.

Left out: `print_descriptors` and what only the probe mode calls; the time limits of transfers.
-/

namespace Device

open Startup (Rc Outcome)

/-! ## Options and descriptors -/

structure UsbOptions where
  vendorId : UInt16 := 0
  productId : UInt16 := 0
  interfaceNumber : Int := 0
  alternateSetting : Int := 0
  inputEndpoint : UInt8 := 0
  outputEndpoint : UInt8 := 0
  reportSize : Int := 0
  timeoutMs : UInt32 := 50
  deriving DecidableEq, Repr

inductive UsbTransferType
  | bulk | interrupt
  deriving DecidableEq, Repr

/-- A device of a device list: vendor and product id, if its descriptor can be read. -/
structure DeviceInfo where
  ids : Option (UInt16 × UInt16)
  deriving DecidableEq, Repr

structure EndpointDescriptor where
  bEndpointAddress : UInt8
  bmAttributes : UInt8
  deriving DecidableEq, Repr

structure AltSetting where
  bAlternateSetting : UInt8
  endpoint : List EndpointDescriptor
  deriving DecidableEq, Repr

/-- A configuration descriptor: the alternate settings of each interface. -/
abbrev ConfigDescriptor := List (List AltSetting)

/-! ## The device object and what libusb holds for it -/

/-- The fields of `UsbDevice`; its context is there as long as it is. -/
structure UsbDevice where
  /-- The position of the handle in the ledger. -/
  handle : Option Nat := none
  disconnected : Bool := false
  inputTransferType : UsbTransferType := .bulk
  outputTransferType : UsbTransferType := .bulk
  deriving DecidableEq, Repr

/-- What is true of a device handle. -/
structure HandleInfo where
  /-- The interface claimed on it. -/
  claimed : Option Int := none
  /-- `open` and `s4_mk1_init` have completed on it. -/
  initialized : Bool := false
  deriving DecidableEq, Repr

structure Host where
  device : UsbDevice := {}
  handles : List (Ledger.Entry HandleInfo) := []
  lists : List (Ledger.Entry Unit) := []
  configs : List (Ledger.Entry Unit) := []
  usb : Startup.Usb := {}
  /-- The global `running`. -/
  running : Bool := true
  deriving DecidableEq, Repr

namespace Host

variable (host : Host)

def obtainList : Host := { host with lists := Ledger.acquire host.lists () }

def freeList (id : Nat) : Host := { host with lists := Ledger.release host.lists id }

def obtainConfig : Host := { host with configs := Ledger.acquire host.configs () }

def freeConfig (id : Nat) : Host := { host with configs := Ledger.release host.configs id }

/-- `libusb_open`, which sets the handle only on success. -/
def openHandle (rc : Rc) : Host :=
  if rc.val = 0 then
    { host with
      handles := Ledger.acquire host.handles {}
      device := { host.device with handle := some host.handles.length } }
  else host

def clearDisconnected : Host :=
  { host with device := { host.device with disconnected := false } }

/-- Something becomes true of the current handle. -/
def onHandle (f : HandleInfo → HandleInfo) : Host :=
  match host.device.handle with
  | none => host
  | some id => { host with handles := Ledger.update host.handles id f }

/-- `libusb_claim_interface` -/
def claimInterface (interface : Int) (rc : Rc) : Host :=
  if rc.val = 0 then host.onHandle fun info => { info with claimed := some interface } else host

def markInitialized : Host := host.onHandle fun info => { info with initialized := true }

/-- `libusb_release_interface` and `libusb_close`, if there is a handle. -/
def closeHandle : Host :=
  match host.device.handle with
  | none => host
  | some id =>
    let handles := Ledger.update host.handles id fun info => { info with claimed := none }
    { host with
      handles := Ledger.release handles id
      device := { host.device with handle := none } }

/-- `close` -/
def close : Host := host.closeHandle.clearDisconnected

def setTypes (input output : UsbTransferType) : Host :=
  { host with device :=
    { host.device with inputTransferType := input, outputTransferType := output } }

def setDevice (device : UsbDevice) : Host := { host with device }

def setUsb (usb : Startup.Usb) : Host := { host with usb }

def stopRunning : Host := { host with running := false }

end Host

/-! ## Opening -/

variable (errorName : Int → String) (options : UsbOptions)

/-- The text of `check_libusb`'s exception. -/
def checkMessage (message : String) (rc : Int) : String := message ++ ": " ++ errorName rc

/-- What the libusb calls of one `open` return. -/
structure OpenEnv where
  /-- An error code, or the devices. -/
  deviceList : Except Int (List DeviceInfo)
  openRc : Rc
  autoDetachRc : Rc
  claimRc : Rc
  altSettingRc : Rc
  /-- The device list `find_device` gets. -/
  findList : Except Int (List DeviceInfo)
  activeConfigRc : Rc
  configRc : Rc
  config : ConfigDescriptor

def matchesIds (device : DeviceInfo) : Bool :=
  device.ids == some (options.vendorId, options.productId)

def findDevice (w : History Host) (list : Except Int (List DeviceInfo)) :
    History Host × Option DeviceInfo :=
  match list with
  | .error _ => (w, none)
  | .ok devices =>
    let id := w.now.lists.length
    ((w.step (·.obtainList)).step (·.freeList id), devices.find? (matchesIds options))

/-- What the loop over the endpoints has found. -/
structure Endpoints where
  inputTransferType : UsbTransferType
  outputTransferType : UsbTransferType
  foundInput : Bool
  foundOutput : Bool
  deriving DecidableEq, Repr

def scanEndpoint (found : Endpoints) (endpoint : EndpointDescriptor) : Endpoints :=
  let transferType : UsbTransferType :=
    if endpoint.bmAttributes &&& 0x03 = 0x03 then .interrupt else .bulk
  let found :=
    if endpoint.bEndpointAddress = options.inputEndpoint then
      { found with inputTransferType := transferType, foundInput := true }
    else found
  if options.outputEndpoint ≠ 0 ∧ endpoint.bEndpointAddress = options.outputEndpoint then
    { found with outputTransferType := transferType, foundOutput := true }
  else found

/-- The loop over the alternate settings of the configured interface. The source does not check that
the descriptor has such an interface; the read out of bounds is undefined behaviour, which is not
modelled: here there is nothing to loop over then. -/
def scanConfig (device : UsbDevice) (config : ConfigDescriptor) : Endpoints :=
  let iface :=
    if options.interfaceNumber < 0 then [] else config.getD options.interfaceNumber.toNat []
  let alts := iface.filter fun alt => (alt.bAlternateSetting.toNat : Int) = options.alternateSetting
  (alts.flatMap (·.endpoint)).foldl (scanEndpoint options)
    ⟨device.inputTransferType, device.outputTransferType, false, options.outputEndpoint == 0⟩

def resolveEndpointTypes (w : History Host) (env : OpenEnv) : History Host × Outcome :=
  match findDevice options w env.findList with
  | (w, none) =>
    (w, .threw "Unable to resolve USB endpoint types because the device is no longer present")
  | (w, some _) =>
    if env.activeConfigRc.val ≠ 0 ∧ env.configRc.val < 0 then
      (w, .threw (checkMessage errorName "Failed to get USB config descriptor" env.configRc))
    else
      let id := w.now.configs.length
      let w := w.step (·.obtainConfig)
      let found := scanConfig options w.now.device env.config
      let w := w.step (·.setTypes found.inputTransferType found.outputTransferType)
      let w := w.step (·.freeConfig id)
      if !found.foundInput then
        (w, .threw ("Configured input endpoint was not found on the selected " ++
          "interface/alternate setting"))
      else if !found.foundOutput then
        (w, .threw ("Configured output endpoint was not found on the selected " ++
          "interface/alternate setting"))
      else (w, .returned)

/-- `open` once the handle is there. -/
def configure (w : History Host) (env : OpenEnv) : History Host × Outcome :=
  let w := w.step (·.clearDisconnected)
  if env.autoDetachRc.val < 0 then
    (w, .threw (checkMessage errorName "Failed to enable auto-detach" env.autoDetachRc))
  else
    let w := w.step (·.claimInterface options.interfaceNumber env.claimRc)
    if env.claimRc.val < 0 then
      (w, .threw (checkMessage errorName "Failed to claim USB interface" env.claimRc))
    else if env.altSettingRc.val < 0 then
      (w, .threw (checkMessage errorName "Failed to select alternate setting" env.altSettingRc))
    else resolveEndpointTypes errorName options w env

def openDevice (w : History Host) (env : OpenEnv) : History Host × Outcome :=
  match env.deviceList with
  | .error _ => (w, .threw "Failed to enumerate USB devices")
  | .ok devices =>
    let id := w.now.lists.length
    let w := w.step (·.obtainList)
    if devices.countP (matchesIds options) > 1 then
      (w.step (·.freeList id),
        .threw ("Multiple S4 MK1 devices detected — only one device can be used at a time. " ++
          "Unplug the extra unit and try again."))
    else if (devices.find? (matchesIds options)).isNone then
      (w.step (·.freeList id), .threw "Unable to open USB device: device not found")
    else
      let w := (w.step (·.openHandle env.openRc)).step (·.freeList id)
      if env.openRc.val < 0 then
        (w, .threw (checkMessage errorName "Failed to open USB device" env.openRc))
      else configure errorName options w env

/-! ## Transfers -/

def libusbErrorIo : Int := -1
def libusbErrorNoDevice : Int := -4
def libusbErrorTimeout : Int := -7

/-- What a synchronous transfer returns, and the bytes transferred. -/
structure Transferred where
  rc : Rc
  data : List UInt8
  deriving DecidableEq, Repr

def readInput (device : UsbDevice) (transfer : Transferred) :
    UsbDevice × Except String (List UInt8) :=
  if device.handle.isNone then (device, .error "USB device is not open")
  else if options.reportSize ≤ 0 then (device, .error "Report size must be > 0")
  else
    let rc := transfer.rc.val
    if rc = libusbErrorTimeout then (device, .ok [])
    else if rc = libusbErrorNoDevice ∨ rc = libusbErrorIo then
      ({ device with disconnected := true }, .ok [])
    else if rc < 0 then (device, .error (checkMessage errorName "USB input transfer failed" rc))
    else (device, .ok transfer.data)

/-- `write_output`: what is handed to libusb, if anything, and how the call ends; `transfer` is what
libusb does with it. -/
def writeOutput (device : UsbDevice) (payload : List UInt8) (transfer : Transferred) :
    Option (List UInt8) × Except String Unit :=
  if device.handle.isNone then (none, .error "USB device is not open")
  else if options.outputEndpoint = 0 then (none, .error "No USB output endpoint configured")
  else if transfer.rc.val < 0 then
    (some payload, .error (checkMessage errorName "USB output transfer failed" transfer.rc))
  else if transfer.data.length ≠ payload.length then
    (some payload, .error "USB output transfer was short")
  else (some payload, .ok ())

end Device
