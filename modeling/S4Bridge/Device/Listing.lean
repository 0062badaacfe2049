import S4Bridge.Device.UsbDevice
import S4Bridge.Lib.Formatted

/-!
# The listing of the probe (`print_descriptors` in `usb_device.cpp`)

`printDescriptors` prints, for each device with the configured ids, the alternate settings of its
configuration and their endpoints. It obtains a device list and for each of these devices a
configuration descriptor, of which more fields are read here than when a device is opened.
-/

namespace Device

open Formatted

/-! ## Descriptors -/

structure EndpointInfo extends EndpointDescriptor where
  wMaxPacketSize : UInt16
  bInterval : UInt8
  deriving DecidableEq, Repr

/-- `libusb_interface_descriptor` -/
structure AltInfo where
  bInterfaceNumber : UInt8
  bAlternateSetting : UInt8
  bInterfaceClass : UInt8
  bInterfaceSubClass : UInt8
  endpoint : List EndpointInfo
  deriving DecidableEq, Repr

/-- The alternate settings of each interface. -/
abbrev ConfigInfo := List (List AltInfo)

/-- A device of the list, and what the calls for its configuration return. -/
structure ListedDevice extends DeviceInfo where
  activeConfigRc : Startup.Rc
  configRc : Startup.Rc
  config : ConfigInfo
  deriving DecidableEq, Repr

/-- One of the two calls gives the configuration. -/
def ListedDevice.configured (d : ListedDevice) : Bool :=
  decide (d.activeConfigRc.val = 0 ∨ d.configRc.val = 0)

/-! ## Texts -/

def hexByte (value : UInt8) : List Char :=
  let stream : Stream := {}
  ((((stream.putText "0x").hex.setw 2).setfill '0').putNat value.toNat).text

def describeEndpoint (endpoint : EndpointInfo) : List Char :=
  let stream : Stream := {}
  let stream := (stream.putText "endpoint=").put (hexByte endpoint.bEndpointAddress)
  let stream := ((stream.putText " attributes=0x").hex.putNat endpoint.bmAttributes.toNat).dec
  let stream := (stream.putText " max_packet=").putNat endpoint.wMaxPacketSize.toNat
  ((stream.putText " interval=").putNat endpoint.bInterval.toNat).text

/-- The four digits of an id with `0x`: its high byte, and its low byte without the prefix. -/
def putId (cout : Stream) (id : UInt16) : Stream :=
  (cout.put (hexByte (id >>> 8).toUInt8)).put ((hexByte (id &&& 0xFF).toUInt8).drop 2)

def printAlt (cout : Stream) (alt : AltInfo) : Stream :=
  let cout := (cout.putText "  interface=").putNat alt.bInterfaceNumber.toNat
  let cout := (cout.putText " alt=").putNat alt.bAlternateSetting.toNat
  let cout := (cout.putText " class=0x").hex.putNat alt.bInterfaceClass.toNat
  let cout := (cout.putText " subclass=0x").putNat alt.bInterfaceSubClass.toNat
  alt.endpoint.foldl (fun cout endpoint => ((cout.putText "    ").put (describeEndpoint endpoint)).endl)
    cout.dec.endl

/-! ## The listing -/

variable (options : UsbOptions)

def printFound (cout : Stream) (ids : UInt16 × UInt16) : Stream :=
  (putId ((putId (cout.putText "Found device vid=") ids.1).putText " pid=") ids.2).endl

/-- The body of the loop over the devices. -/
def printDevice (s : History Host × Stream) (d : ListedDevice) : History Host × Stream :=
  match d.ids with
  | none => s
  | some ids =>
    if ids ≠ (options.vendorId, options.productId) then s
    else
      let cout := printFound s.2 ids
      if d.activeConfigRc.val ≠ 0 ∧ d.configRc.val ≠ 0 then (s.1, cout)
      else
        let id := s.1.now.configs.length
        let w := s.1.step (·.obtainConfig)
        let cout := d.config.flatten.foldl printAlt cout
        (w.step (·.freeConfig id), cout)

def printDescriptors (w : History Host) (cout : Stream) (list : Except Int (List ListedDevice)) :
    (History Host × Stream) × Startup.Outcome :=
  match list with
  | .error _ => ((w, cout), .threw "Failed to enumerate USB devices")
  | .ok devices =>
    let id := w.now.lists.length
    let (w, cout) := devices.foldl (printDevice options) (w.step (·.obtainList), cout)
    ((w.step (·.freeList id), cout), .returned)

end Device
