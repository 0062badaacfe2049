import S4Bridge.Device.UsbDevice

/-!
# Interfaces of a configuration

libusb lists the interfaces of a configuration in the order of the descriptor; each has a number,
`bInterfaceNumber`, which its alternate settings share and `libusb_claim_interface` goes by.
`resolve_endpoint_types` goes by the position. `scanConfig` is given only what is at a position;
here the numbers are kept as well, and the places of the descriptor the loops read
(`placesRead`).
-/

namespace Device

/-- `libusb_interface`, with the number its alternate settings share. -/
structure Interface where
  bInterfaceNumber : UInt8
  altsetting : List AltSetting
  deriving DecidableEq, Repr

/-- What `resolveEndpointTypes` is given of a configuration. -/
def alternates (config : List Interface) : ConfigDescriptor := config.map (·.altsetting)

variable (options : UsbOptions) (config : List Interface)

/-- The interface has the configured number. -/
def Configured (iface : Interface) : Prop :=
  (iface.bInterfaceNumber.toNat : Int) = options.interfaceNumber

instance (iface : Interface) : Decidable (Configured options iface) :=
  inferInstanceAs (Decidable (_ = _))

/-- The alternate setting is the configured one. -/
def isSelected (alt : AltSetting) : Bool :=
  (alt.bAlternateSetting.toNat : Int) = options.alternateSetting

/-- The endpoints of the interface with the configured number, in the configured alternate
setting. -/
def configuredEndpoints : List EndpointDescriptor :=
  (((config.filter (Configured options ·)).flatMap (·.altsetting)).filter
    (isSelected options)).flatMap (·.endpoint)

/-! ## Places -/

/-- A place of the descriptor: an interface, one of its alternate settings, one of the endpoints of
that, by their positions. -/
inductive Place
  | interface (index : Int)
  | altsetting (index : Int) (alt : Nat)
  | endpoint (index : Int) (alt ep : Nat)
  deriving DecidableEq, Repr

/-- The position in `config->interface`. -/
def Place.index : Place → Int
  | .interface index | .altsetting index _ | .endpoint index _ _ => index

/-- The interface at a position, if there is one. -/
def interfaceAt (index : Int) : Option Interface :=
  if index < 0 then none else config[index.toNat]?

def endpointAt : Place → Option EndpointDescriptor
  | .endpoint index alt ep => do
    let iface ← interfaceAt config index
    let alt ← iface.altsetting[alt]?
    alt.endpoint[ep]?
  | _ => none

/-- The places the loops of `resolve_endpoint_types` read, in order; the first is
`config->interface[interface_number]`, and nothing is known of what comes after if there is no such
interface. -/
def placesRead : List Place :=
  let index := options.interfaceNumber
  .interface index ::
    match interfaceAt config index with
    | none => []
    | some iface =>
      iface.altsetting.zipIdx.flatMap fun (alt, i) =>
        .altsetting index i ::
          if isSelected options alt then
            (List.range alt.endpoint.length).map (.endpoint index i)
          else []

end Device
