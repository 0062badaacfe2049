import S4Bridge.Lib.Machine
import S4Bridge.Lib.History
import S4Bridge.Lib.Latest
import S4Bridge.Lib.ChangeFilter
import S4Bridge.Lib.Bytes
import S4Bridge.Lib.Lists
import S4Bridge.Lib.Binary64
import S4Bridge.Lib.Grouping
import S4Bridge.Lib.Interleaving
import S4Bridge.Lib.Reorder
import S4Bridge.Lib.Numerals
import S4Bridge.Lib.Formatted
import S4Bridge.Lib.Codes
import S4Bridge.Lib.Transfers
import S4Bridge.Lib.Ledger
import S4Bridge.Lib.Retry
import S4Bridge.Lib.Retention
import S4Bridge.Lib.Pump
import S4Bridge.Protocol.Generic
import S4Bridge.Protocol.Control
import S4Bridge.Protocol.Proof.Step
import S4Bridge.Protocol.Proof.Tracking
import S4Bridge.Protocol.Proof.Buttons
import S4Bridge.Protocol.Proof.Addresses
import S4Bridge.Protocol.Proof.Meaning
import S4Bridge.Protocol.Proof.Deadzone
import S4Bridge.Protocol.Proof.Views
import S4Bridge.Protocol.Proof.Monotone
import S4Bridge.Protocol.Proof.Encode
import S4Bridge.Startup.Usb
import S4Bridge.Startup.Init
import S4Bridge.Startup.Proof.Calls
import S4Bridge.Startup.Proof.Events
import S4Bridge.Startup.Proof.Ownership
import S4Bridge.Startup.Proof.Drain
import S4Bridge.Startup.Proof.Calm
import S4Bridge.Startup.Proof.Lifecycle
import S4Bridge.Startup.Proof.Delivery
import S4Bridge.Startup.Proof.Progress
import S4Bridge.Device.UsbDevice
import S4Bridge.Device.Descriptors
import S4Bridge.Device.Listing
import S4Bridge.Device.Proof.Handles
import S4Bridge.Device.Proof.Endpoints
import S4Bridge.Device.Proof.Interfaces
import S4Bridge.Device.Proof.Open
import S4Bridge.Device.Proof.Listing
import S4Bridge.Bridge.Send
import S4Bridge.Bridge.Loop
import S4Bridge.Bridge.Debug
import S4Bridge.Bridge.Feedback
import S4Bridge.Bridge.Connect
import S4Bridge.Bridge.Hotswap
import S4Bridge.Gui.ByteMap
import S4Bridge.Gui.Rules
import S4Bridge.Gui.App
import S4Bridge.Gui.Tables
import S4Bridge.Gui.Engine
import S4Bridge.Gui.Ports
import S4Bridge.Gui.BitPanel
import S4Bridge.Gui.Grid
import S4Bridge.Gui.Proof.Cells
import S4Bridge.Gui.Proof.CcMirror
import S4Bridge.Bridge.Proof.Codec
import S4Bridge.Bridge.Proof.Publish
import S4Bridge.Bridge.Proof.Combined
import S4Bridge.Bridge.Proof.Texts
import S4Bridge.Bridge.Proof.Feedback
import S4Bridge.Bridge.Proof.Directions
import S4Bridge.Bridge.Proof.Connect
import S4Bridge.Bridge.Proof.Handles
import S4Bridge.Bridge.Proof.Reads
import S4Bridge.Bridge.Proof.Gate
import S4Bridge.Bridge.Proof.Legal
import S4Bridge.Bridge.Proof.Undisturbed
import S4Bridge.Bridge.Proof.Debug
import S4Bridge.Bridge.Proof.Counted
import S4Bridge.Gui.Proof.Window
import S4Bridge.Gui.Proof.Sysex
import S4Bridge.Gui.Proof.Events
import S4Bridge.Gui.Proof.Raises
import S4Bridge.Gui.Proof.Pump
import S4Bridge.Gui.Proof.Tables
import S4Bridge.Gui.Proof.Rules
import S4Bridge.Gui.Proof.Engine
import S4Bridge.Gui.Proof.Ports
import S4Bridge.Gui.Proof.BitPanel
import S4Bridge.Gui.Proof.Grid
import S4Bridge.Args.Parse
import S4Bridge.Args.HexDump
import S4Bridge.Args.Proof.Numbers
import S4Bridge.Args.Proof.HexDump
import S4Bridge.Args.Proof.Order
import S4Bridge.Args.Proof.Image
import S4Bridge.Probe.Run
import S4Bridge.Probe.Proof.Steps
import S4Bridge.Probe.Proof.Runs
import S4Bridge.Probe.Proof.Transcript
import S4Bridge.Program.Main
import S4Bridge.Program.Proof.Main
