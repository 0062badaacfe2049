import S4Bridge.Lib.History
import S4Bridge.Lib.Transfers

/-!
# libusb transfers and the two callbacks of `s4_init.cpp`

The asynchronous part of libusb as `s4_init.cpp` uses it. libusb itself is outside this repository:
what its calls return and which transfers it completes when are inputs. It runs one callback for
each submission it accepted, and only while it handles events (`complete`, `handleEvents`); a
completion of a transfer that is not in flight is none. Undefined behaviour is not modelled: a
transfer freed in flight still completes here, and its callback finds its memory as it was, where the
source would use freed memory; the transfer remembers that it was freed in flight.

Pointers to transfers are their positions in the table; the `XferState` a transfer's `user_data`
points to is kept with the transfer. Left out: the timeouts, which show as completions.
-/

namespace Startup

open Transfers

/-! ## Data -/

abbrev Context := Nat
abbrev Handle := Nat

inductive TransferStatus
  | completed | error | timedOut | cancelled | stall | noDevice | overflow
  deriving DecidableEq, Repr

/-- The value of the `libusb_transfer_status` constant. -/
def TransferStatus.code : TransferStatus → Int
  | .completed => 0
  | .error => 1
  | .timedOut => 2
  | .cancelled => 3
  | .stall => 4
  | .noDevice => 5
  | .overflow => 6

structure XferState where
  done : Bool := false
  /-- 0 in the source, the value of the constant. -/
  status : TransferStatus := .completed
  transferred : Int := 0
  deriving DecidableEq, Repr

inductive Callback
  | xferCb | drain84Cb
  deriving DecidableEq, Repr

/-- The fields `libusb_fill_bulk_transfer` sets, and the state `user_data` points to. -/
structure Xfer where
  handle : Option Handle := none
  endpoint : UInt8 := 0
  buffer : List UInt8 := []
  callback : Option Callback := none
  state : XferState := {}
  deriving DecidableEq, Repr

structure Drain84 where
  ctx : Option Context := none
  hdl : Option Handle := none
  t : Option Nat := none
  active : Bool := false
  deriving DecidableEq, Repr

/-- All transfers ever allocated, and `s_drain`. -/
structure Usb where
  transfers : List (Transfer Xfer) := []
  drain : Drain84 := {}
  deriving DecidableEq, Repr

/-- A return code of libusb: 0 or a negative error. -/
abbrev Rc := { rc : Int // rc ≤ 0 }

def Rc.ok : Rc := ⟨0, Int.le_refl 0⟩

/-! ## Calls -/

namespace Usb

variable (u : Usb)

def on (id : Nat) (f : Transfer Xfer → Transfer Xfer) : Usb :=
  { u with transfers := u.transfers.modify id f }

/-- A successful `libusb_alloc_transfer`; the new transfer's position is the table's length. -/
def alloc : Usb := { u with transfers := u.transfers ++ [.fresh {}] }

def fill (id : Nat) (handle : Option Handle) (endpoint : UInt8) (buffer : List UInt8)
    (callback : Callback) : Usb :=
  u.on id fun t => { t with data := { t.data with handle, endpoint, buffer, callback } }

def submit (id : Nat) (rc : Rc) : Usb := u.on id (·.submitted (decide (rc.val = 0)))

def free (id : Nat) : Usb := u.on id (·.freed)

/-- `libusb_cancel_transfer`: a request; what comes of it is a later completion. -/
def cancel (_id : Nat) : Usb := u

/-- `done` of the transfer's `XferState`. -/
def isDone (id : Nat) : Bool := (u.transfers[id]?).any (·.data.state.done)

/-- `status` of the transfer's `XferState`. -/
def status (id : Nat) : TransferStatus :=
  ((u.transfers[id]?).map (·.data.state.status)).getD .completed

end Usb

/-! ## Callbacks and events -/

/-- libusb completes a transfer. -/
structure Completion where
  id : Nat
  status : TransferStatus
  actualLength : Int
  /-- What `libusb_submit_transfer` returns, if the callback calls it. -/
  resubmit : Rc
  deriving DecidableEq

def xferCb (c : Completion) (t : Transfer Xfer) : Transfer Xfer :=
  { t with data := { t.data with state := ⟨true, c.status, c.actualLength⟩ } }

def epData : UInt8 := 0x84

/-- `s_drain.buf`, which nothing reads. -/
def drainBuf : List UInt8 := List.replicate 512 0

/-- The statuses after which the drain is not submitted again. -/
def TransferStatus.endsDrain : TransferStatus → Bool
  | .cancelled | .noDevice | .error => true
  | _ => false

def drain84Cb (u : Usb) (c : Completion) : Usb :=
  if c.status.endsDrain then { u with drain := { u.drain with active := false } }
  else
    -- submitted again at once, to keep a pending read in the device
    let u := u.fill c.id u.drain.hdl epData drainBuf .drain84Cb
    let u := u.submit c.id c.resubmit
    if c.resubmit.val < 0 then { u with drain := { u.drain with active := false } } else u

/-- A completion with its callback. -/
def complete (u : Usb) (c : Completion) : Usb :=
  match u.transfers[c.id]? with
  | none => u
  | some t =>
    if !t.inFlight then u
    else
      let u := u.on c.id (·.finished)
      match t.data.callback with
      | some .xferCb => u.on c.id (xferCb c)
      | some .drain84Cb => drain84Cb u c
      | none => u

/-- `libusb_handle_events_timeout`. -/
def handleEvents (w : History Usb) (completions : List Completion) : History Usb :=
  w.steps complete completions

end Startup
