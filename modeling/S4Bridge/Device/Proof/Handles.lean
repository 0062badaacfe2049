import S4Bridge.Device.UsbDevice

/-!
# What the device holds

At every moment the device holds at most one handle, one device list and one configuration
descriptor, each the newest of its kind, and has given back all others exactly once (`Sound`).
Between the functions of the device no list and no descriptor is held (`Quiet`). `openDevice` starts
on a closed device and keeps this wherever it throws; where it returns, the handle is a new one with
the interface claimed (`openDevice_keeps`).
-/

namespace Device

open Startup (Rc Outcome)

/-! ## Moments -/

/-- The ledger entry of the current handle. -/
def Host.current (host : Host) : Option (Ledger.Entry HandleInfo) :=
  host.device.handle.bind fun id => host.handles[id]?

/-- The device list and the configuration descriptor held at a moment. -/
structure Moment (list config : Option Nat) (host : Host) : Prop where
  handles : Ledger.Settled host.device.handle host.handles
  lists : Ledger.Settled list host.lists
  configs : Ledger.Settled config host.configs
  /-- Only a device that was ready is found to be gone. -/
  gone : host.device.disconnected = true →
    ∀ e, host.current = some e → e.data.initialized = true

def Sound (host : Host) : Prop := ∃ list config, Moment list config host

/-- Neither a list nor a descriptor is held. -/
abbrev Quiet (host : Host) : Prop := Moment none none host

/-- The device is closed. -/
structure Closed (host : Host) : Prop where
  quiet : Quiet host
  handle : host.device.handle = none
  connected : host.device.disconnected = false

/-- The handle is open and its interface claimed. -/
def Opened (interface : Int) (host : Host) : Prop :=
  ∃ e, host.current = some e ∧ e.data.claimed = some interface

/-- Also `s4_mk1_init` has completed on it. -/
def Ready (interface : Int) (host : Host) : Prop :=
  ∃ e, host.current = some e ∧ e.data = ⟨some interface, true⟩

variable {host : Host} {list config : Option Nat}

theorem Moment.sound (h : Moment list config host) : Sound host := ⟨list, config, h⟩

theorem Moment.current_eq (h : Moment list config host) {e : Ledger.Entry HandleInfo}
    (he : host.current = some e) : e.releases = 0 ∧ Ledger.newest host.handles = some e := by
  obtain ⟨id, hid, hget⟩ := Option.bind_eq_some_iff.1 he
  have hrel := h.handles.releases id e hget
  rw [if_pos hid] at hrel
  have hlast : host.handles.length - 1 = id := by
    have := h.handles.newest id hid
    omega
  refine ⟨hrel, ?_⟩
  rw [Ledger.newest, List.getLast?_eq_getElem?, hlast]
  exact hget

theorem Moment.single (h : Moment list config host) :
    Ledger.Single host.handles ∧ Ledger.Single host.lists ∧ Ledger.Single host.configs :=
  ⟨h.handles.single, h.lists.single, h.configs.single⟩

/-- A handle is in the ledger. -/
theorem Moment.exists_current (h : Moment list config host) {id : Nat}
    (hid : host.device.handle = some id) : ∃ e, host.current = some e := by
  have hlt : id < host.handles.length := by
    have := h.handles.newest id hid
    omega
  refine ⟨host.handles[id], ?_⟩
  rw [Host.current, hid]
  exact List.getElem?_eq_getElem hlt

theorem start_closed : Closed {} :=
  ⟨⟨Ledger.settled_nil, Ledger.settled_nil, Ledger.settled_nil, fun h => (by cases h)⟩, rfl, rfl⟩

/-! ## Lists and descriptors -/

theorem Moment.obtainList (h : Moment none config host) :
    Moment (some host.lists.length) config host.obtainList :=
  ⟨h.handles, h.lists.acquire (), h.configs, h.gone⟩

theorem Moment.freeList {id : Nat} (h : Moment (some id) config host) :
    Moment none config (host.freeList id) :=
  ⟨h.handles, h.lists.release, h.configs, h.gone⟩

theorem Moment.obtainConfig (h : Moment list none host) :
    Moment list (some host.configs.length) host.obtainConfig :=
  ⟨h.handles, h.lists, h.configs.acquire (), h.gone⟩

theorem Moment.freeConfig {id : Nat} (h : Moment list (some id) host) :
    Moment list none (host.freeConfig id) :=
  ⟨h.handles, h.lists, h.configs.release, h.gone⟩

/-! ## The handle -/

theorem Moment.setTypes (h : Moment list config host) (input output : UsbTransferType) :
    Moment list config (host.setTypes input output) :=
  ⟨h.handles, h.lists, h.configs, h.gone⟩

theorem Moment.clearDisconnected (h : Moment list config host) :
    Moment list config host.clearDisconnected :=
  ⟨h.handles, h.lists, h.configs, fun hd => (by cases hd)⟩

theorem Moment.setUsb (h : Moment list config host) (usb : Startup.Usb) :
    Moment list config (host.setUsb usb) :=
  ⟨h.handles, h.lists, h.configs, h.gone⟩

theorem Moment.stopRunning (h : Moment list config host) : Moment list config host.stopRunning :=
  ⟨h.handles, h.lists, h.configs, h.gone⟩

theorem Moment.openHandle (h : Moment list config host) (hnone : host.device.handle = none)
    (hconn : host.device.disconnected = false) (rc : Rc) :
    Moment list config (host.openHandle rc) := by
  unfold Host.openHandle
  split
  · have hhandles := h.handles
    rw [hnone] at hhandles
    refine ⟨hhandles.acquire {}, h.lists, h.configs, fun hd => ?_⟩
    exact absurd (hconn.symm.trans hd) (by decide)
  · exact h

theorem current_onHandle (f : HandleInfo → HandleInfo) :
    (host.onHandle f).current = host.current.map fun e => { e with data := f e.data } := by
  obtain ⟨device, handles, lists, configs, usb, running⟩ := host
  obtain ⟨handle, disconnected, input, output⟩ := device
  cases handle with
  | none => rfl
  | some id =>
    show (Ledger.update handles id f)[id]? = _
    rw [Ledger.update, List.getElem?_modify]
    simp [Host.current]

theorem Moment.onHandle (h : Moment list config host) (f : HandleInfo → HandleInfo)
    (hf : ∀ info, info.initialized = true → (f info).initialized = true) :
    Moment list config (host.onHandle f) := by
  have hgone : host.device.disconnected = true →
      ∀ e, (host.onHandle f).current = some e → e.data.initialized = true := by
    intro hd e he
    rw [current_onHandle] at he
    obtain ⟨e', he', rfl⟩ := Option.map_eq_some_iff.1 he
    exact hf _ (h.gone hd e' he')
  unfold Host.onHandle at *
  cases hhandle : host.device.handle with
  | none => exact h
  | some id =>
    rw [hhandle] at hgone
    exact ⟨h.handles.update id f, h.lists, h.configs, hgone⟩

theorem Moment.claimInterface (h : Moment list config host) (interface : Int) (rc : Rc) :
    Moment list config (host.claimInterface interface rc) := by
  unfold Host.claimInterface
  split
  · exact h.onHandle _ fun _ hi => hi
  · exact h

theorem Moment.markInitialized (h : Moment list config host) :
    Moment list config host.markInitialized := h.onHandle _ fun _ _ => rfl

theorem Moment.closeHandle (h : Moment list config host) :
    Moment list config host.closeHandle ∧ host.closeHandle.device.handle = none := by
  unfold Host.closeHandle
  cases hhandle : host.device.handle with
  | none => exact ⟨h, hhandle⟩
  | some id =>
    have hhandles := h.handles
    rw [hhandle] at hhandles
    exact ⟨⟨(hhandles.update id _).release, h.lists, h.configs, fun _ e he => (by cases he)⟩, rfl⟩

theorem Quiet.close (h : Quiet host) : Closed host.close :=
  ⟨(Moment.closeHandle h).1.clearDisconnected, (Moment.closeHandle h).2, rfl⟩

/-! ## Opening -/

/-- The handles and `disconnected` are as before. -/
structure Same (before after : Host) : Prop where
  handle : after.device.handle = before.device.handle
  disconnected : after.device.disconnected = before.device.disconnected
  handles : after.handles = before.handles

theorem Same.current {before after : Host} (h : Same before after) :
    after.current = before.current := by
  rw [Host.current, Host.current, h.handle, h.handles]

theorem holds_step {Q : Host → Prop} {w : History Host} (hw : w.Holds Sound Q) (f : Host → Host)
    (hf : Moment list config (f w.now)) : (w.step f).Holds Sound (Moment list config) :=
  hw.step (fun _ => Moment.sound) hf

variable (errorName : Int → String) (options : UsbOptions) {w : History Host}

theorem findDevice_keeps (hw : w.Holds Sound Quiet) (devices : Except Int (List DeviceInfo)) :
    (findDevice options w devices).1.Holds Sound Quiet ∧
      Same w.now (findDevice options w devices).1.now := by
  unfold findDevice
  cases devices with
  | error rc => exact ⟨hw, rfl, rfl, rfl⟩
  | ok devices =>
    have hlist := holds_step hw (·.obtainList) hw.now.obtainList
    have hfree := holds_step hlist (·.freeList w.now.lists.length) hlist.now.freeList
    exact ⟨hfree, rfl, rfl, rfl⟩

theorem resolveEndpointTypes_keeps (hw : w.Holds Sound Quiet) (env : OpenEnv) :
    (resolveEndpointTypes errorName options w env).1.Holds Sound Quiet ∧
      Same w.now (resolveEndpointTypes errorName options w env).1.now ∧
      (resolveEndpointTypes errorName options w env).2 ≠ .running := by
  have hkeeps := findDevice_keeps options hw env.findList
  unfold resolveEndpointTypes
  rcases hfind : findDevice options w env.findList with ⟨w1, found⟩
  rw [hfind] at hkeeps
  obtain ⟨hfound, hsame⟩ := hkeeps
  cases found with
  | none => exact ⟨hfound, hsame, Outcome.noConfusion⟩
  | some device =>
    simp only
    split
    · exact ⟨hfound, hsame, Outcome.noConfusion⟩
    · have hconfig := holds_step hfound (·.obtainConfig) hfound.now.obtainConfig
      have htypes := fun input output =>
        holds_step hconfig (·.setTypes input output) (hconfig.now.setTypes input output)
      have hfree := fun input output => holds_step (htypes input output)
        (·.freeConfig w1.now.configs.length) (htypes input output).now.freeConfig
      have hafter : ∀ input output, Same w.now
          ((w1.now.obtainConfig.setTypes input output).freeConfig w1.now.configs.length) :=
        fun _ _ => ⟨hsame.handle, hsame.disconnected, hsame.handles⟩
      split
      · exact ⟨hfree _ _, hafter _ _, Outcome.noConfusion⟩
      · split
        · exact ⟨hfree _ _, hafter _ _, Outcome.noConfusion⟩
        · exact ⟨hfree _ _, hafter _ _, Outcome.noConfusion⟩

/-- The handle and `disconnected` are as before, and no handle is new. -/
structure Stays (before after : Host) : Prop where
  handle : after.device.handle = before.device.handle
  disconnected : after.device.disconnected = before.device.disconnected
  length : after.handles.length = before.handles.length

theorem stays_onHandle (f : HandleInfo → HandleInfo) : Stays host (host.onHandle f) := by
  unfold Host.onHandle
  split
  · exact ⟨rfl, rfl, rfl⟩
  · exact ⟨rfl, rfl, Ledger.length_update⟩

theorem stays_claimInterface (host : Host) (interface : Int) (rc : Rc) :
    Stays host (host.claimInterface interface rc) := by
  unfold Host.claimInterface
  split
  · exact stays_onHandle _
  · exact ⟨rfl, rfl, rfl⟩

theorem opened_claimInterface (host : Host) {e : Ledger.Entry HandleInfo} (he : host.current = some e)
    (interface : Int) {rc : Rc} (hrc : ¬ rc.val < 0) :
    Opened interface (host.claimInterface interface rc) := by
  have hzero : rc.val = 0 := Int.le_antisymm rc.2 (Int.not_lt.1 hrc)
  rw [Host.claimInterface, if_pos hzero]
  refine ⟨{ e with data := { e.data with claimed := some interface } }, ?_, rfl⟩
  rw [current_onHandle, he]
  rfl

theorem configure_keeps (hw : w.Holds Sound Quiet) {e : Ledger.Entry HandleInfo}
    (he : w.now.current = some e) (env : OpenEnv) :
    (configure errorName options w env).1.Holds Sound Quiet ∧
      Stays w.now.clearDisconnected (configure errorName options w env).1.now ∧
      (configure errorName options w env).2 ≠ .running ∧
      ((configure errorName options w env).2 = .returned →
        Opened options.interfaceNumber (configure errorName options w env).1.now) := by
  have hclear := holds_step hw (·.clearDisconnected) hw.now.clearDisconnected
  have hclaim := holds_step hclear (·.claimInterface options.interfaceNumber env.claimRc)
    (hclear.now.claimInterface _ _)
  have hstays := stays_claimInterface w.now.clearDisconnected options.interfaceNumber env.claimRc
  unfold configure
  simp only
  split
  · exact ⟨hclear, ⟨rfl, rfl, rfl⟩, Outcome.noConfusion, fun h => (by cases h)⟩
  · split
    · exact ⟨hclaim, hstays, Outcome.noConfusion, fun h => (by cases h)⟩
    · rename_i hrc
      split
      · exact ⟨hclaim, hstays, Outcome.noConfusion, fun h => (by cases h)⟩
      · obtain ⟨hkept, hsame, hends⟩ := resolveEndpointTypes_keeps errorName options hclaim env
        refine ⟨hkept, ⟨?_, ?_, ?_⟩, hends, fun _ => ?_⟩
        · exact hsame.handle.trans hstays.handle
        · exact hsame.disconnected.trans hstays.disconnected
        · exact (congrArg List.length hsame.handles).trans hstays.length
        · obtain ⟨e', he', hclaimed⟩ :=
            opened_claimInterface w.now.clearDisconnected he options.interfaceNumber hrc
          exact ⟨e', hsame.current.trans he', hclaimed⟩

theorem openHandle_failed {rc : Rc} (hrc : rc.val < 0) : host.openHandle rc = host :=
  if_neg (Int.ne_of_lt hrc)

theorem openHandle_ok (host : Host) {rc : Rc} (hrc : ¬ rc.val < 0) :
    (host.openHandle rc).device.handle = some host.handles.length ∧
      (host.openHandle rc).handles.length = host.handles.length + 1 ∧
      (host.openHandle rc).current = some ⟨{}, 0⟩ := by
  have hzero : rc.val = 0 := Int.le_antisymm rc.2 (Int.not_lt.1 hrc)
  rw [Host.openHandle, if_pos hzero]
  refine ⟨rfl, List.length_append, ?_⟩
  show (Ledger.acquire host.handles {})[host.handles.length]? = _
  rw [Ledger.getElem?_acquire, if_pos rfl]

/-- What `openDevice` has done. -/
structure OpenKeeps (interface : Int) (before : Host) (result : History Host × Outcome) : Prop where
  holds : result.1.Holds Sound Quiet
  length : before.handles.length ≤ result.1.now.handles.length
  ends : result.2 ≠ .running
  opened : result.2 = .returned → Opened interface result.1.now ∧
    result.1.now.device.handle = some before.handles.length ∧
    result.1.now.device.disconnected = false

/-- **Opening** keeps what is held, and opens a new handle where it returns. -/
theorem openDevice_keeps (hw : w.Holds Sound Closed) (env : OpenEnv) :
    OpenKeeps options.interfaceNumber w.now (openDevice errorName options w env) := by
  have hlist := holds_step hw (·.obtainList) hw.now.quiet.obtainList
  have hfree := holds_step hlist (·.freeList w.now.lists.length) hlist.now.freeList
  unfold openDevice
  split
  · exact ⟨⟨hw.always, hw.now.quiet⟩, Nat.le_refl _, Outcome.noConfusion,
      fun h => (by cases h)⟩
  · simp only
    split
    · exact ⟨hfree, Nat.le_refl _, Outcome.noConfusion, fun h => (by cases h)⟩
    · split
      · exact ⟨hfree, Nat.le_refl _, Outcome.noConfusion, fun h => (by cases h)⟩
      · have hopen := holds_step hlist (·.openHandle env.openRc)
          (hlist.now.openHandle hw.now.handle hw.now.connected env.openRc)
        have hfreed := holds_step hopen (·.freeList w.now.lists.length) hopen.now.freeList
        split
        · rename_i hrc
          have hfailed : w.now.obtainList.openHandle env.openRc = w.now.obtainList :=
            openHandle_failed hrc
          have hlength : w.now.handles.length ≤
              (w.now.obtainList.openHandle env.openRc).handles.length := by
            rw [hfailed]
            exact Nat.le_refl _
          exact ⟨hfreed, hlength, Outcome.noConfusion, fun h => (by cases h)⟩
        · rename_i hrc
          obtain ⟨hhandle, hlength, hcurrent⟩ := openHandle_ok w.now.obtainList hrc
          obtain ⟨hkept, hstays, hends, hopened⟩ :=
            configure_keeps errorName options hfreed hcurrent env
          refine ⟨hkept, ?_, hends, fun hret => ⟨hopened hret, ?_, hstays.disconnected⟩⟩
          · rw [hstays.length]
            exact Nat.le_of_lt (Nat.lt_of_lt_of_eq (Nat.lt_succ_self _) hlength.symm)
          · exact hstays.handle.trans hhandle

/-! ## `running` -/

@[simp] theorem running_onHandle (f : HandleInfo → HandleInfo) :
    (host.onHandle f).running = host.running := by
  unfold Host.onHandle
  split <;> rfl

@[simp] theorem running_claimInterface (interface : Int) (rc : Rc) :
    (host.claimInterface interface rc).running = host.running := by
  unfold Host.claimInterface
  split
  · exact running_onHandle _
  · rfl

@[simp] theorem running_openHandle (rc : Rc) : (host.openHandle rc).running = host.running := by
  unfold Host.openHandle
  split <;> rfl

@[simp] theorem running_closeHandle : host.closeHandle.running = host.running := by
  unfold Host.closeHandle
  split <;> rfl

theorem findDevice_running (w : History Host) (devices : Except Int (List DeviceInfo)) :
    (findDevice options w devices).1.now.running = w.now.running := by
  unfold findDevice
  split <;> rfl

theorem resolveEndpointTypes_running (w : History Host) (env : OpenEnv) :
    (resolveEndpointTypes errorName options w env).1.now.running = w.now.running := by
  have hfind := findDevice_running options w env.findList
  unfold resolveEndpointTypes
  generalize findDevice options w env.findList = found at hfind ⊢
  obtain ⟨w1, device⟩ := found
  cases device with
  | none => exact hfind
  | some device =>
    simp only
    split
    · exact hfind
    · split
      · exact hfind
      · split <;> exact hfind

theorem configure_running (w : History Host) (env : OpenEnv) :
    (configure errorName options w env).1.now.running = w.now.running := by
  have hclaim : (w.now.clearDisconnected.claimInterface options.interfaceNumber
      env.claimRc).running = w.now.running := running_claimInterface _ _
  unfold configure
  simp only
  split
  · rfl
  · split
    · exact hclaim
    · split
      · exact hclaim
      · exact (resolveEndpointTypes_running errorName options _ env).trans hclaim

theorem openDevice_running (w : History Host) (env : OpenEnv) :
    (openDevice errorName options w env).1.now.running = w.now.running := by
  have hopen : (w.now.obtainList.openHandle env.openRc).running = w.now.running :=
    running_openHandle _
  unfold openDevice
  split
  · rfl
  · simp only
    split
    · rfl
    · split
      · rfl
      · split
        · exact hopen
        · exact (configure_running errorName options _ env).trans hopen

end Device
