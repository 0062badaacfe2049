import S4Bridge.Bridge.Proof.Texts
import S4Bridge.Device.Proof.Handles

/-!
# The retry protocol of `connect`

Which turns `connect` makes and in which one it is left (`connect_protocol`): it goes on after every
exception that is not about more than one device, as long as `running` holds. What the device holds is
settled between turns, and a device `connect` returns with is ready (`connect_keeps`).
-/

namespace Bridge

open Device Startup

variable (errorName : Int → String) (options : UsbOptions)

/-! ## What a turn does -/

/-- The turn passes the check of `running`. -/
def Starts (w : History Host) (a : ConnectAttempt) : Prop :=
  a.signalled = false ∧ w.now.running = true

/-- `close`, `open` and `s4_mk1_init` succeed, in this order. -/
def Succeeds (w : History Host) (a : ConnectAttempt) (w' : History Host) : Prop :=
  ∃ w1 w2, openDevice errorName options (w.step (·.close)) a.openEnv = (w1, .returned) ∧
    initDevice errorName w1 a.initEnv = (w2, .returned) ∧ w' = w2.step (·.markInitialized)

/-- The attempts are made one after the other, each while `running` holds and with one device at
most, and each throws. -/
inductive Retried : History Host → List ConnectAttempt → History Host → Prop
  | nil (w : History Host) : Retried w [] w
  | cons {w w' w'' : History Host} {a : ConnectAttempt} {rest : List ConnectAttempt}
      {what : String} :
      Starts w a → ¬ multiple options a.openEnv →
      attempt errorName options w a = (w', .threw what) → Retried w' rest w'' →
      Retried w (a :: rest) w''

variable {errorName} {options} {w w' : History Host} {a : ConnectAttempt}
  {attempts : List ConnectAttempt}

theorem attempt_returned : attempt errorName options w a = (w', .returned) ↔
    Succeeds errorName options w a w' := by
  unfold attempt Succeeds
  rcases openDevice errorName options (w.step (·.close)) a.openEnv with ⟨w1, outcome⟩
  constructor
  · intro h
    cases outcome with
    | returned =>
      rcases hinit : initDevice errorName w1 a.initEnv with ⟨w2, ended⟩
      simp only [hinit] at h
      cases ended with
      | returned => exact ⟨w1, w2, rfl, hinit, (congrArg Prod.fst h).symm⟩
      | threw what => cases h
      | running => cases h
    | threw what => cases h
    | running => cases h
  · rintro ⟨w2, w3, hopen, hinit, rfl⟩
    obtain ⟨rfl, rfl⟩ := Prod.mk.inj hopen
    simp only [hinit]

theorem attempt_multiple (h : multiple options a.openEnv) : ∃ what,
    (attempt errorName options w a).2 = .threw what ∧ isHardError what = true := by
  obtain ⟨what, hopen, hhard⟩ := openDevice_multiple errorName (w.step (·.close)) h
  refine ⟨what, ?_, hhard⟩
  unfold attempt
  generalize openDevice errorName options (w.step (·.close)) a.openEnv = opened at hopen ⊢
  obtain ⟨w1, outcome⟩ := opened
  obtain rfl : outcome = .threw what := hopen
  rfl

theorem attempt_soft (hname : ∀ rc, IsErrorName (errorName rc))
    (h : ¬ multiple options a.openEnv) : Soft (attempt errorName options w a).2 := by
  have hopen := openDevice_soft options hname (w.step (·.close)) h
  unfold attempt
  generalize openDevice errorName options (w.step (·.close)) a.openEnv = opened at hopen ⊢
  obtain ⟨w1, outcome⟩ := opened
  cases outcome with
  | returned =>
    have hinit : Soft (initDevice errorName w1 a.initEnv).2 :=
      runSteps_soft hname _ _ (withEnv a.initEnv)
    simp only
    generalize initDevice errorName w1 a.initEnv = inited at hinit ⊢
    obtain ⟨w2, ended⟩ := inited
    cases ended with
    | returned => exact soft_returned
    | threw what => exact hinit
    | running => exact soft_running
  | threw what => exact hopen
  | running => exact soft_running

theorem connectTurn_stopped (h : ¬ Starts w a) :
    connectTurn errorName options w a = .exit (lookAtRunning w a.signalled) .stopped := by
  have hnot : (lookAtRunning w a.signalled).now.running = false := by
    unfold lookAtRunning
    cases hs : a.signalled with
    | true => rfl
    | false => exact Bool.not_eq_true _ ▸ fun hr => h ⟨hs, hr⟩
  unfold connectTurn
  simp only [hnot]
  rfl

theorem connectTurn_starts (h : Starts w a) :
    connectTurn errorName options w a =
      match attempt errorName options w a with
      | (w, .returned) => .exit w .connected
      | (w, .running) => .exit w .initRunning
      | (w, .threw what) =>
        if isHardError what then .exit (w.step (·.stopRunning)) (.hardError what) else .again w := by
  obtain ⟨hs, hr⟩ := h
  have hlook : lookAtRunning w a.signalled = w := by
    rw [lookAtRunning, hs]
    rfl
  unfold connectTurn
  simp only [hlook, hr]
  rfl

theorem attempt_running (errorName : Int → String) (options : UsbOptions) (w : History Host)
    (a : ConnectAttempt) :
    (attempt errorName options w a).1.now.running = w.now.running := by
  have hopen : (openDevice errorName options (w.step (·.close)) a.openEnv).1.now.running =
      w.now.running := (openDevice_running errorName options _ _).trans running_closeHandle
  unfold attempt
  generalize openDevice errorName options (w.step (·.close)) a.openEnv = opened at hopen ⊢
  obtain ⟨w1, outcome⟩ := opened
  cases outcome with
  | returned =>
    simp only
    rcases hinit : initDevice errorName w1 a.initEnv with ⟨w2, ended⟩
    have hsame : w2.now.running = w1.now.running := by
      have hw2 : w2 = (initDevice errorName w1 a.initEnv).1 := by rw [hinit]
      rw [hw2]
      rfl
    cases ended with
    | returned => exact (running_onHandle _).trans (hsame.trans hopen)
    | threw what => exact hsame.trans hopen
    | running => exact hsame.trans hopen
  | threw what => exact hopen
  | running => exact hopen

/-- How a turn leaves the loop. -/
def Leaves (errorName : Int → String) (options : UsbOptions) (w : History Host)
    (a : ConnectAttempt) (w' : History Host) : ConnectExit → Prop
  | .connected => Starts w a ∧ Succeeds errorName options w a w'
  | .hardError what => Starts w a ∧ multiple options a.openEnv ∧
    ∃ w1, attempt errorName options w a = (w1, .threw what) ∧ w' = w1.step (·.stopRunning)
  | .stopped => ¬ Starts w a ∧ w' = lookAtRunning w a.signalled
  | .initRunning => Starts w a ∧ attempt errorName options w a = (w', .running)

/-- The text of an exception is that of a hard error exactly if there is more than one device. -/
theorem isHardError_iff (hname : ∀ rc, IsErrorName (errorName rc)) {what : String}
    (h : attempt errorName options w a = (w', .threw what)) :
    isHardError what = true ↔ multiple options a.openEnv := by
  constructor
  · intro hhard
    by_contra hmultiple
    have hsoft := attempt_soft hname hmultiple what (congrArg Prod.snd h)
    exact absurd (hhard.symm.trans hsoft) (by decide)
  · intro hmultiple
    obtain ⟨what', hthrew, hhard⟩ := attempt_multiple (w := w) hmultiple
    rw [h] at hthrew
    exact Outcome.threw.inj hthrew ▸ hhard

theorem connectTurn_again (hname : ∀ rc, IsErrorName (errorName rc)) :
    connectTurn errorName options w a = .again w' ↔
      Starts w a ∧ ¬ multiple options a.openEnv ∧
        ∃ what, attempt errorName options w a = (w', .threw what) := by
  constructor
  · intro h
    by_cases hstarts : Starts w a
    · rw [connectTurn_starts hstarts] at h
      rcases hattempt : attempt errorName options w a with ⟨w1, outcome⟩
      rw [hattempt] at h
      cases outcome with
      | returned => cases h
      | running => cases h
      | threw what =>
        simp only at h
        split at h
        · cases h
        · rename_i hhard
          cases h
          exact ⟨hstarts, fun hm => hhard ((isHardError_iff hname hattempt).2 hm), what, rfl⟩
    · rw [connectTurn_stopped hstarts] at h
      cases h
  · rintro ⟨hstarts, hmultiple, what, hattempt⟩
    have hhard : ¬ isHardError what = true :=
      fun hh => hmultiple ((isHardError_iff hname hattempt).1 hh)
    rw [connectTurn_starts hstarts, hattempt]
    simp only [if_neg hhard]

theorem connectTurn_exit (hname : ∀ rc, IsErrorName (errorName rc)) {how : ConnectExit} :
    connectTurn errorName options w a = .exit w' how ↔ Leaves errorName options w a w' how := by
  constructor
  · intro h
    by_cases hstarts : Starts w a
    · rw [connectTurn_starts hstarts] at h
      rcases hattempt : attempt errorName options w a with ⟨w1, outcome⟩
      rw [hattempt] at h
      cases outcome with
      | returned =>
        cases h
        exact ⟨hstarts, attempt_returned.1 hattempt⟩
      | running =>
        cases h
        exact ⟨hstarts, hattempt⟩
      | threw what =>
        simp only at h
        split at h
        · rename_i hhard
          cases h
          exact ⟨hstarts, (isHardError_iff hname hattempt).1 hhard, w1, hattempt, rfl⟩
        · cases h
    · rw [connectTurn_stopped hstarts] at h
      cases h
      exact ⟨hstarts, rfl⟩
  · intro h
    cases how with
    | connected =>
      rw [connectTurn_starts h.1, attempt_returned.2 h.2]
    | hardError what =>
      obtain ⟨hstarts, hmultiple, w1, hattempt, rfl⟩ := h
      have hhard := (isHardError_iff hname hattempt).2 hmultiple
      rw [connectTurn_starts hstarts, hattempt]
      simp only [if_pos hhard]
    | stopped =>
      obtain ⟨hstarts, rfl⟩ := h
      exact connectTurn_stopped hstarts
    | initRunning =>
      rw [connectTurn_starts h.1, h.2]

theorem agains_iff (hname : ∀ rc, IsErrorName (errorName rc)) {attempts : List ConnectAttempt} :
    Retry.Agains (connectTurn errorName options) w attempts w' ↔
      Retried errorName options w attempts w' := by
  constructor
  · intro h
    induction h with
    | nil w => exact .nil w
    | cons hturn _ ih =>
      obtain ⟨hstarts, hmultiple, what, hattempt⟩ := (connectTurn_again hname).1 hturn
      exact .cons hstarts hmultiple hattempt ih
  · intro h
    induction h with
    | nil w => exact .nil w
    | cons hstarts hmultiple hattempt _ ih =>
      exact .cons ((connectTurn_again hname).2 ⟨hstarts, hmultiple, _, hattempt⟩) ih

theorem leaves_running {how : ConnectExit} (h : Leaves errorName options w a w' how) :
    (how = .connected → w'.now.running = true) ∧
      (∀ what, how = .hardError what → w'.now.running = false) ∧
      (how = .stopped → w'.now.running = false) := by
  refine ⟨?_, ?_, ?_⟩
  · rintro rfl
    have hattempt := attempt_returned.2 h.2
    have hrunning := attempt_running errorName options w a
    rw [hattempt] at hrunning
    exact hrunning.trans h.1.2
  · rintro what rfl
    obtain ⟨-, -, w1, -, rfl⟩ := h
    rfl
  · rintro rfl
    obtain ⟨hstarts, rfl⟩ := h
    unfold lookAtRunning
    cases hs : a.signalled with
    | true => rfl
    | false => exact Bool.not_eq_true _ ▸ fun hr => hstarts ⟨hs, hr⟩

theorem connect_eq_some_iff (hname : ∀ rc, IsErrorName (errorName rc)) {how : ConnectExit} :
    connect errorName options w attempts = (w', some how) ↔
      ∃ before a after w1, attempts = before ++ a :: after ∧
        Retried errorName options w before w1 ∧ Leaves errorName options w1 a w' how := by
  rw [connect, Retry.run_eq_some_iff]
  simp only [agains_iff hname, connectTurn_exit hname]

/-- `connect` clears `running` itself exactly at an attempt that finds more than one device. -/
theorem connect_hardError_iff (hname : ∀ rc, IsErrorName (errorName rc)) :
    (∃ w' what, connect errorName options w attempts = (w', some (.hardError what))) ↔
      ∃ before a after w1, attempts = before ++ a :: after ∧
        Retried errorName options w before w1 ∧ Starts w1 a ∧ multiple options a.openEnv := by
  constructor
  · rintro ⟨w', what, h⟩
    obtain ⟨before, a, after, w1, hsplit, hretried, hstarts, hmultiple, -⟩ :=
      (connect_eq_some_iff hname).1 h
    exact ⟨before, a, after, w1, hsplit, hretried, hstarts, hmultiple⟩
  · rintro ⟨before, a, after, w1, hsplit, hretried, hstarts, hmultiple⟩
    obtain ⟨what, hthrew, -⟩ : ∃ what, (attempt errorName options w1 a).2 = .threw what ∧
        isHardError what = true := attempt_multiple hmultiple
    have hleaves : Leaves errorName options w1 a
        ((attempt errorName options w1 a).1.step (·.stopRunning)) (.hardError what) :=
      ⟨hstarts, hmultiple, (attempt errorName options w1 a).1, by rw [← hthrew], rfl⟩
    exact ⟨_, what, (connect_eq_some_iff hname).2
      ⟨before, a, after, w1, hsplit, hretried, hleaves⟩⟩

/-- **The retry protocol**: `connect` goes from one attempt to the next, starting from `close`, as
long as `running` holds and the attempts fail otherwise than by finding more than one device; it
returns true in the first that succeeds, clears `running` itself exactly at one that finds more than
one device, and returns false only with `running` false. -/
theorem connect_protocol (hname : ∀ rc, IsErrorName (errorName rc)) (options : UsbOptions)
    (w : History Host) (attempts : List ConnectAttempt) :
    (∀ w' how, connect errorName options w attempts = (w', some how) ↔
      ∃ before a after w1, attempts = before ++ a :: after ∧
        Retried errorName options w before w1 ∧ Leaves errorName options w1 a w' how) ∧
    (∀ w', connect errorName options w attempts = (w', none) ↔
      Retried errorName options w attempts w') ∧
    ((∃ w' what, connect errorName options w attempts = (w', some (.hardError what))) ↔
      ∃ before a after w1, attempts = before ++ a :: after ∧
        Retried errorName options w before w1 ∧ Starts w1 a ∧ multiple options a.openEnv) ∧
    ∀ w' how, connect errorName options w attempts = (w', some how) →
      (how = .connected → w'.now.running = true) ∧
      (∀ what, how = .hardError what → w'.now.running = false) ∧
      (how = .stopped → w'.now.running = false) := by
  refine ⟨fun w' how => connect_eq_some_iff hname, fun w' => ?_, connect_hardError_iff hname,
    fun w' how h => ?_⟩
  · rw [connect, Retry.run_eq_none_iff]
    exact agains_iff hname
  · obtain ⟨before, a, after, w1, -, -, hleaves⟩ := (connect_eq_some_iff hname).1 h
    exact leaves_running hleaves

/-- An `open` in which every call succeeds. -/
def smoothOpen (devices : List DeviceInfo) (config : ConfigDescriptor) : OpenEnv :=
  ⟨.ok devices, .ok, .ok, .ok, .ok, .ok devices, .ok, .ok, config⟩

/-- The device is refused at first; then there are two. -/
theorem connect_protocol_two_devices :
    let errorName (rc : Int) := if rc = -3 then "LIBUSB_ERROR_ACCESS" else "**UNKNOWN**"
    let device : DeviceInfo := ⟨some (0x17CC, 0xBAFF)⟩
    let idle : Nat → CallEnv := fun _ => ⟨fun _ => true, fun _ => .ok, [], []⟩
    let refused : ConnectAttempt :=
      ⟨false, { smoothOpen [device] [] with openRc := ⟨-3, by decide⟩ }, idle⟩
    let doubled : ConnectAttempt := ⟨false, smoothOpen [device, device] [], idle⟩
    ∃ w', connect errorName { vendorId := 0x17CC, productId := 0xBAFF } (.start {})
        [refused, doubled] = (w', some (.hardError
          ("Multiple S4 MK1 devices detected — only one device can be used at a time. " ++
            "Unplug the extra unit and try again."))) ∧
      w'.now.running = false := by
  intro errorName device idle refused doubled
  have hname : ∀ rc, IsErrorName (errorName rc) := by
    intro rc
    by_cases hrc : rc = -3
    · have htext : errorName rc = "LIBUSB_" ++ "ERROR_ACCESS" := by
        simp only [errorName, if_pos hrc]
        rfl
      exact .inr ⟨"ERROR_ACCESS", htext, noLower_of_all (by decide)⟩
    · exact .inl (if_neg hrc)
  obtain ⟨hsome, -, -, hrunning⟩ := connect_protocol hname
    { vendorId := 0x17CC, productId := 0xBAFF } (.start {}) [refused, doubled]
  have hretried : Retried errorName { vendorId := 0x17CC, productId := 0xBAFF } (.start {})
      [refused] _ :=
    .cons ⟨rfl, rfl⟩ (by rintro ⟨devices, hlist, hcount⟩; cases hlist; exact absurd hcount (by decide))
      rfl (.nil _)
  have htwo : multiple { vendorId := 0x17CC, productId := 0xBAFF } doubled.openEnv :=
    ⟨[device, device], rfl, by decide⟩
  have hexit := (hsome _ (.hardError _)).2
    ⟨[refused], doubled, [], _, rfl, hretried, ⟨rfl, rfl⟩, htwo, _, rfl, rfl⟩
  exact ⟨_, hexit, (hrunning _ _ hexit).2.1 _ rfl⟩

/-! ## What the device holds -/

/-- Ready, with a handle that is not among the first `since`. -/
structure ReadySince (interface : Int) (since : Nat) (host : Host) : Prop where
  ready : Ready interface host
  handle : ∃ id, host.device.handle = some id ∧ since ≤ id
  connected : host.device.disconnected = false

theorem initDevice_keeps (errorName : Int → String) (hw : w.Holds Sound Quiet) (env : Nat → CallEnv) :
    (initDevice errorName w env).1.Holds Sound Quiet ∧
      ∃ usb, (initDevice errorName w env).1.now = w.now.setUsb usb :=
  ⟨hw.lift (fun usb => (hw.now.setUsb usb).sound) (hw.now.setUsb _), _, rfl⟩

theorem markInitialized_ready {host : Host} {interface : Int} (h : Opened interface host) :
    Ready interface host.markInitialized := by
  obtain ⟨e, hcurrent, hclaimed⟩ := h
  refine ⟨{ e with data := { e.data with initialized := true } }, ?_, ?_⟩
  · rw [Host.markInitialized, current_onHandle, hcurrent]
    rfl
  · simp only [← hclaimed]

theorem length_close (host : Host) : host.close.handles.length = host.handles.length := by
  unfold Host.close Host.closeHandle
  split
  · rfl
  · exact Ledger.length_release.trans Ledger.length_update

theorem attempt_keeps (errorName : Int → String) (options : UsbOptions)
    (hw : w.Holds Sound Quiet) (a : ConnectAttempt) :
    (attempt errorName options w a).1.Holds Sound Quiet ∧
      w.now.handles.length ≤ (attempt errorName options w a).1.now.handles.length ∧
      ((attempt errorName options w a).2 = .returned →
        ReadySince options.interfaceNumber w.now.handles.length
          (attempt errorName options w a).1.now) := by
  have hclosed : (w.step (·.close)).Holds Sound Closed :=
    hw.step (fun _ h => h.quiet.sound) (Quiet.close hw.now)
  have hlen : (w.step (·.close)).now.handles.length = w.now.handles.length := length_close w.now
  obtain ⟨hopen, hgrows, hends, hopened⟩ := openDevice_keeps errorName options hclosed a.openEnv
  rw [hlen] at hgrows hopened
  unfold attempt
  generalize openDevice errorName options (w.step (·.close)) a.openEnv = opened at *
  obtain ⟨w1, outcome⟩ := opened
  cases outcome with
  | running => exact absurd rfl hends
  | threw what => exact ⟨hopen, hgrows, fun h => (by cases h)⟩
  | returned =>
    obtain ⟨hinit, usb, husb⟩ := initDevice_keeps errorName hopen a.initEnv
    obtain ⟨hclaimed, hhandle, hconn⟩ := hopened rfl
    simp only at *
    generalize initDevice errorName w1 a.initEnv = inited at *
    obtain ⟨w2, ended⟩ := inited
    have hgrows2 : w.now.handles.length ≤ w2.now.handles.length := by
      rw [husb]
      exact hgrows
    cases ended with
    | running => exact ⟨hinit, hgrows2, fun h => (by cases h)⟩
    | threw what => exact ⟨hinit, hgrows2, fun h => (by cases h)⟩
    | returned =>
      have hmark := holds_step hinit (·.markInitialized) hinit.now.markInitialized
      have hstays : Stays w2.now w2.now.markInitialized := stays_onHandle _
      have hclaimed2 : Opened options.interfaceNumber w2.now := by
        rw [husb]
        exact hclaimed
      refine ⟨hmark, hstays.length ▸ hgrows2, fun _ => ⟨?_, ?_, ?_⟩⟩
      · exact markInitialized_ready hclaimed2
      · refine ⟨w.now.handles.length, hstays.handle.trans ?_, Nat.le_refl _⟩
        rw [husb]
        exact hhandle
      · refine hstays.disconnected.trans ?_
        rw [husb]
        exact hconn

theorem ReadySince.mono {interface : Int} {n m : Nat} {host : Host}
    (h : ReadySince interface m host) (hle : n ≤ m) : ReadySince interface n host := by
  obtain ⟨id, hid, hm⟩ := h.handle
  exact ⟨h.ready, ⟨id, hid, Nat.le_trans hle hm⟩, h.connected⟩

/-- What holds in a loop that began with `since` handles, and where it is left. -/
def ConnectKeeps (interface : Int) (since : Nat) (w : History Host) (how : Option ConnectExit) :
    Prop :=
  w.Holds Sound Quiet ∧ since ≤ w.now.handles.length ∧
    (how = some .connected → ReadySince interface since w.now)

theorem lookAtRunning_keeps (hw : w.Holds Sound Quiet) (signalled : Bool) :
    (lookAtRunning w signalled).Holds Sound Quiet ∧
      (lookAtRunning w signalled).now.handles = w.now.handles ∧
      (lookAtRunning w signalled).now.device = w.now.device := by
  unfold lookAtRunning
  cases signalled with
  | false => exact ⟨hw, rfl, rfl⟩
  | true => exact ⟨holds_step hw (·.stopRunning) hw.now.stopRunning, rfl, rfl⟩

theorem connectTurn_keeps (errorName : Int → String) (options : UsbOptions) {since : Nat}
    (hw : w.Holds Sound Quiet) (hsince : since ≤ w.now.handles.length) (a : ConnectAttempt) :
    (connectTurn errorName options w a).Ends
      (fun w' => w'.Holds Sound Quiet ∧ since ≤ w'.now.handles.length)
      (ConnectKeeps options.interfaceNumber since) := by
  obtain ⟨hlook, hhandles, -⟩ := lookAtRunning_keeps hw a.signalled
  rw [← hhandles] at hsince
  unfold connectTurn
  simp only
  split
  · exact ⟨hlook, hsince, fun h => (by cases h)⟩
  · obtain ⟨hkept, hgrows, hready⟩ := attempt_keeps errorName options hlook a
    generalize attempt errorName options (lookAtRunning w a.signalled) a = attempted at *
    obtain ⟨w1, outcome⟩ := attempted
    have hsince1 := Nat.le_trans hsince hgrows
    cases outcome with
    | returned => exact ⟨hkept, hsince1, fun _ => (hready rfl).mono hsince⟩
    | running => exact ⟨hkept, hsince1, fun h => (by cases h)⟩
    | threw what =>
      show Retry.Turn.Ends _ _ (if isHardError what then _ else _)
      split
      · exact ⟨holds_step hkept (·.stopRunning) hkept.now.stopRunning, hsince1,
          fun h => (by cases h)⟩
      · exact ⟨hkept, hsince1⟩

/-- **Connecting** keeps what is held, and makes the device ready on a new handle where it returns
true. -/
theorem connect_keeps (errorName : Int → String) (options : UsbOptions)
    (hw : w.Holds Sound Quiet) (attempts : List ConnectAttempt) :
    ConnectKeeps options.interfaceNumber w.now.handles.length
      (connect errorName options w attempts).1 (connect errorName options w attempts).2 :=
  Retry.run_induct (fun _ h => ⟨h.1, h.2, fun hn => (by cases hn)⟩)
    (fun _ a h => connectTurn_keeps errorName options h.1 h.2 a) ⟨hw, Nat.le_refl _⟩

/-- Where `connect` returns false, `running` is false. -/
theorem connect_stopped (errorName : Int → String) (options : UsbOptions) (w : History Host)
    (attempts : List ConnectAttempt) :
    ∀ how, (connect errorName options w attempts).2 = some how →
      how = .connected ∨ how = .initRunning ∨
        (connect errorName options w attempts).1.now.running = false := by
  refine Retry.run_induct (Q := fun _ => True)
    (R := fun (w' : History Host) (exit : Option ConnectExit) => ∀ how : ConnectExit,
      exit = some how → how = .connected ∨ how = .initRunning ∨ w'.now.running = false)
    (fun w' _ how h => (by cases h)) (fun w' a _ => ?_) trivial
  unfold connectTurn
  simp only
  split
  · rename_i hnot
    rintro how h
    exact .inr (.inr (by simpa using hnot))
  · generalize attempt errorName options (lookAtRunning w' a.signalled) a = attempted
    obtain ⟨w1, outcome⟩ := attempted
    cases outcome with
    | returned => exact fun how h => .inl (Option.some.inj h).symm
    | running => exact fun how h => .inr (.inl (Option.some.inj h).symm)
    | threw what =>
      show Retry.Turn.Ends _ _ (if isHardError what then _ else _)
      split
      · exact fun how _ => .inr (.inr rfl)
      · trivial

end Bridge
