import S4Bridge.Device.Proof.Handles
import S4Bridge.Device.Proof.Endpoints

/-!
# All or nothing

* `openDevice_unopened`: `open` leaves the device alone where it throws before it has a handle.
* `configure_spec`: from then on the device is open and connected, whether or not the rest succeeds.
* `allOrNothing_iff`: so `open` is all-or-nothing but for the failures after `libusb_open`.
-/

namespace Device

open Startup (Rc Outcome)

variable (errorName : Int → String) (options : UsbOptions) {w : History Host}

/-! ## The calls of `open` -/

/-- `libusb_open` is called, and succeeds. -/
def Opens (env : OpenEnv) : Prop :=
  ∃ devices, env.deviceList = .ok devices ∧ devices.countP (matchesIds options) = 1 ∧
    ¬ env.openRc.val < 0

/-- What comes after `libusb_open` succeeds. -/
structure Configures (env : OpenEnv) : Prop where
  autoDetach : ¬ env.autoDetachRc.val < 0
  claim : ¬ env.claimRc.val < 0
  altSetting : ¬ env.altSettingRc.val < 0
  described : Described options env
  input : Listed options.inputEndpoint (selectedEndpoints options env.config)
  output : options.outputEndpoint = 0 ∨
    Listed options.outputEndpoint (selectedEndpoints options env.config)

theorem resolveEndpointTypes_ends (env : OpenEnv) :
    (resolveEndpointTypes errorName options w env).2 ≠ .running := by
  unfold resolveEndpointTypes
  generalize findDevice options w env.findList = found
  obtain ⟨w1, device⟩ := found
  cases device with
  | none => exact Outcome.noConfusion
  | some device =>
    simp only
    split
    · exact Outcome.noConfusion
    · split
      · exact Outcome.noConfusion
      · split <;> exact Outcome.noConfusion

/-- Resolving the endpoints changes the transfer types only. -/
theorem resolveEndpointTypes_device (env : OpenEnv) :
    (resolveEndpointTypes errorName options w env).1.now.device.handle = w.now.device.handle ∧
      (resolveEndpointTypes errorName options w env).1.now.device.disconnected =
        w.now.device.disconnected := by
  by_cases h : Described options env
  · rw [(resolveEndpointTypes_described errorName options h).2]
    exact ⟨rfl, rfl⟩
  · rw [(resolveEndpointTypes_undescribed errorName options h).2]
    exact ⟨rfl, rfl⟩

/-- With a handle, the call returns if everything succeeds; the handle stays in any case. -/
theorem configure_spec (env : OpenEnv) :
    ((configure errorName options w env).2 = .returned ↔ Configures options env) ∧
      (configure errorName options w env).2 ≠ .running ∧
      (configure errorName options w env).1.now.device.handle = w.now.device.handle ∧
      (configure errorName options w env).1.now.device.disconnected = false := by
  have hstays := stays_claimInterface w.now.clearDisconnected options.interfaceNumber env.claimRc
  unfold configure
  simp only
  split
  · rename_i hauto
    exact ⟨⟨Outcome.noConfusion, fun h => absurd hauto h.autoDetach⟩, Outcome.noConfusion, rfl, rfl⟩
  · rename_i hauto
    split
    · rename_i hclaim
      exact ⟨⟨Outcome.noConfusion, fun h => absurd hclaim h.claim⟩, Outcome.noConfusion,
        hstays.handle, hstays.disconnected⟩
    · rename_i hclaim
      split
      · rename_i halt
        exact ⟨⟨Outcome.noConfusion, fun h => absurd halt h.altSetting⟩, Outcome.noConfusion,
          hstays.handle, hstays.disconnected⟩
      · rename_i halt
        obtain ⟨hhandle, hdisconnected⟩ := resolveEndpointTypes_device errorName options
          (w := (w.step (·.clearDisconnected)).step
            (·.claimInterface options.interfaceNumber env.claimRc)) env
        refine ⟨⟨fun hret => ?_, fun h => ?_⟩, resolveEndpointTypes_ends errorName options env,
          hhandle.trans hstays.handle, hdisconnected.trans hstays.disconnected⟩
        · by_cases hdescribed : Described options env
          · obtain ⟨hin, hout⟩ :=
              (resolveEndpointTypes_described errorName options hdescribed).1.1 hret
            exact ⟨hauto, hclaim, halt, hdescribed, hin, hout⟩
          · exact absurd hret (resolveEndpointTypes_undescribed errorName options hdescribed).1
        · exact (resolveEndpointTypes_described errorName options h.described).1.2
            ⟨h.input, h.output⟩

/-! ## `open` -/

theorem isNone_find? {devices : List DeviceInfo} :
    (devices.find? (matchesIds options)).isNone = true ↔
      devices.countP (matchesIds options) = 0 := by
  rw [Option.isNone_iff_eq_none, List.find?_eq_none, List.countP_eq_zero]

/-- Where there is no handle, nothing has changed. -/
theorem openDevice_unopened {env : OpenEnv} (h : ¬ Opens options env) :
    (openDevice errorName options w env).2 ≠ .returned ∧
      (openDevice errorName options w env).1.now.device = w.now.device ∧
      (openDevice errorName options w env).1.now.handles = w.now.handles := by
  unfold openDevice
  split
  · exact ⟨Outcome.noConfusion, rfl, rfl⟩
  · rename_i devices hlist
    simp only [isNone_find?]
    split
    · exact ⟨Outcome.noConfusion, rfl, rfl⟩
    · split
      · exact ⟨Outcome.noConfusion, rfl, rfl⟩
      · have hrc : env.openRc.val < 0 := by
          by_contra hrc
          exact h ⟨devices, hlist, by omega, hrc⟩
        have hsame : w.now.obtainList.openHandle env.openRc = w.now.obtainList :=
          openHandle_failed hrc
        rw [if_pos hrc]
        refine ⟨Outcome.noConfusion, ?_, ?_⟩
        · show (w.now.obtainList.openHandle env.openRc).device = w.now.device
          rw [hsame]
          rfl
        · show (w.now.obtainList.openHandle env.openRc).handles = w.now.handles
          rw [hsame]
          rfl

/-- Once `libusb_open` has succeeded the rest of `open` runs on a device with a handle. -/
theorem openDevice_opened {env : OpenEnv} (h : Opens options env) :
    ∃ w' : History Host, openDevice errorName options w env = configure errorName options w' env ∧
      w'.now.device.handle ≠ none := by
  obtain ⟨devices, hlist, hcount, hrc⟩ := h
  have hsome : ¬ (devices.find? (matchesIds options)).isNone = true := by
    rw [isNone_find?]
    omega
  have hone : ¬ devices.countP (matchesIds options) > 1 := by omega
  refine ⟨((w.step (·.obtainList)).step (·.openHandle env.openRc)).step
    (·.freeList w.now.lists.length), ?_, ?_⟩
  · unfold openDevice
    rw [hlist]
    simp only [if_neg hone, if_neg hsome, if_neg hrc]
  · have hhandle := (openHandle_ok w.now.obtainList hrc).1
    intro hnone
    exact Option.some_ne_none _ (hhandle.symm.trans hnone)

/-! ## All or nothing -/

/-- No interface is claimed on a handle that is still open. -/
def Unclaimed (host : Host) : Prop := ∀ e ∈ host.handles, e.releases = 0 → e.data.claimed = none

/-- A call that throws leaves the device as it was, and no interface claimed if none was; one that
returns leaves it open and connected. -/
structure AllOrNothing (before : Host) (result : History Host × Outcome) : Prop where
  threw : ∀ message, result.2 = .threw message →
    result.1.now.device = before.device ∧ (Unclaimed before → Unclaimed result.1.now)
  returned : result.2 = .returned →
    result.1.now.device.handle ≠ none ∧ result.1.now.device.disconnected = false

/-- **Opening a closed device** is all-or-nothing if and only if there is no handle yet where it
throws. -/
theorem allOrNothing_iff (hclosed : w.now.device.handle = none) (env : OpenEnv) :
    AllOrNothing w.now (openDevice errorName options w env) ↔
      ¬ Opens options env ∨ Configures options env := by
  constructor
  · intro h
    by_contra hcontra
    obtain ⟨hopens, hconfigures⟩ := not_or.1 hcontra
    obtain ⟨w', heq, hhandle⟩ :=
      openDevice_opened errorName options (w := w) (Classical.not_not.1 hopens)
    obtain ⟨hreturned, hends, hstays, -⟩ := configure_spec errorName options (w := w') env
    rw [heq] at h
    have hthrew := h.threw
    generalize configure errorName options w' env = result at hreturned hends hstays hthrew
    obtain ⟨after, outcome⟩ := result
    cases outcome with
    | running => exact hends rfl
    | returned => exact hconfigures (hreturned.1 rfl)
    | threw message =>
      have hdevice := (hthrew message rfl).1
      exact hhandle (hstays.symm.trans ((congrArg UsbDevice.handle hdevice).trans hclosed))
  · intro h
    by_cases hopens : Opens options env
    · obtain ⟨w', heq, hhandle⟩ := openDevice_opened errorName options (w := w) hopens
      obtain ⟨hreturned, -, hstays, hconnected⟩ := configure_spec errorName options (w := w') env
      have hret := hreturned.2 (h.resolve_left fun hno => hno hopens)
      rw [heq]
      refine ⟨fun message hthrew => ?_, fun _ => ⟨?_, hconnected⟩⟩
      · cases hret.symm.trans hthrew
      · rw [hstays]
        exact hhandle
    · obtain ⟨hret, hdevice, hhandles⟩ := openDevice_unopened errorName options (w := w) hopens
      refine ⟨fun _ _ => ⟨hdevice, fun hunclaimed => ?_⟩, fun h => absurd h hret⟩
      rw [Unclaimed, hhandles]
      exact hunclaimed

/-- An open that succeeds, with an endpoint in each direction. -/
theorem allOrNothing_iff_open :
    AllOrNothing {} (openDevice (fun _ => "") { probeOptions with inputEndpoint := 0x84 }
        (History.start {}) (probeEnv twoEndpoints)) ↔
      ¬ Opens { probeOptions with inputEndpoint := 0x84 } (probeEnv twoEndpoints) ∨
        Configures { probeOptions with inputEndpoint := 0x84 } (probeEnv twoEndpoints) :=
  allOrNothing_iff (fun _ => "") { probeOptions with inputEndpoint := 0x84 } (w := History.start {})
    rfl (probeEnv twoEndpoints)

/-- `libusb_claim_interface` returns LIBUSB_ERROR_BUSY. -/
theorem not_allOrNothing_busy :
    ¬ AllOrNothing {} (openDevice (fun _ => "") { probeOptions with inputEndpoint := 0x84 }
        (History.start {}) { probeEnv twoEndpoints with claimRc := ⟨-6, by decide⟩ }) := by
  intro h
  have hdevice := (h.threw "Failed to claim USB interface: " rfl).1
  cases congrArg UsbDevice.handle hdevice

end Device
