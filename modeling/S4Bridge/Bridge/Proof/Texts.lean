import S4Bridge.Bridge.Connect

/-!
# The texts `connect` looks at

`connect` tells a hard error by the word "Multiple" in the text. Of the texts `open` and
`s4_mk1_init` throw, only that of more than one device has it (`openDevice_text`,
`s4Mk1Init_text`): every other one lacks a letter of the word, also with the name of an error
code at its end.
-/

namespace Bridge

open Device Startup

/-- What `libusb_error_name` returns for a code: the name of a constant, which has no small letters,
or a default. -/
def IsErrorName (name : String) : Prop :=
  name = "**UNKNOWN**" ∨
    ∃ rest : String, name = "LIBUSB_" ++ rest ∧ ∀ c ∈ rest.toList, c.isLower = false

/-- A text without one of the letters is no hard error. -/
theorem isHardError_of_not_mem {what : String} {c : Char} (hc : c ∈ "Multiple".toList)
    (h : c ∉ what.toList) : isHardError what = false :=
  decide_eq_false fun hname => h (hname.subset hc)

theorem isHardError_append {message name : String} {c : Char} (hc : c ∈ "Multiple".toList)
    (hmessage : c ∉ message.toList) (hname : c ∉ name.toList) :
    isHardError (message ++ name) = false := by
  apply isHardError_of_not_mem hc
  rw [String.toList_append, List.mem_append]
  exact fun h => h.elim hmessage hname

theorem noLower_of_all {l : List Char} (h : (l.all fun d => !d.isLower) = true) :
    ∀ d ∈ l, d.isLower = false := by
  intro d hd
  simpa using List.all_eq_true.1 h d hd

theorem not_mem_errorName {name : String} (h : IsErrorName name) {c : Char}
    (hc : c.isLower = true) : c ∉ name.toList := by
  have hall : ∀ d ∈ name.toList, d.isLower = false := by
    rcases h with rfl | ⟨rest, rfl, hrest⟩
    · exact noLower_of_all (by decide)
    · intro d hd
      rw [String.toList_append, List.mem_append] at hd
      rcases hd with hd | hd
      · have hlib : ∀ d ∈ "LIBUSB_".toList, d.isLower = false := noLower_of_all (by decide)
        exact hlib d hd
      · exact hrest d hd
  intro hmem
  exact absurd (hc.symm.trans (hall c hmem)) (by decide)

/-! ## Outcomes -/

/-- The outcome has no text of a hard error. -/
def Soft (outcome : Outcome) : Prop := ∀ what, outcome = .threw what → isHardError what = false

theorem soft_returned : Soft .returned := fun _ h => by cases h

theorem soft_running : Soft .running := fun _ h => by cases h

theorem soft_threw {what : String} (h : isHardError what = false) : Soft (.threw what) :=
  fun _ he => Outcome.threw.inj he ▸ h

/-- A text without `M`. -/
theorem soft_text {what : String} (h : 'M' ∉ what.toList) : Soft (.threw what) :=
  soft_threw (isHardError_of_not_mem (by decide) h)

variable {errorName : Int → String} (options : UsbOptions)

theorem soft_named (hname : ∀ rc, IsErrorName (errorName rc)) {message : String} {c : Char}
    (hc : c ∈ "Multiple".toList) (hlower : c.isLower = true) (hmessage : c ∉ message.toList)
    (rc : Int) : Soft (.threw (message ++ errorName rc)) :=
  soft_threw (isHardError_append hc hmessage (not_mem_errorName (hname rc) hlower))

/-! ## `open` -/

theorem resolveEndpointTypes_soft (hname : ∀ rc, IsErrorName (errorName rc)) (w : History Host)
    (env : OpenEnv) : Soft (resolveEndpointTypes errorName options w env).2 := by
  unfold resolveEndpointTypes
  split
  · exact soft_text (by decide)
  · split
    · exact soft_named hname (c := 'u') (by decide) (by decide) (by decide) _
    · simp only
      split
      · exact soft_text (by decide)
      · split
        · exact soft_text (by decide)
        · exact soft_returned

theorem configure_soft (hname : ∀ rc, IsErrorName (errorName rc)) (w : History Host)
    (env : OpenEnv) : Soft (configure errorName options w env).2 := by
  unfold configure
  simp only
  split
  · exact soft_named hname (c := 'p') (by decide) (by decide) (by decide) _
  · split
    · exact soft_named hname (c := 'p') (by decide) (by decide) (by decide) _
    · split
      · exact soft_named hname (c := 'p') (by decide) (by decide) (by decide) _
      · exact resolveEndpointTypes_soft options hname _ env

/-- More than one device with the configured ids is enumerated. -/
def multiple (env : OpenEnv) : Prop :=
  ∃ devices, env.deviceList = .ok devices ∧ devices.countP (matchesIds options) > 1

/-- With more than one device, `open` throws the text of a hard error. -/
theorem openDevice_multiple (errorName : Int → String) {options : UsbOptions} (w : History Host)
    {env : OpenEnv} (h : multiple options env) :
    ∃ what, (openDevice errorName options w env).2 = .threw what ∧ isHardError what = true := by
  obtain ⟨devices, hlist, hcount⟩ := h
  unfold openDevice
  rw [hlist]
  simp only [if_pos hcount]
  exact ⟨_, rfl, by decide +kernel⟩

/-- And it throws one only then. -/
theorem openDevice_soft (hname : ∀ rc, IsErrorName (errorName rc)) (w : History Host)
    {env : OpenEnv} (h : ¬ multiple options env) :
    Soft (openDevice errorName options w env).2 := by
  unfold openDevice
  split
  · exact soft_threw (isHardError_of_not_mem (c := 'p') (by decide) (by decide))
  · rename_i devices hlist
    simp only
    split
    · rename_i hcount
      exact absurd ⟨devices, hlist, hcount⟩ h
    · split
      · exact soft_text (by decide)
      · split
        · exact soft_named hname (c := 'u') (by decide) (by decide) (by decide) _
        · exact configure_soft options hname _ env

/-! ## `s4_mk1_init` -/

theorem cmdWait_soft (hname : ∀ rc, IsErrorName (errorName rc)) (w : History Usb) (inT outT : Nat)
    (rounds : List Round) : Soft (cmdWait errorName w inT outT rounds).2 := by
  unfold cmdWait
  split
  · exact soft_running
  · exact soft_threw (isHardError_of_not_mem (c := 'l') (by decide) (by decide))
  · simp only
    split
    · exact soft_named hname (c := 'u') (by decide) (by decide) (by decide) _
    · exact soft_returned

theorem cmdSubmit_soft (hname : ∀ rc, IsErrorName (errorName rc)) (w : History Usb)
    (inT outT : Nat) (env : CallEnv) : Soft (cmdSubmit errorName w inT outT env).2 := by
  unfold cmdSubmit
  simp only
  split
  · exact soft_named hname (c := 'p') (by decide) (by decide) (by decide) _
  · split
    · exact soft_named hname (c := 'p') (by decide) (by decide) (by decide) _
    · exact cmdWait_soft hname _ inT outT env.rounds

theorem cmd_soft (hname : ∀ rc, IsErrorName (errorName rc)) (dev : Startup.Device)
    (w : History Usb) (bytes : List UInt8) (env : CallEnv) :
    Soft (cmd errorName dev w bytes env).2 := by
  unfold cmd
  split
  · exact soft_text (by decide)
  · simp only
    split
    · exact cmdSubmit_soft hname _ _ _ env
    · exact soft_text (by decide)

theorem code_text (status : TransferStatus) : 'p' ∉ (toString status.code).toList := by
  cases status <;> decide +kernel

theorem ledWait_soft (w : History Usb) (ledT : Nat) (env : CallEnv) :
    Soft (ledWait w ledT env).2 := by
  unfold ledWait
  split
  · exact soft_running
  · split
    · exact soft_text (by decide)
    · exact soft_running
  · simp only
    split
    · exact soft_threw (isHardError_append (c := 'p') (by decide) (by decide) (code_text _))
    · exact soft_returned

theorem ledAsync_soft (hname : ∀ rc, IsErrorName (errorName rc)) (dev : Startup.Device)
    (w : History Usb) (data : List UInt8) (env : CallEnv) :
    Soft (ledAsync errorName dev w data env).2 := by
  unfold ledAsync
  simp only
  split
  · exact soft_text (by decide)
  · split
    · exact soft_named hname (c := 'p') (by decide) (by decide) (by decide) _
    · exact ledWait_soft _ _ env

theorem stopDrain84_soft (w : History Usb) (env : CallEnv) : Soft (stopDrain84 w env).2 := by
  unfold stopDrain84
  split
  · exact soft_returned
  · simp only
    split
    · split
      · exact soft_running
      · exact soft_returned
    · exact soft_returned

theorem startDrain84_soft (dev : Startup.Device) (w : History Usb) (env : CallEnv) :
    Soft (startDrain84 dev w env).2 := by
  unfold startDrain84
  split
  · exact soft_returned
  · exact soft_returned

theorem execStep_soft (hname : ∀ rc, IsErrorName (errorName rc)) (dev : Startup.Device)
    (w : History Usb) (step : InitStep) (env : CallEnv) :
    Soft (execStep errorName dev w step env).2 := by
  cases step with
  | cmd bytes => exact cmd_soft hname dev w bytes env
  | led packet => exact ledAsync_soft hname dev w packet env
  | startDrain => exact startDrain84_soft dev w env
  | stopDrain => exact stopDrain84_soft w env

/-- No step of the start-up sequence throws the text of a hard error. -/
theorem runSteps_soft (hname : ∀ rc, IsErrorName (errorName rc)) (dev : Startup.Device)
    (w : History Usb) (steps : List (InitStep × CallEnv)) :
    Soft (runSteps errorName dev w steps).2 := by
  induction steps generalizing w with
  | nil => exact soft_returned
  | cons step steps ih =>
    have hstep := execStep_soft hname dev w step.1 step.2
    rw [runSteps]
    split
    · exact ih _
    · rename_i hexec
      rw [hexec] at hstep
      exact hstep

end Bridge
