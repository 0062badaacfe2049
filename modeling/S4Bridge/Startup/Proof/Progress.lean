import S4Bridge.Startup.Proof.Lifecycle
import S4Bridge.Startup.Proof.Ownership

/-!
# Where the start-up can hang

Every wait of the start-up has a deadline but one: `led_async` waits for the transfer it has cancelled
until its callback has run. With a clock that goes on (`ClockGoesOn`) a command and the stop of the
drain always end (`cmd_ends`, `stopDrain84_ends`), and an LED write ends unless its transfer is never
completed, before the deadline or after the cancellation (`ledAsync_running_iff`). So the whole
sequence hangs exactly in the first LED write that is reached and is of this kind (`init_hangs_iff`).
-/

namespace Startup

open Transfers

variable {w : History Usb} {id : Nat} {ids : List Nat} {rounds : List Round} {env : CallEnv}

/-- A call that waits long enough sees the clock past its deadline. -/
def ClockGoesOn (env : CallEnv) : Prop := ∃ round ∈ env.rounds, round.late = true

/-- The completions of a wait up to its deadline. -/
def untilLate : List Round → List Completion
  | [] => []
  | round :: rounds => round.completions ++ if round.late then [] else untilLate rounds

/-- libusb completes transfer `id` before the deadline or after the cancellation. -/
def everCompleted (id : Nat) (env : CallEnv) : Bool :=
  (untilLate env.rounds ++ env.cancelRounds.flatten).any (·.id == id)

/-! ## Waits -/

theorem late_of_cons {round : Round} (h : ∃ r ∈ round :: rounds, r.late = true)
    (hlate : ¬ round.late = true) : ∃ r ∈ rounds, r.late = true := by
  obtain ⟨r, hmem, hr⟩ := h
  rcases List.mem_cons.1 hmem with rfl | hmem
  · exact absurd hr hlate
  · exact ⟨r, hmem, hr⟩

theorem waitLoop_ends (h : ∃ round ∈ rounds, round.late = true) :
    (waitLoop ids w rounds).2 ≠ .running := by
  induction rounds generalizing w with
  | nil => simp at h
  | cons round rounds ih =>
    rw [waitLoop]
    split
    · exact WaitExit.noConfusion
    · simp only
      split
      · exact WaitExit.noConfusion
      · rename_i hlate
        exact ih (late_of_cons h hlate)

theorem stopLoop_ends_by_clock (h : ∃ round ∈ rounds, round.late = true) :
    (stopLoop w rounds).2 ≠ .running := by
  induction rounds generalizing w with
  | nil => simp at h
  | cons round rounds ih =>
    rw [stopLoop]
    split
    · exact WaitExit.noConfusion
    · split
      · exact WaitExit.noConfusion
      · rename_i hlate
        exact ih (late_of_cons h hlate)

theorem all_singleton_isDone (u : Usb) : [id].all u.isDone = u.isDone id := by simp

/-- When a wait for one transfer has ended, the transfer is done if it was completed in it. -/
theorem isDone_waitLoop (h : Waiting id w.now) (hend : (waitLoop [id] w rounds).2 ≠ .running) :
    (waitLoop [id] w rounds).1.now.isDone id =
      (w.now.isDone id || (untilLate rounds).any (·.id == id)) := by
  induction rounds generalizing w with
  | nil => simp [waitLoop, untilLate]
  | cons round rounds ih =>
    obtain ⟨hwait, hdone⟩ := h.handleEvents round.completions
    rw [waitLoop, all_singleton_isDone] at hend ⊢
    cases hnow : w.now.isDone id with
    | true => simp [hnow]
    | false =>
      rw [hnow] at hdone hend
      simp only [Bool.false_eq_true, if_false, Bool.false_or] at hend hdone ⊢
      rw [untilLate, List.any_append, ← hdone]
      cases hlate : round.late with
      | true => simp
      | false =>
        rw [hlate] at hend
        exact ih hwait hend

/-- A wait without a deadline ends if the transfer is completed. -/
theorem waitLoop_done_iff (h : Waiting id w.now) (cancelRounds : List (List Completion)) :
    (waitLoop [id] w (cancelRounds.map (⟨·, false⟩))).2 = .done ↔
      (w.now.isDone id || cancelRounds.flatten.any (·.id == id)) = true := by
  induction cancelRounds generalizing w with
  | nil =>
    rw [List.map_nil, waitLoop, all_singleton_isDone]
    cases w.now.isDone id <;> simp
  | cons completions cancelRounds ih =>
    obtain ⟨hwait, hdone⟩ := h.handleEvents completions
    rw [List.map_cons, waitLoop, all_singleton_isDone]
    cases hnow : w.now.isDone id with
    | true => simp
    | false =>
      rw [hnow, Bool.false_or] at hdone
      simp only [Bool.false_eq_true, if_false, Bool.false_or]
      rw [List.flatten_cons, List.any_append, ← hdone]
      exact ih hwait

/-! ## Calls -/

variable (errorName : Int → String) (dev : Device)

theorem cmdWait_ends (hclock : ∃ round ∈ rounds, round.late = true) (inT outT : Nat) :
    (cmdWait errorName w inT outT rounds).2 ≠ .running := by
  have hwait : (waitLoop [inT, outT] w rounds).2 ≠ .running := waitLoop_ends hclock
  unfold cmdWait
  cases hr : waitLoop [inT, outT] w rounds with
  | mk w1 exit =>
    rw [hr] at hwait
    cases exit with
    | running => exact absurd rfl hwait
    | deadline => exact Outcome.noConfusion
    | done =>
      simp only
      split <;> exact Outcome.noConfusion

theorem cmdSubmit_ends (hclock : ClockGoesOn env) (w : History Usb) (inT outT : Nat) :
    (cmdSubmit errorName w inT outT env).2 ≠ .running := by
  unfold cmdSubmit
  simp only
  split
  · exact Outcome.noConfusion
  · split
    · exact Outcome.noConfusion
    · exact cmdWait_ends errorName hclock inT outT

/-- **A command ends**, whatever libusb completes. -/
theorem cmd_ends (hclock : ClockGoesOn env) (w : History Usb) (bytes : List UInt8) :
    (cmd errorName dev w bytes env).2 ≠ .running := by
  unfold cmd allocTransfer
  split
  · exact Outcome.noConfusion
  · cases env.alloc 0 with
    | false => exact Outcome.noConfusion
    | true =>
      cases env.alloc 1 with
      | false => exact Outcome.noConfusion
      | true => exact cmdSubmit_ends errorName hclock _ _ _

/-- **The drain is stopped**, even if it goes on. -/
theorem stopDrain84_ends (hclock : ClockGoesOn env) (w : History Usb) :
    (stopDrain84 w env).2 ≠ .running := by
  unfold stopDrain84
  cases w.now.drain.t with
  | none => exact Outcome.noConfusion
  | some t =>
    cases hactive : w.now.drain.active with
    | false => exact Outcome.noConfusion
    | true =>
      have hstop := stopLoop_ends_by_clock (w := w.step (·.cancel t)) hclock
      simp only [if_true, if_neg hstop]
      exact Outcome.noConfusion

/-- An LED write whose transfer is submitted goes on for ever if the transfer is never completed. -/
theorem ledWait_running_iff (hclock : ClockGoesOn env) (h : Waiting id w.now)
    (hnot : w.now.isDone id = false) :
    (ledWait w id env).2 = .running ↔ everCompleted id env = false := by
  have hends : (waitLoop [id] w env.rounds).2 ≠ .running := waitLoop_ends hclock
  have hdone := isDone_waitLoop h hends
  have hwaiting : ∀ j ∈ [id], Waiting j w.now := fun j hj => by rwa [List.mem_singleton.1 hj]
  obtain ⟨hwait, -, hall, -⟩ := waitLoop_spec env.rounds hwaiting
  rw [hnot, Bool.false_or] at hdone
  rw [everCompleted, List.any_append, ← hdone]
  unfold ledWait
  cases hr : waitLoop [id] w env.rounds with
  | mk w1 exit =>
    rw [hr] at hends hwait hall
    cases exit with
    | running => exact absurd rfl hends
    | done =>
      have hdone1 : w1.now.isDone id = true := by
        rw [← all_singleton_isDone]
        exact (all_isDone_iff _ _).2 (hall rfl)
      simp only [hdone1, Bool.true_or, Bool.true_eq_false, iff_false]
      split <;> exact Outcome.noConfusion
    | deadline =>
      have hwait1 : Waiting id (w1.step (·.cancel id)).now := hwait id (List.mem_singleton_self id)
      have hcancel := waitLoop_done_iff hwait1 env.cancelRounds
      simp only
      cases hr2 : waitLoop [id] (w1.step (·.cancel id)) (env.cancelRounds.map (⟨·, false⟩)) with
      | mk w2 exit2 =>
        rw [hr2] at hcancel
        rw [← Bool.not_eq_true]
        refine Iff.trans ?_ (not_congr hcancel)
        cases exit2 with
        | done => exact iff_of_false Outcome.noConfusion fun h => h rfl
        | deadline => exact iff_of_true rfl WaitExit.noConfusion
        | running => exact iff_of_true rfl WaitExit.noConfusion

/-- **An LED write hangs** exactly if it is submitted and libusb never completes it. -/
theorem ledAsync_running_iff (hclock : ClockGoesOn env) (w : History Usb) (data : List UInt8) :
    (ledAsync errorName dev w data env).2 = .running ↔
      env.alloc 0 = true ∧ (env.submit 0).val = 0 ∧
        everCompleted w.now.transfers.length env = false := by
  have hready : Ready w.now.transfers.length
      (w.now.alloc.fill w.now.transfers.length dev.handle epLed data .xferCb) :=
    alloc_fill_ready ..
  unfold ledAsync allocTransfer
  cases env.alloc 0 with
  | false => simp
  | true =>
    simp only [if_true, true_and]
    split
    · rename_i hrc
      refine iff_of_false Outcome.noConfusion fun h => ?_
      exact (rc_neg_iff _).1 hrc h.1
    · rename_i hrc
      have hok : (env.submit 0).val = 0 := not_not.1 fun h => hrc ((rc_neg_iff _).2 h)
      obtain ⟨hwait, hnot⟩ := hready.submit hok
      rw [and_iff_right hok]
      exact ledWait_running_iff hclock hwait hnot

/-! ## The sequence -/

/-- The step hangs: an LED write that is submitted and never completed. -/
def stepHangs (u : Usb) : InitStep → CallEnv → Bool
  | .led _, env =>
    env.alloc 0 && decide ((env.submit 0).val = 0) && !everCompleted u.transfers.length env
  | _, _ => false

theorem execStep_running_iff (hclock : ClockGoesOn env) (w : History Usb) (step : InitStep) :
    (execStep errorName dev w step env).2 = .running ↔ stepHangs w.now step env = true := by
  cases step with
  | cmd bytes => exact iff_of_false (cmd_ends errorName dev hclock w bytes) Bool.false_ne_true
  | led packet =>
    refine (ledAsync_running_iff errorName dev hclock w packet).trans ?_
    simp [stepHangs, and_assoc]
  | startDrain =>
    refine iff_of_false ?_ Bool.false_ne_true
    show (startDrain84 dev w env).2 ≠ .running
    unfold startDrain84
    split <;> exact Outcome.noConfusion
  | stopDrain => exact iff_of_false (stopDrain84_ends hclock w) Bool.false_ne_true

theorem runSteps_cons (w : History Usb) (step : InitStep) (env : CallEnv)
    (rest : List (InitStep × CallEnv)) :
    runSteps errorName dev w ((step, env) :: rest) =
      if (execStep errorName dev w step env).2 = .returned then
        runSteps errorName dev (execStep errorName dev w step env).1 rest
      else execStep errorName dev w step env := by
  rw [runSteps]
  cases execStep errorName dev w step env with
  | mk w1 outcome => cases outcome <;> rfl

/-- A sequence does not end exactly if a step that is reached does not. -/
theorem runSteps_running_iff {steps : List (InitStep × CallEnv)} :
    (runSteps errorName dev w steps).2 = .running ↔
      ∃ before step env after, steps = before ++ (step, env) :: after ∧
        (runSteps errorName dev w before).2 = .returned ∧
        (execStep errorName dev (runSteps errorName dev w before).1 step env).2 = .running := by
  induction steps generalizing w with
  | nil =>
    refine iff_of_false Outcome.noConfusion ?_
    rintro ⟨before, step, env, after, hsteps, -⟩
    cases before <;> cases hsteps
  | cons first steps ih =>
    obtain ⟨step, env⟩ := first
    rw [runSteps_cons]
    by_cases hfirst : (execStep errorName dev w step env).2 = .returned
    · rw [if_pos hfirst, ih]
      constructor
      · rintro ⟨before, step', env', after, rfl, hreached⟩
        refine ⟨(step, env) :: before, step', env', after, rfl, ?_⟩
        rw [runSteps_cons, if_pos hfirst]
        exact hreached
      · rintro ⟨before, step', env', after, hsteps, hreached⟩
        rcases List.cons_eq_append_iff.1 hsteps with ⟨rfl, hsame⟩ | ⟨before, rfl, rfl⟩
        · cases hsame
          cases hfirst.symm.trans hreached.2
        · rw [runSteps_cons, if_pos hfirst] at hreached
          exact ⟨before, step', env', after, rfl, hreached⟩
    · rw [if_neg hfirst]
      constructor
      · exact fun hrunning => ⟨[], step, env, steps, rfl, rfl, hrunning⟩
      · rintro ⟨before, step', env', after, hsteps, hreached⟩
        rcases List.cons_eq_append_iff.1 hsteps with ⟨rfl, hsame⟩ | ⟨before, rfl, -⟩
        · cases hsame
          exact hreached.2
        · rw [runSteps_cons, if_neg hfirst] at hreached
          exact absurd hreached.1 hfirst

/-- **Where the start-up hangs.** With a clock that goes on, it does not end exactly if an LED write is
reached whose transfer is submitted and which libusb completes neither before the deadline nor after
the cancellation. -/
theorem init_hangs_iff {env : Nat → CallEnv} (hclock : ∀ k, ClockGoesOn (env k)) (w : History Usb) :
    (s4Mk1Init errorName dev w env).2 = .running ↔
      ∃ before packet call after, withEnv env = before ++ (.led packet, call) :: after ∧
        (runSteps errorName dev w before).2 = .returned ∧
        call.alloc 0 = true ∧ (call.submit 0).val = 0 ∧
        everCompleted (runSteps errorName dev w before).1.now.transfers.length call = false := by
  have hclocks : ∀ step call, (step, call) ∈ withEnv env → ClockGoesOn call := by
    intro step call hmem
    obtain ⟨numbered, -, heq⟩ := List.mem_map.1 hmem
    obtain ⟨-, rfl⟩ := Prod.mk.inj heq
    exact hclock numbered.2
  refine (runSteps_running_iff errorName dev).trans ⟨?_, ?_⟩
  · rintro ⟨before, step, call, after, hsteps, hbefore, hstep⟩
    have hcall : ClockGoesOn call := hclocks step call (by rw [hsteps]; simp)
    rw [execStep_running_iff errorName dev hcall] at hstep
    cases step with
    | led packet =>
      simp only [stepHangs, Bool.and_eq_true, decide_eq_true_eq, Bool.not_eq_true'] at hstep
      exact ⟨before, packet, call, after, hsteps, hbefore, hstep.1.1, hstep.1.2, hstep.2⟩
    | cmd bytes => cases hstep
    | startDrain => cases hstep
    | stopDrain => cases hstep
  · rintro ⟨before, packet, call, after, hsteps, hbefore, halloc, hsubmit, hnever⟩
    have hcall : ClockGoesOn call := hclocks (.led packet) call (by rw [hsteps]; simp)
    refine ⟨before, .led packet, call, after, hsteps, hbefore, ?_⟩
    rw [execStep_running_iff errorName dev hcall]
    simp [stepHangs, halloc, hsubmit, hnever]

/-- Call `k` of an attempt in which all goes well, but that libusb forgets the wake packet. -/
def wakeForgotten (k : Nat) : CallEnv :=
  { smoothCall k with
    rounds := (if k = 9 then [] else (smoothCall k).rounds) ++ [⟨[], true⟩] }

theorem init_hangs_wake :
    ∃ before packet call after,
      withEnv wakeForgotten = before ++ (.led packet, call) :: after ∧
        (runSteps (fun _ => "") ⟨some 0, some 0⟩ (.start {}) before).2 = .returned ∧
        call.alloc 0 = true ∧ (call.submit 0).val = 0 ∧
        everCompleted
          (runSteps (fun _ => "") ⟨some 0, some 0⟩ (.start {}) before).1.now.transfers.length call =
            false := by
  have hclock : ∀ k, ClockGoesOn (wakeForgotten k) := fun k => ⟨⟨[], true⟩, by simp [wakeForgotten], rfl⟩
  exact (init_hangs_iff (fun _ => "") ⟨some 0, some 0⟩ hclock (.start {})).1 (by decide +kernel)

end Startup
