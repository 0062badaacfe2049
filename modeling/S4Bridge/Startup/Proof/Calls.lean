import S4Bridge.Startup.Init

/-!
# A rule for calls

A property that allocations, the submissions and releases of a call's own transfers and all
completions keep holds at every moment of the call, whatever it meets. `CallRule` is that premise;
commands and LED writes differ only in how they fill their transfers (`CallRule.cmd`,
`CallRule.ledAsync`).
-/

namespace Startup

open Transfers History

variable {P Q : Usb → Prop} {w : History Usb} {n id : Nat}

/-- Completions keep `Q`, which implies `P`. -/
structure EventRule (P Q : Usb → Prop) : Prop where
  implies : ∀ u, Q u → P u
  complete : ∀ u c, Q u → Q (complete u c)

/-- Also what a call does with the transfers from number `n` on keeps it. -/
structure CallRule (P Q : Usb → Prop) (n : Nat) : Prop extends EventRule P Q where
  alloc : ∀ u, Q u → Q u.alloc
  submit : ∀ u id rc, n ≤ id → Q u → Q (u.submit id rc)
  free : ∀ u id, n ≤ id → Q u → Q (u.free id)

/-! ## Event loops -/

namespace EventRule

variable (R : EventRule P Q)
include R

theorem step (hw : w.Holds P Q) {f : Usb → Usb} (hf : Q (f w.now)) : (w.step f).Holds P Q :=
  Holds.step hw R.implies hf

theorem stepCancel (hw : w.Holds P Q) (id : Nat) : (w.step (·.cancel id)).Holds P Q :=
  R.step hw hw.now

theorem handleEvents (hw : w.Holds P Q) (cs : List Completion) :
    (handleEvents w cs).Holds P Q := Holds.steps hw R.implies R.complete cs

theorem waitLoop (hw : w.Holds P Q) (ids : List Nat) (rounds : List Round) :
    (waitLoop ids w rounds).1.Holds P Q := by
  induction rounds generalizing w with
  | nil => exact hw
  | cons round rounds ih =>
    rw [Startup.waitLoop]
    split
    · exact hw
    · simp only
      split
      · exact R.handleEvents hw _
      · exact ih (R.handleEvents hw _)

theorem stopLoop (hw : w.Holds P Q) (rounds : List Round) : (stopLoop w rounds).1.Holds P Q := by
  induction rounds generalizing w with
  | nil => exact hw
  | cons round rounds ih =>
    rw [Startup.stopLoop]
    split
    · exact hw
    · split
      · exact hw
      · exact ih (R.handleEvents hw _)

end EventRule

namespace CallRule

variable (R : CallRule P Q n)
include R

theorem stepSubmit (hw : w.Holds P Q) (hid : n ≤ id) (rc : Rc) :
    (w.step (·.submit id rc)).Holds P Q := R.step hw (R.submit _ id rc hid hw.now)

theorem stepFree (hw : w.Holds P Q) (hid : n ≤ id) : (w.step (·.free id)).Holds P Q :=
  R.step hw (R.free _ id hid hw.now)

/-! ## Commands -/

variable (errorName : Int → String) (dev : Device)

theorem cmdWait (hw : w.Holds P Q) {inT outT : Nat} (hin : n ≤ inT) (hout : n ≤ outT)
    (rounds : List Round) : (cmdWait errorName w inT outT rounds).1.Holds P Q := by
  have hwait := R.waitLoop hw [inT, outT] rounds
  unfold Startup.cmdWait
  cases hr : Startup.waitLoop [inT, outT] w rounds with
  | mk w1 exit =>
    rw [hr] at hwait
    cases exit with
    | running => exact hwait
    | deadline =>
      exact R.stepFree (R.stepFree (R.stepCancel (R.stepCancel hwait inT) outT) hin) hout
    | done =>
      simp only
      split <;> exact R.stepFree (R.stepFree hwait hin) hout

theorem cmdSubmit (hw : w.Holds P Q) {inT outT : Nat} (hin : n ≤ inT) (hout : n ≤ outT)
    (env : CallEnv) : (cmdSubmit errorName w inT outT env).1.Holds P Q := by
  have h1 := R.stepSubmit hw hin (env.submit 0)
  have h2 := R.stepSubmit h1 hout (env.submit 1)
  unfold Startup.cmdSubmit
  simp only
  split
  · exact R.stepFree (R.stepFree h1 hin) hout
  · split
    · exact R.stepFree (R.stepFree (R.stepCancel h2 inT) hin) hout
    · exact R.cmdWait errorName h2 hin hout env.rounds

theorem allocTransfer (hw : w.Holds P Q) (succeeds : Bool) :
    (allocTransfer w succeeds).1.Holds P Q := by
  cases succeeds with
  | false => exact hw
  | true => exact R.step hw (R.alloc _ hw.now)

/-- **Commands**: the IN transfer is the next one, the OUT transfer the one after it. -/
theorem cmd (hw : w.Holds P Q) (hn : n ≤ w.now.transfers.length) {bytes : List UInt8}
    (hin : ∀ u, Q u → Q (u.fill w.now.transfers.length dev.handle epResp inBuf .xferCb))
    (hout : ∀ u, Q u → Q (u.fill (w.now.transfers.length + 1) dev.handle epCmd bytes .xferCb))
    (env : CallEnv) : (cmd errorName dev w bytes env).1.Holds P Q := by
  unfold Startup.cmd
  split
  · exact hw
  · have h1 := R.allocTransfer hw (env.alloc 0)
    have h2 := R.allocTransfer h1 (env.alloc 1)
    cases halloc : env.alloc 0 with
    | false =>
      rw [halloc] at h2
      exact h2
    | true =>
      cases halloc' : env.alloc 1 with
      | false =>
        rw [halloc, halloc'] at h2
        exact h2
      | true =>
        rw [halloc, halloc'] at h2
        have hlen : (w.step Usb.alloc).now.transfers.length = w.now.transfers.length + 1 :=
          List.length_append
        have hout' := hout _ (hin _ h2.now)
        rw [← hlen] at hout'
        refine R.cmdSubmit errorName (R.step (R.step h2 (hin _ h2.now)) hout') hn ?_ env
        rw [hlen]
        omega

/-! ## LED writes -/

theorem ledWait (hw : w.Holds P Q) {ledT : Nat} (hid : n ≤ ledT) (env : CallEnv) :
    (ledWait w ledT env).1.Holds P Q := by
  have hwait := R.waitLoop hw [ledT] env.rounds
  unfold Startup.ledWait
  cases hr : Startup.waitLoop [ledT] w env.rounds with
  | mk w1 exit =>
    rw [hr] at hwait
    cases exit with
    | running => exact hwait
    | done =>
      simp only
      split <;> exact R.stepFree hwait hid
    | deadline =>
      have hwait2 := R.waitLoop (R.stepCancel hwait ledT) [ledT]
        (env.cancelRounds.map (⟨·, false⟩))
      simp only
      cases hr2 : Startup.waitLoop [ledT] (w1.step (·.cancel ledT))
          (env.cancelRounds.map (⟨·, false⟩)) with
      | mk w2 exit2 =>
        rw [hr2] at hwait2
        cases exit2 with
        | done => exact R.stepFree hwait2 hid
        | deadline => exact hwait2
        | running => exact hwait2

/-- **LED writes**: the transfer is the next one. -/
theorem ledAsync (hw : w.Holds P Q) (hn : n ≤ w.now.transfers.length) {data : List UInt8}
    (hfill : ∀ u, Q u → Q (u.fill w.now.transfers.length dev.handle epLed data .xferCb))
    (env : CallEnv) : (ledAsync errorName dev w data env).1.Holds P Q := by
  unfold Startup.ledAsync
  have h1 := R.allocTransfer hw (env.alloc 0)
  cases halloc : env.alloc 0 with
  | false => exact hw
  | true =>
    rw [halloc] at h1
    have hfilled : ((w.step Usb.alloc).step (·.fill w.now.transfers.length dev.handle epLed data
        .xferCb)).Holds P Q := R.step h1 (hfill _ h1.now)
    have h2 := R.stepSubmit hfilled hn (env.submit 0)
    simp only [Startup.allocTransfer, if_true]
    split
    · exact R.stepFree h2 hn
    · exact R.ledWait h2 hn env

end CallRule

end Startup
