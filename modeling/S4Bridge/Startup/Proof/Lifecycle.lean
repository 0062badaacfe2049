import S4Bridge.Startup.Proof.Calm

/-!
# The drain over attempts

A sequence of attempts of `s4Mk1Init` keeps `DrainInv` all along and ends each attempt without a
current transfer, if no LED write fails while there is one and the drain ends before `stopDrain84`
gives up (`drain_lifecycle`). An LED write that fails leaves the drain behind (`drain_left_behind`).
-/

namespace Startup

open Transfers History

variable {u : Usb} {w : History Usb} {id : Nat}

/-! ## LED writes that succeed -/

/-- Transfer `id` is completed with success before a round is late. -/
def deliveredIn (id : Nat) : List Round → Bool
  | [] => true
  | round :: rounds =>
    !round.late && match round.completions.find? (·.id == id) with
      | some c => decide (c.status = .completed)
      | none => deliveredIn id rounds

/-- Nothing goes wrong in an LED write whose transfer is number `n`. -/
def ledDelivered (n : Nat) (env : CallEnv) : Bool :=
  env.alloc 0 && decide ((env.submit 0).val = 0) && deliveredIn n env.rounds

theorem waitLoop_of_done {ids : List Nat} (h : ids.all w.now.isDone = true) (rounds : List Round) :
    waitLoop ids w rounds = (w, .done) := by
  cases rounds with
  | nil => rw [waitLoop, if_pos h]
  | cons round rounds => rw [waitLoop, if_pos h]

theorem waitLoop_delivered {t : Transfer Xfer} (ht : w.now.transfers[id]? = some t)
    (hcb : t.data.callback = some .xferCb) (hf : t.inFlight = true)
    (hd : t.data.state.done = false) {rounds : List Round} (h : deliveredIn id rounds = true) :
    (waitLoop [id] w rounds).2 = .running ∨
    (waitLoop [id] w rounds).2 = .done ∧
      (waitLoop [id] w rounds).1.now.status id = .completed := by
  have hwait : ∀ {w : History Usb}, w.now.transfers[id]? = some t →
      [id].all w.now.isDone = false := by
    intro w ht
    simp [Usb.isDone, ht, hd]
  induction rounds generalizing w with
  | nil =>
    rw [waitLoop, hwait ht]
    exact .inl rfl
  | cons round rounds ih =>
    have hrun := handleEvents_xfer round.completions ht hcb hf
    rw [deliveredIn, Bool.and_eq_true, Bool.not_eq_true'] at h
    obtain ⟨hlate, h⟩ := h
    rw [waitLoop, hwait ht, hlate]
    simp only [Bool.false_eq_true, if_false]
    cases hfind : round.completions.find? (·.id == id) with
    | none =>
      rw [hfind] at hrun h
      exact ih hrun h
    | some c =>
      rw [hfind] at hrun h
      have hdone : [id].all (handleEvents w round.completions).now.isDone = true := by
        simp [Usb.isDone, hrun, xferCb]
      rw [waitLoop_of_done hdone]
      refine .inr ⟨rfl, ?_⟩
      rw [Usb.status, hrun]
      simpa [xferCb] using h

theorem status_free : (u.free id).status id = u.status id := by
  unfold Usb.status Usb.free Usb.on
  rw [List.getElem?_modify]
  cases u.transfers[id]? with
  | none => rfl
  | some t => simp [Transfer.freed]

variable (errorName : Int → String) (dev : Device)

/-- An LED write in which nothing goes wrong does not throw. -/
theorem ledAsync_delivered {env : CallEnv} (h : ledDelivered w.now.transfers.length env = true)
    (data : List UInt8) :
    (ledAsync errorName dev w data env).2 = .returned ∨
      (ledAsync errorName dev w data env).2 = .running := by
  let n := w.now.transfers.length
  simp only [ledDelivered, Bool.and_eq_true, decide_eq_true_eq] at h
  obtain ⟨⟨halloc, hrc⟩, hrounds⟩ := h
  have hpos : ¬ (env.submit 0).val < 0 := by omega
  let w2 := ((w.step Usb.alloc).step (·.fill n dev.handle epLed data .xferCb)).step
    (·.submit n (env.submit 0))
  have hled : ledAsync errorName dev w data env = ledWait w2 n env := by
    simp only [ledAsync, allocTransfer, halloc, if_true, hpos, if_false]
    rfl
  have hget : w2.now.transfers[n]? = _ :=
    getElem?_on_self (getElem?_on_self ((getElem?_alloc _ _).trans (if_pos rfl)))
  simp only [hrc, decide_true] at hget
  rw [hled, ledWait]
  rcases waitLoop_delivered hget rfl rfl rfl hrounds with hr | ⟨hr, hstatus⟩
  · cases hw : waitLoop [n] w2 env.rounds with
    | mk w3 exit =>
      rw [hw] at hr
      obtain rfl : exit = .running := hr
      exact .inr rfl
  · cases hw : waitLoop [n] w2 env.rounds with
    | mk w3 exit =>
      rw [hw] at hr hstatus
      obtain rfl : exit = .done := hr
      have hok : ((w3.step (·.free n)).now.status n) = .completed := status_free.trans hstatus
      simp only [hok, ne_eq, not_true_eq_false, if_false]
      exact .inl trivial

/-! ## Starting and stopping -/

theorem DrainInv.fillDrain (h : DrainInv u) (ht : u.drain.t = none) :
    DrainInv (fillDrain dev u) := by
  have hnew : u.alloc.transfers[u.transfers.length]? = some (.fresh {}) :=
    (getElem?_alloc _ _).trans (if_pos rfl)
  refine ⟨fun id hid => ?_, fun hnone => ?_, fun id t hget hd hne => ?_⟩
  · obtain rfl : u.transfers.length = id := Option.some.inj hid
    exact ⟨_, getElem?_on_self hnew, rfl, ⟨rfl, rfl⟩, (h.idle ht).symm⟩
  · cases hnone
  · have hne' : u.transfers.length ≠ id := fun he => hne (congrArg some he)
    have hold : u.transfers[id]? = some t :=
      ((getElem?_alloc _ _).trans (if_neg (Ne.symm hne'))).symm.trans
        ((getElem?_on_of_ne _ hne').symm.trans hget)
    exact h.past id t hold hd (by rw [ht]; simp)

theorem DrainInv.submitDrain (h : DrainInv u) (ht : u.drain.t = some id)
    (hact : u.drain.active = false) (rc : Rc) :
    DrainInv (submitDrain id rc u) := by
  obtain ⟨t, hget, hd, hl, hf⟩ := h.current id ht
  refine ⟨fun id' hid => ?_, fun hnone => ?_, fun id' t' hget' hd' hne => ?_⟩
  · obtain rfl : id = id' := Option.some.inj (ht.symm.trans hid)
    refine ⟨_, getElem?_on_self hget, by simpa [IsDrain] using hd,
      (Transfer.live_submitted _).2 hl, ?_⟩
    by_cases hrc : rc.val = 0 <;> simp [Transfer.submitted, Startup.submitDrain, hrc, hf, hact]
  · exact absurd (ht.symm.trans hnone) (by simp)
  · have hne' : id ≠ id' := fun he => hne (he ▸ ht)
    have hold : u.transfers[id']? = some t' := (getElem?_on_of_ne _ hne').symm.trans hget'
    exact h.past id' t' hold hd' hne

theorem startDrain84_keeps (h : w.Always DrainInv) (ht : w.now.drain.t = none) (env : CallEnv) :
    (startDrain84 dev w env).1.Always DrainInv ∧ (startDrain84 dev w env).2 = .returned := by
  unfold startDrain84
  split
  · have h1 := h.step (h.1.fillDrain dev ht)
    exact ⟨h1.step (h1.1.submitDrain rfl (h.1.idle ht) _), rfl⟩
  · have hnone : DrainInv (noDrain dev w.now) :=
      ⟨fun _ hid => (by cases hid), fun _ => h.1.idle ht,
        fun id t hget hd _ => h.1.past id t hget hd (by rw [ht]; simp)⟩
    exact ⟨h.step hnone, rfl⟩

/-- The drain's transfer `id` ends before a round finds the clock past the deadline. -/
def drainEndsInTime (id : Nat) : List Round → Bool
  | [] => true
  | round :: rounds =>
    !round.late && (round.completions.any (endsDrain id) || drainEndsInTime id rounds)

theorem stopLoop_ends (h : DrainInv w.now) (ht : w.now.drain.t = some id) {rounds : List Round}
    (hend : w.now.drain.active = false ∨ drainEndsInTime id rounds = true)
    (hexit : (stopLoop w rounds).2 ≠ .running) :
    (stopLoop w rounds).1.now.drain.active = false := by
  induction rounds generalizing w with
  | nil =>
    rw [stopLoop] at hexit ⊢
    cases hact : w.now.drain.active with
    | true => rw [hact] at hexit; exact absurd rfl hexit
    | false => rfl
  | cons round rounds ih =>
    rw [stopLoop] at hexit ⊢
    cases hact : w.now.drain.active with
    | false => simp [hact]
    | true =>
      have hin := hend.resolve_left (by rw [hact]; simp)
      rw [drainEndsInTime, Bool.and_eq_true, Bool.not_eq_true', Bool.or_eq_true] at hin
      obtain ⟨hlate, hin⟩ := hin
      simp only [hact, hlate, Bool.not_true, Bool.false_eq_true, if_false] at hexit ⊢
      have hinv : DrainInv (handleEvents w round.completions).now := by
        rw [handleEvents_now]
        exact List.foldlRecOn _ _ h fun _ hs c _ => hs.complete c
      have ht' : (handleEvents w round.completions).now.drain.t = some id := by
        rw [handleEvents_now]
        exact List.foldlRecOn (motive := fun u : Usb => u.drain.t = some id) _ _ ht
          fun _ hs c _ => complete_t.trans hs
      refine ih hinv ht' ?_ hexit
      rw [handleEvents_now, foldl_complete_active h ht, hact, Bool.true_and]
      rcases hin with hany | hrest
      · exact .inl (by rw [hany]; rfl)
      · exact .inr hrest

theorem DrainInv.freeDrain (h : DrainInv u) (ht : u.drain.t = some id)
    (hact : u.drain.active = false) :
    DrainInv (freeDrain id u) := by
  obtain ⟨t, hget, -, hl, hf⟩ := h.current id ht
  refine ⟨fun _ hid => (by cases hid), fun _ => rfl, fun id' t' hget' hd' _ => ?_⟩
  by_cases hid : id = id'
  · subst hid
    have hfreed : t.freed = t' := Option.some.inj ((getElem?_on_self hget).symm.trans hget')
    rw [← hfreed]
    exact ⟨(Transfer.released_freed hl).2 (hf.trans hact), hf.trans hact⟩
  · have hold : u.transfers[id']? = some t' := (getElem?_on_of_ne _ hid).symm.trans hget'
    exact h.past id' t' hold hd' fun he => hid (Option.some.inj (ht.symm.trans he))

theorem stopDrain84_keeps (h : w.Always DrainInv) (env : CallEnv)
    (hend : ∀ id, w.now.drain.t = some id →
      w.now.drain.active = false ∨ drainEndsInTime id env.rounds = true) :
    (stopDrain84 w env).1.Always DrainInv ∧
    ((stopDrain84 w env).2 = .running ∨
      (stopDrain84 w env).2 = .returned ∧ (stopDrain84 w env).1.now.drain.t = none) := by
  unfold stopDrain84
  cases ht : w.now.drain.t with
  | none => exact ⟨h, .inr ⟨rfl, ht⟩⟩
  | some id =>
    cases hact : w.now.drain.active with
    | false => exact ⟨h.step (h.1.freeDrain ht hact), .inr ⟨rfl, rfl⟩⟩
    | true =>
      have hrule := calmRule w.now.transfers.length w.now.drain.t
      have hcancel := hrule.stepCancel (staysCalm_start h) id
      have hcalm := hrule.stopLoop hcancel env.rounds
      have hends := stopLoop_ends (w := w.step (·.cancel id)) h.1 ht (hend id ht)
      simp only [if_true]
      cases hr : stopLoop (w.step (·.cancel id)) env.rounds with
      | mk w1 exit =>
        rw [hr] at hcalm hends
        have ht1 : w1.now.drain.t = some id := hcalm.now.t.trans ht
        cases exit with
        | running => exact ⟨hcalm.always, .inl rfl⟩
        | done =>
          exact ⟨hcalm.always.step (hcalm.now.inv.freeDrain ht1 (hends (by simp))),
            .inr ⟨rfl, rfl⟩⟩
        | deadline =>
          exact ⟨hcalm.always.step (hcalm.now.inv.freeDrain ht1 (hends (by simp))),
            .inr ⟨rfl, rfl⟩⟩

/-! ## The sequence -/

/-- What a step may not meet: an LED write does not fail while there is a drain transfer, and
`stopDrain84` does not give up on an active one. -/
def stepSafe (u : Usb) : InitStep → CallEnv → Bool
  | .led _, env => u.drain.t.isNone || ledDelivered u.transfers.length env
  | .stopDrain, env => u.drain.t.all fun id => !u.drain.active || drainEndsInTime id env.rounds
  | _, _ => true

/-- Every step of a sequence that is reached is safe. -/
def stepsSafe : History Usb → List (InitStep × CallEnv) → Bool
  | _, [] => true
  | w, (step, env) :: rest =>
    stepSafe w.now step env &&
      match execStep errorName dev w step env with
      | (w, .returned) => stepsSafe w rest
      | _ => true

theorem runSteps_append (w : History Usb) (l l' : List (InitStep × CallEnv)) :
    runSteps errorName dev w (l ++ l') =
      if (runSteps errorName dev w l).2 = .returned then
        runSteps errorName dev (runSteps errorName dev w l).1 l'
      else runSteps errorName dev w l := by
  induction l generalizing w with
  | nil => rfl
  | cons s l ih =>
    obtain ⟨step, env⟩ := s
    rw [List.cons_append, runSteps, runSteps]
    cases hr : execStep errorName dev w step env with
    | mk w1 outcome =>
      cases outcome with
      | returned => exact ih w1
      | threw what => rfl
      | running => rfl

theorem stepsSafe_append {w : History Usb} {l l' : List (InitStep × CallEnv)}
    (h : stepsSafe errorName dev w (l ++ l') = true) :
    stepsSafe errorName dev w l = true ∧
    ((runSteps errorName dev w l).2 = .returned →
      stepsSafe errorName dev (runSteps errorName dev w l).1 l' = true) := by
  induction l generalizing w with
  | nil => exact ⟨rfl, fun _ => h⟩
  | cons s l ih =>
    obtain ⟨step, env⟩ := s
    rw [List.cons_append, stepsSafe, Bool.and_eq_true] at h
    obtain ⟨hstep, h⟩ := h
    rw [stepsSafe, runSteps, hstep, Bool.true_and]
    cases hr : execStep errorName dev w step env with
    | mk w1 outcome =>
      rw [hr] at h
      cases outcome with
      | returned => exact ih h
      | threw what => exact ⟨rfl, fun hh => by cases hh⟩
      | running => exact ⟨rfl, fun hh => by cases hh⟩

/-- Commands and LED writes. -/
def InitStep.isCall : InitStep → Bool
  | .cmd _ | .led _ => true
  | _ => false

/-- Commands and LED writes keep the drain, whatever they meet. -/
theorem runSteps_calls {l : List (InitStep × CallEnv)} (hl : ∀ s ∈ l, s.1.isCall = true)
    (h : w.Always DrainInv) :
    (runSteps errorName dev w l).1.Always DrainInv ∧
      (runSteps errorName dev w l).1.now.drain.t = w.now.drain.t := by
  induction l generalizing w with
  | nil => exact ⟨h, rfl⟩
  | cons s l ih =>
    obtain ⟨step, env⟩ := s
    have hcalm := staysCalm_start h
    have hone : StaysCalm w.now.transfers.length w.now.drain.t
        (execStep errorName dev w step env).1 := by
      cases step with
      | cmd bytes => exact hcalm.cmd errorName dev (Nat.le_refl _) bytes env
      | led packet => exact hcalm.ledAsync errorName dev (Nat.le_refl _) packet env
      | startDrain => exact absurd (hl _ (.head _)) (by simp [InitStep.isCall])
      | stopDrain => exact absurd (hl _ (.head _)) (by simp [InitStep.isCall])
    rw [runSteps]
    cases hr : execStep errorName dev w step env with
    | mk w1 outcome =>
      rw [hr] at hone
      cases outcome with
      | returned =>
        obtain ⟨h1, h2⟩ := ih (fun s hs => hl s (.tail _ hs)) hone.always
        exact ⟨h1, h2.trans hone.now.t⟩
      | threw what => exact ⟨hone.always, hone.now.t⟩
      | running => exact ⟨hone.always, hone.now.t⟩

/-- Safe LED writes do not throw while there is a drain transfer. -/
theorem runSteps_leds {l : List (InitStep × CallEnv)} (hl : ∀ s ∈ l, ∃ packet, s.1 = .led packet)
    (hsafe : stepsSafe errorName dev w l = true) (h : w.Always DrainInv) :
    (runSteps errorName dev w l).2 = .returned ∨ (runSteps errorName dev w l).2 = .running ∨
      w.now.drain.t = none := by
  induction l generalizing w with
  | nil => exact .inl rfl
  | cons s l ih =>
    obtain ⟨step, env⟩ := s
    obtain ⟨packet, rfl⟩ := hl _ (.head _)
    have hone := (staysCalm_start h).ledAsync errorName dev (Nat.le_refl _) packet env
    rw [stepsSafe, Bool.and_eq_true, stepSafe, Bool.or_eq_true] at hsafe
    obtain ⟨hstep, hsafe⟩ := hsafe
    rcases hstep with hnone | hdel
    · exact .inr (.inr (by simpa using hnone))
    · have hout := ledAsync_delivered errorName dev hdel packet
      rw [runSteps]
      rw [execStep] at hsafe ⊢
      cases hr : ledAsync errorName dev w packet env with
      | mk w1 outcome =>
        rw [hr] at hsafe hone hout
        rcases hout with rfl | rfl
        · have hrest := ih (fun s hs => hl s (.tail _ hs)) hsafe hone.always
          rwa [hone.now.t] at hrest
        · exact .inr (.inl rfl)

/-- From the start of the drain to its stop. -/
theorem runSteps_drained {leds : List (InitStep × CallEnv)} {startEnv stopEnv : CallEnv}
    (hl : ∀ s ∈ leds, ∃ packet, s.1 = .led packet) (h : w.Always DrainInv)
    (ht : w.now.drain.t = none)
    (hsafe : stepsSafe errorName dev w
      ((.startDrain, startEnv) :: (leds ++ [(.stopDrain, stopEnv)])) = true) :
    let r := runSteps errorName dev w ((.startDrain, startEnv) :: (leds ++ [(.stopDrain, stopEnv)]))
    r.1.Always DrainInv ∧ (r.2 ≠ .running → r.1.now.drain.t = none) := by
  intro r
  obtain ⟨h1, hreturned⟩ := startDrain84_keeps dev h ht startEnv
  rw [stepsSafe, Bool.and_eq_true, execStep] at hsafe
  cases hr1 : startDrain84 dev w startEnv with
  | mk w1 outcome =>
    rw [hr1] at hsafe h1 hreturned
    obtain rfl : outcome = .returned := hreturned
    have hr : r = runSteps errorName dev w1 (leds ++ [(.stopDrain, stopEnv)]) := by
      show runSteps _ _ _ _ = _
      rw [runSteps, execStep, hr1]
    have hcalls : ∀ s ∈ leds, s.1.isCall = true := by
      intro s hs
      obtain ⟨packet, hp⟩ := hl s hs
      rw [hp]; rfl
    obtain ⟨hsafe2, hsafe3⟩ := stepsSafe_append errorName dev hsafe.2
    obtain ⟨h2, ht2⟩ := runSteps_calls errorName dev hcalls h1
    rw [hr, runSteps_append]
    split
    · -- all LED writes have returned: the drain is stopped
      rename_i hret
      have hstop := hsafe3 hret
      rw [stepsSafe, Bool.and_eq_true, stepSafe] at hstop
      obtain ⟨h3, hout⟩ := stopDrain84_keeps h2 stopEnv fun id hid => by
        have := hstop.1
        rw [hid, Option.all_some, Bool.or_eq_true, Bool.not_eq_true'] at this
        exact this
      rw [runSteps, execStep]
      cases hr3 : stopDrain84 (runSteps errorName dev w1 leds).1 stopEnv with
      | mk w3 outcome =>
        rw [hr3] at h3 hout
        rcases hout with rfl | ⟨rfl, ht3⟩
        · exact ⟨h3, fun hne => absurd rfl hne⟩
        · exact ⟨h3, fun _ => ht3⟩
    · rename_i hnot
      refine ⟨h2, fun hne => ?_⟩
      rcases runSteps_leds errorName dev hl hsafe2 h1 with hret | hrun | hnone
      · exact absurd hret hnot
      · exact absurd hrun hne
      · exact ht2.trans hnone

theorem map_fst_withEnv (env : Nat → CallEnv) : (withEnv env).map Prod.fst = initSteps := by
  rw [withEnv, List.map_map]
  exact List.zipIdx_map_fst 0 initSteps

/-- The shape of the sequence: calls, the start of the drain, LED writes, its stop. -/
theorem withEnv_split (env : Nat → CallEnv) :
    ∃ calls leds startEnv stopEnv,
      withEnv env = calls ++ ((.startDrain, startEnv) :: (leds ++ [(.stopDrain, stopEnv)])) ∧
      (∀ s ∈ calls, s.1.isCall = true) ∧ ∀ s ∈ leds, ∃ packet, s.1 = .led packet := by
  have hmap := map_fst_withEnv env
  rw [initSteps, List.append_assoc, List.map_eq_append_iff] at hmap
  obtain ⟨calls, rest, hsplit, hcalls, hrest⟩ := hmap
  rw [List.cons_append, List.map_eq_cons_iff] at hrest
  obtain ⟨start, rest, rfl, hstart, hrest⟩ := hrest
  obtain ⟨leds, stops, rfl, hleds, hstops⟩ := List.map_eq_append_iff.1 hrest
  obtain ⟨stop, rest, rfl, hstop, hrest⟩ := List.map_eq_cons_iff.1 hstops
  obtain rfl := List.map_eq_nil_iff.1 hrest
  refine ⟨calls, leds, start.2, stop.2, ?_, fun s hs => ?_, fun s hs => ?_⟩
  · rw [hsplit, ← hstart, ← hstop]
  · have hmem : s.1 ∈ handshake := hcalls ▸ List.mem_map_of_mem hs
    have hall : ∀ step ∈ handshake, step.isCall = true := by decide
    exact hall s.1 hmem
  · have hmem : s.1 ∈ ledDump := hleds ▸ List.mem_map_of_mem hs
    obtain ⟨packet, -, hp⟩ := List.mem_map.1 hmem
    exact ⟨packet, hp.symm⟩

/-- **One attempt** keeps the invariant and ends without a drain. -/
theorem s4Mk1Init_keeps (h : w.Always DrainInv) (ht : w.now.drain.t = none) {env : Nat → CallEnv}
    (hsafe : stepsSafe errorName dev w (withEnv env) = true) :
    (s4Mk1Init errorName dev w env).1.Always DrainInv ∧
      ((s4Mk1Init errorName dev w env).2 ≠ .running →
        (s4Mk1Init errorName dev w env).1.now.drain.t = none) := by
  obtain ⟨calls, leds, startEnv, stopEnv, hsplit, hcalls, hleds⟩ := withEnv_split env
  rw [hsplit] at hsafe
  obtain ⟨-, hsafe2⟩ := stepsSafe_append errorName dev hsafe
  obtain ⟨h1, ht1⟩ := runSteps_calls errorName dev hcalls h
  rw [s4Mk1Init, hsplit, runSteps_append]
  split
  · rename_i hret
    exact runSteps_drained errorName dev hleds h1 (ht1.trans ht) (hsafe2 hret)
  · exact ⟨h1, fun _ => ht1.trans ht⟩

/-! ## Attempts -/

/-- Every step of every attempt that is reached is safe. -/
def attemptsSafe : History Usb → List Attempt → Bool
  | _, [] => true
  | w, attempt :: rest =>
    let w := handleEvents w attempt.before
    stepsSafe errorName attempt.device w (withEnv attempt.env) &&
      match s4Mk1Init errorName attempt.device w attempt.env with
      | (_, .running) => true
      | (w, _) => attemptsSafe w rest

theorem initRuns_keeps (h : w.Always DrainInv) (ht : w.now.drain.t = none) {attempts : List Attempt}
    (hsafe : attemptsSafe errorName w attempts = true) :
    (initRuns errorName w attempts).1.Always DrainInv ∧
      ((initRuns errorName w attempts).2 ≠ .running →
        (initRuns errorName w attempts).1.now.drain.t = none) := by
  induction attempts generalizing w with
  | nil => exact ⟨h, fun _ => ht⟩
  | cons attempt rest ih =>
    have hcalm := (calmRule _ _).handleEvents (staysCalm_start h) attempt.before
    rw [attemptsSafe, Bool.and_eq_true] at hsafe
    obtain ⟨hsafe1, hsafe2⟩ := hsafe
    obtain ⟨h1, ht1⟩ := s4Mk1Init_keeps errorName attempt.device hcalm.always
      (hcalm.now.t.trans ht) hsafe1
    rw [initRuns]
    cases hr : s4Mk1Init errorName attempt.device (handleEvents w attempt.before) attempt.env with
    | mk w1 outcome =>
      rw [hr] at h1 ht1 hsafe2
      cases outcome with
      | running => exact ⟨h1, fun hne => absurd rfl hne⟩
      | returned => exact ih h1 (ht1 (by simp)) hsafe2
      | threw what => exact ih h1 (ht1 (by simp)) hsafe2

/-- **The life of the drain**: in every sequence of attempts whose steps are all safe, at every
moment at most one drain transfer is in flight and `active` tells whether one is, and after every
attempt there is no drain and every drain transfer is released. -/
theorem drain_lifecycle (attempts : List Attempt)
    (hsafe : attemptsSafe errorName (.start {}) attempts = true) :
    (initRuns errorName (.start {}) attempts).1.Always DrainOk ∧
      ((initRuns errorName (.start {}) attempts).2 ≠ .running →
        DrainGone (initRuns errorName (.start {}) attempts).1.now) := by
  have hstart : (History.start ({} : Usb)).Always DrainInv := ⟨drainInv_start, by simp [start]⟩
  obtain ⟨h, ht⟩ := initRuns_keeps errorName hstart rfl hsafe
  exact ⟨⟨h.1.ok, fun u hu => (h.2 u hu).ok⟩, fun hexit => h.1.gone (ht hexit)⟩

/-- Call `k` of an attempt in which every call succeeds: the transfers it waits for complete in its
first round, and the drain is cancelled in that of `stopDrain84`. -/
def smoothCall (k : Nat) : CallEnv :=
  let first := if k < 10 then 2 * k else if k < 18 then 2 * k - 1 else k + 17
  let completion (id : Nat) (status : TransferStatus) : Completion := ⟨id, status, 0, .ok⟩
  let completions :=
    if k = 41 then [completion 35 .cancelled]
    else [completion first .completed, completion (first + 1) .completed]
  ⟨fun _ => true, fun _ => .ok, [⟨completions, false⟩], []⟩

/-- No device at first, then one with which everything goes well. -/
theorem drain_lifecycle_second_attempt :
    let attempts := [⟨[], ⟨none, none⟩, smoothCall⟩, ⟨[], ⟨some 0, some 0⟩, smoothCall⟩]
    let run := initRuns (fun _ => "") (.start {}) attempts
    run.2 = .returned ∧ run.1.now.transfers.length = 58 ∧
      run.1.Always DrainOk ∧ DrainGone run.1.now := by
  intro attempts run
  have hlife := drain_lifecycle (fun _ => "") attempts (by decide +kernel)
  have hreturned : run.2 = .returned := by decide +kernel
  refine ⟨hreturned, by decide +kernel, hlife.1, hlife.2 ?_⟩
  exact fun hrunning => by cases hreturned.symm.trans hrunning

/-- The first LED write of phase 6 is refused, and the drain stays. -/
theorem drain_left_behind :
    ¬ ∀ (errorName : Int → String) (attempts : List Attempt),
      (initRuns errorName (.start {}) attempts).1.Always DrainOk ∧
        ((initRuns errorName (.start {}) attempts).2 ≠ .running →
          DrainGone (initRuns errorName (.start {}) attempts).1.now) := by
  intro h
  let env (k : Nat) : CallEnv :=
    if k = 19 then { smoothCall k with submit := fun _ => ⟨-1, by decide⟩ } else smoothCall k
  have hgone := (h (fun _ => "LIBUSB_ERROR_IO") [⟨[], ⟨some 0, some 0⟩, env⟩]).2 (by decide +kernel)
  exact absurd hgone.t (by decide +kernel)

end Startup
