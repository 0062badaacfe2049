import S4Bridge.Startup.Proof.Events

/-!
# Who frees the transfers of a call

`OwnedSince n`: every transfer from number `n` on has been freed exactly once, and not while in
flight. An LED write leaves its transfer so at every exit, because it waits for the cancellation
(`ledAsync_owned`). A command does exactly if its two allocations go alike, its OUT submission does
not fail after the IN submission, and both callbacks run before the deadline (`cmd_owned_iff`).
-/

namespace Startup

open Transfers

variable {u : Usb} {w : History Usb} {id : Nat} {ids : List Nat}

/-- The transfers allocated since there were `n` are released. -/
def OwnedSince (n : Nat) (u : Usb) : Prop :=
  ∀ id t, n ≤ id → u.transfers[id]? = some t → t.Released

/-- A transfer of the running call, filled and not submitted. -/
def Ready (id : Nat) (u : Usb) : Prop :=
  ∃ t, u.transfers[id]? = some t ∧ t.data.callback = some .xferCb ∧ t.Live ∧
    t.inFlight = false ∧ t.data.state.done = false

/-- A submitted transfer of the running call: in flight until its callback has run. -/
def Waiting (id : Nat) (u : Usb) : Prop :=
  ∃ t, u.transfers[id]? = some t ∧ t.data.callback = some .xferCb ∧ t.Live ∧
    t.inFlight = !t.data.state.done

/-- The transfers whose callback has not run. -/
def pending (ids : List Nat) (u : Usb) : List Nat := ids.filter fun id => !u.isDone id

/-! ## Submitting and waiting -/

theorem Ready.submit (h : Ready id u) {rc : Rc} (hrc : rc.val = 0) :
    Waiting id (u.submit id rc) ∧ (u.submit id rc).isDone id = false := by
  obtain ⟨t, ht, hcb, hlive, hf, hd⟩ := h
  have h1 : (u.submit id rc).transfers[id]? = some (t.submitted true) := by
    simp only [Usb.submit, hrc, decide_true]
    exact getElem?_on_self ht
  refine ⟨⟨_, h1, hcb, hlive, by simp [Transfer.submitted, hd]⟩, ?_⟩
  rw [Usb.isDone, h1]
  simpa [Transfer.submitted] using hd

theorem Ready.submit_of_ne (h : Ready id u) {j : Nat} (hj : j ≠ id) (rc : Rc) :
    Ready id (u.submit j rc) := by
  obtain ⟨t, ht, h⟩ := h
  exact ⟨t, (getElem?_on_of_ne _ hj).trans ht, h⟩

theorem Ready.submit_failed (h : Ready id u) {rc : Rc} (hrc : rc.val ≠ 0) :
    Ready id (u.submit id rc) := by
  obtain ⟨t, ht, h⟩ := h
  refine ⟨t, ?_, h⟩
  simp only [Usb.submit, hrc, decide_false]
  exact getElem?_on_self ht

theorem Waiting.submit_of_ne (h : Waiting id u) {j : Nat} (hj : j ≠ id) (rc : Rc) :
    Waiting id (u.submit j rc) := by
  obtain ⟨t, ht, h⟩ := h
  exact ⟨t, (getElem?_on_of_ne _ hj).trans ht, h⟩

theorem isDone_submit_of_ne {j : Nat} (hj : j ≠ id) (rc : Rc) :
    (u.submit j rc).isDone id = u.isDone id := by
  rw [Usb.isDone, Usb.isDone, Usb.submit, getElem?_on_of_ne _ hj]

/-- Events run the callbacks of the transfers they name. -/
theorem Waiting.handleEvents (h : Waiting id w.now) (cs : List Completion) :
    Waiting id (handleEvents w cs).now ∧
      (handleEvents w cs).now.isDone id = (w.now.isDone id || cs.any (·.id == id)) := by
  obtain ⟨t, ht, hcb, hlive, hf⟩ := h
  have hd : w.now.isDone id = t.data.state.done := by rw [Usb.isDone, ht]; rfl
  cases hdone : t.data.state.done with
  | true =>
    rw [hdone] at hf
    have hidle : (Startup.handleEvents w cs).now.transfers[id]? = some t := by
      rw [handleEvents_now]
      exact foldl_complete_idle cs ht hcb hf
    refine ⟨⟨t, hidle, hcb, hlive, by rw [hf, hdone]⟩, ?_⟩
    rw [hd, hdone, Usb.isDone, hidle]
    simpa using hdone
  | false =>
    rw [hdone] at hf
    have hrun := handleEvents_xfer cs ht hcb hf
    cases hfind : cs.find? (·.id == id) with
    | none =>
      have hany : cs.any (·.id == id) = false := by
        rw [List.find?_eq_none] at hfind
        rw [List.any_eq_false]
        exact fun c hc => by simpa using hfind c hc
      rw [hfind] at hrun
      refine ⟨⟨t, hrun, hcb, hlive, by rw [hf, hdone]⟩, ?_⟩
      rw [hd, hdone, hany, Usb.isDone, hrun]
      simpa using hdone
    | some c =>
      have hany : cs.any (·.id == id) = true :=
        List.any_eq_true.2 ⟨c, List.mem_of_find?_eq_some hfind, by simpa using List.find?_some hfind⟩
      rw [hfind] at hrun
      refine ⟨⟨_, hrun, hcb, hlive, rfl⟩, ?_⟩
      rw [hd, hdone, hany, Usb.isDone, hrun]
      rfl

theorem pending_handleEvents (h : ∀ id ∈ ids, Waiting id w.now) (cs : List Completion) :
    pending ids (handleEvents w cs).now =
      (pending ids w.now).filter fun id => !cs.any (·.id == id) := by
  unfold pending
  rw [List.filter_filter]
  refine List.filter_congr fun id hid => ?_
  rw [((h id hid).handleEvents cs).2, Bool.not_or, Bool.and_comm]

/-- All of `ids` are completed before a round is late, or in that round. -/
def runBeforeDeadline : List Nat → List Round → Bool
  | _, [] => true
  | ids, round :: rounds =>
    let left := ids.filter fun id => !round.completions.any (·.id == id)
    left.isEmpty || (!round.late && runBeforeDeadline left rounds)

theorem runBeforeDeadline_nil (rounds : List Round) : runBeforeDeadline [] rounds = true := by
  cases rounds <;> rfl

theorem all_isDone_iff (ids : List Nat) (u : Usb) :
    ids.all u.isDone = true ↔ pending ids u = [] := by
  simp [pending, List.filter_eq_nil_iff]

/-- **The wait**: the transfers stay waiting, all are done if it ends before the deadline, and
whether they are at the deadline is told by the rounds. -/
theorem waitLoop_spec (rounds : List Round) (h : ∀ id ∈ ids, Waiting id w.now) :
    let r := waitLoop ids w rounds
    (∀ id ∈ ids, Waiting id r.1.now) ∧
    r.1.now.transfers.length = w.now.transfers.length ∧
    (r.2 = .done → pending ids r.1.now = []) ∧
    (runBeforeDeadline (pending ids w.now) rounds = true ↔
      (r.2 = .deadline → pending ids r.1.now = [])) := by
  induction rounds generalizing w with
  | nil =>
    refine ⟨h, rfl, fun hr => ?_, ?_⟩
    · rw [waitLoop] at hr
      split at hr
      · exact (all_isDone_iff _ _).1 ‹_›
      · cases hr
    · rw [waitLoop]
      split <;> simp [runBeforeDeadline]
  | cons round rounds ih =>
    rw [waitLoop]
    split
    · rename_i hall
      have hnil := (all_isDone_iff _ _).1 hall
      refine ⟨h, rfl, fun _ => hnil, ?_⟩
      rw [hnil, runBeforeDeadline_nil]
      simp
    · have h1 : ∀ id ∈ ids, Waiting id (handleEvents w round.completions).now :=
        fun id hid => ((h id hid).handleEvents _).1
      have hleft := pending_handleEvents h round.completions
      have hlen := handleEvents_length (w := w) round.completions
      simp only [runBeforeDeadline, ← hleft]
      cases hlate : round.late with
      | true =>
        refine ⟨h1, hlen, fun hr => by simp at hr, ?_⟩
        simp
      | false =>
        obtain ⟨hw, hl, hdone, hiff⟩ := ih h1
        refine ⟨hw, hl.trans hlen, hdone, ?_⟩
        rw [Bool.not_false, Bool.true_and]
        cases hp : pending ids (handleEvents w round.completions).now with
        | nil =>
          rw [hp, runBeforeDeadline_nil] at hiff
          simpa using hiff
        | cons id rest =>
          rw [hp] at hiff
          simpa using hiff

/-! ## Freeing -/

/-- Freeing the transfers of a call releases them if and only if none is in flight. -/
theorem owned_frees {n : Nat} (hids : ids.Nodup)
    (hlive : ∀ id ∈ ids, n ≤ id ∧ ∃ t, u.transfers[id]? = some t ∧ t.Live)
    (hall : ∀ id, n ≤ id → id < u.transfers.length → id ∈ ids) :
    OwnedSince n (ids.foldl Usb.free u) ↔
      ∀ id ∈ ids, ∀ t, u.transfers[id]? = some t → t.inFlight = false := by
  have hfreed : ∀ (ids : List Nat) (u : Usb), ids.Nodup → ∀ j, (ids.foldl Usb.free u).transfers[j]? =
      if j ∈ ids then (u.transfers[j]?).map Transfer.freed else u.transfers[j]? := by
    intro ids
    induction ids with
    | nil => intro u _ j; simp
    | cons id ids ih =>
      intro u hnd j
      obtain ⟨hid, hnd⟩ := List.nodup_cons.1 hnd
      rw [List.foldl_cons, ih _ hnd, Usb.free, Usb.on, List.getElem?_modify]
      by_cases hj : id = j
      · subst hj
        simp [hid]
      · simp [hj, Ne.symm hj]
  constructor
  · intro h id hid t ht
    obtain ⟨hn, t', ht', hl⟩ := hlive id hid
    obtain rfl : t = t' := Option.some.inj (ht.symm.trans ht')
    refine (Transfer.released_freed hl).1 (h id _ hn ?_)
    rw [hfreed ids u hids, if_pos hid, ht]
    rfl
  · intro h id t hn ht
    rw [hfreed ids u hids] at ht
    by_cases hid : id ∈ ids
    · obtain ⟨-, t', ht', hl⟩ := hlive id hid
      rw [if_pos hid, ht', Option.map_some, Option.some.injEq] at ht
      rw [← ht]
      exact (Transfer.released_freed hl).2 (h id hid t' ht')
    · rw [if_neg hid] at ht
      exact absurd (hall id hn (List.getElem?_eq_some_iff.1 ht).1) hid

/-- After a wait they are not in flight exactly if all are done. -/
theorem owned_frees_waiting {n : Nat} (hids : ids.Nodup)
    (hwait : ∀ id ∈ ids, n ≤ id ∧ Waiting id u)
    (hall : ∀ id, n ≤ id → id < u.transfers.length → id ∈ ids) :
    OwnedSince n (ids.foldl Usb.free u) ↔ pending ids u = [] := by
  rw [owned_frees hids (fun id hid => ?_) hall, ← all_isDone_iff, List.all_eq_true]
  · refine forall₂_congr fun id hid => ?_
    obtain ⟨-, t, ht, -, -, hf⟩ := hwait id hid
    rw [Usb.isDone, ht]
    simp [hf]
  · obtain ⟨hn, t, ht, -, hl, -⟩ := hwait id hid
    exact ⟨hn, t, ht, hl⟩

/-! ## LED writes -/

theorem alloc_fill_ready (handle : Option Handle) (endpoint : UInt8) (buffer : List UInt8) :
    Ready u.transfers.length
      (u.alloc.fill u.transfers.length handle endpoint buffer .xferCb) := by
  have h : u.alloc.transfers[u.transfers.length]? = some (.fresh {}) := by
    rw [Usb.alloc, getElem?_alloc, if_pos rfl]
  exact ⟨_, getElem?_on_self h, rfl, Transfer.live_fresh _, rfl, rfl⟩

theorem nodup_one (n : Nat) : [n].Nodup := by simp

theorem nodup_pair (n : Nat) : [n, n + 1].Nodup := by simp

/-- Once submitted the transfer is freed after its callback, whatever happens. -/
theorem ledWait_owned {n : Nat} (hwait : Waiting n w.now) (hlen : w.now.transfers.length = n + 1)
    (env : CallEnv) (hexit : (ledWait w n env).2 ≠ .running) :
    OwnedSince n (ledWait w n env).1.now := by
  have hfree : ∀ w' : History Usb, (∀ id ∈ [n], Waiting id w'.now) →
      w'.now.transfers.length = n + 1 → pending [n] w'.now = [] → OwnedSince n (w'.now.free n) := by
    intro w' hw hl hp
    refine (owned_frees_waiting (nodup_one n)
      (fun id hid => ⟨by simp_all, hw id hid⟩) fun id h1 h2 => ?_).2 hp
    rw [hl] at h2
    exact List.mem_singleton.2 (by omega)
  have h0 : ∀ id ∈ [n], Waiting id w.now := fun id hid => by rwa [List.mem_singleton.1 hid]
  obtain ⟨hw, hl, hdone, -⟩ := waitLoop_spec env.rounds h0
  unfold ledWait at hexit ⊢
  cases hr : waitLoop [n] w env.rounds with
  | mk w1 exit =>
    rw [hr] at hexit hw hl hdone
    cases exit with
    | running => exact absurd rfl hexit
    | done =>
      simp only
      split <;> exact hfree w1 hw (hl.trans hlen) (hdone rfl)
    | deadline =>
      have hcancel : (w1.step (·.cancel n)).now = w1.now := rfl
      obtain ⟨hw2, hl2, hdone2, -⟩ :=
        waitLoop_spec (w := w1.step (·.cancel n)) (env.cancelRounds.map (⟨·, false⟩)) hw
      simp only at hexit ⊢
      cases hr2 : waitLoop [n] (w1.step (·.cancel n)) (env.cancelRounds.map (⟨·, false⟩)) with
      | mk w2 exit2 =>
        rw [hr2] at hexit hw2 hl2 hdone2
        cases exit2 with
        | done => exact hfree w2 hw2 (hl2.trans (hl.trans hlen)) (hdone2 rfl)
        | deadline => exact absurd rfl hexit
        | running => exact absurd rfl hexit

variable (errorName : Int → String) (dev : Device)

/-- **An LED write owns its transfer** at every exit. -/
theorem ledAsync_owned (w : History Usb) (data : List UInt8) (env : CallEnv)
    (hexit : (ledAsync errorName dev w data env).2 ≠ .running) :
    OwnedSince w.now.transfers.length (ledAsync errorName dev w data env).1.now := by
  let n := w.now.transfers.length
  let w1 := (w.step Usb.alloc).step (·.fill n dev.handle epLed data .xferCb)
  have hready : Ready n w1.now := alloc_fill_ready ..
  have hlen : (w1.now.submit n (env.submit 0)).transfers.length = n + 1 := by
    simp [w1, Usb.submit, Usb.fill, Usb.alloc, n]
  unfold ledAsync allocTransfer at hexit ⊢
  cases halloc : env.alloc 0 with
  | false =>
    intro id t hid ht
    simp only [Bool.false_eq_true, if_false] at ht
    rw [List.getElem?_eq_none hid] at ht
    cases ht
  | true =>
    simp only [halloc, if_true] at hexit ⊢
    split
    · -- the submission failed: the transfer is not in flight
      rename_i hrc
      obtain ⟨t, ht, -, hl, hf, -⟩ := hready.submit_failed ((rc_neg_iff _).1 hrc)
      refine (owned_frees (nodup_one n)
        (fun id hid => ?_) fun id h1 h2 => ?_).2 fun id hid t' ht' => ?_
      · rw [List.mem_singleton.1 hid]
        exact ⟨Nat.le_refl n, t, ht, hl⟩
      · have h3 : id < n + 1 := Nat.lt_of_lt_of_eq h2 hlen
        exact List.mem_singleton.2 (by omega)
      · rw [List.mem_singleton.1 hid] at ht'
        rw [Option.some.inj (ht'.symm.trans ht)]
        exact hf
    · rename_i hrc
      rw [if_neg hrc] at hexit
      have hok : (env.submit 0).val = 0 := not_not.1 fun h => hrc ((rc_neg_iff _).2 h)
      exact ledWait_owned (w := w1.step (·.submit n (env.submit 0)))
        (hready.submit hok).1 hlen env hexit

/-! ## Commands -/

/-- A command leaves its transfers released: it has no device, or its allocations go alike and, if
they succeed, the IN submission fails or the OUT submission does not and both callbacks run before
the deadline. -/
def cmdReleases (n : Nat) (env : CallEnv) : Bool :=
  dev.context.isNone || dev.handle.isNone ||
    (env.alloc 0 == env.alloc 1 &&
      (!env.alloc 0 || decide ((env.submit 0).val < 0) ||
        (decide ((env.submit 1).val = 0) && runBeforeDeadline [n, n + 1] env.rounds)))

/-- A live transfer that no one frees is not released. -/
theorem not_owned_alloc (u : Usb) : ¬ OwnedSince u.transfers.length u.alloc := by
  intro h
  have hget : u.alloc.transfers[u.transfers.length]? = some (.fresh {}) := by
    rw [Usb.alloc, getElem?_alloc, if_pos rfl]
  exact (Transfer.live_fresh _).not_released (h _ _ (Nat.le_refl _) hget)

theorem mem_pair {n id : Nat} (h1 : n ≤ id) (h2 : id < n + 2) : id ∈ [n, n + 1] := by
  rcases Nat.eq_or_lt_of_le h1 with rfl | h1
  · exact .head _
  · exact List.mem_cons_of_mem _ (List.mem_singleton.2 (by omega))

/-- The transfers of a command, allocated and filled. -/
theorem filled_ready (u : Usb) (bytes : List UInt8) :
    let n := u.transfers.length
    let u' := (u.alloc.alloc.fill n dev.handle epResp inBuf .xferCb).fill (n + 1)
      dev.handle epCmd bytes .xferCb
    Ready n u' ∧ Ready (n + 1) u' ∧ u'.transfers.length = n + 2 := by
  intro n u'
  have hlen : u.alloc.transfers.length = n + 1 := by simp [Usb.alloc, n]
  have hn : u.alloc.alloc.transfers[n]? = some (.fresh {}) := by
    rw [Usb.alloc, getElem?_alloc, hlen, if_neg (by omega), Usb.alloc, getElem?_alloc, if_pos rfl]
  have hn1 : u.alloc.alloc.transfers[n + 1]? = some (.fresh {}) := by
    rw [Usb.alloc, getElem?_alloc, hlen, if_pos rfl]
  have hin : u'.transfers[n]? = _ :=
    (getElem?_on_of_ne _ (by omega)).trans (getElem?_on_self hn)
  have hout : u'.transfers[n + 1]? = _ :=
    getElem?_on_self ((getElem?_on_of_ne _ (by omega)).trans hn1)
  refine ⟨⟨_, hin, rfl, ⟨rfl, rfl⟩, rfl, rfl⟩, ⟨_, hout, rfl, ⟨rfl, rfl⟩, rfl, rfl⟩, ?_⟩
  simp [u', Usb.fill, Usb.alloc, n]

/-- Freeing both transfers of a command. -/
theorem owned_free_pair {n : Nat} {t t' : Transfer Xfer} (ht : u.transfers[n]? = some t)
    (ht' : u.transfers[n + 1]? = some t') (hl : t.Live) (hl' : t'.Live)
    (hlen : u.transfers.length = n + 2) :
    OwnedSince n ((u.free n).free (n + 1)) ↔ t.inFlight = false ∧ t'.inFlight = false := by
  have hlive : ∀ id ∈ [n, n + 1], n ≤ id ∧ ∃ t, u.transfers[id]? = some t ∧ t.Live := by
    intro id hid
    rcases List.mem_cons.1 hid with rfl | hid
    · exact ⟨Nat.le_refl _, t, ht, hl⟩
    · rw [List.mem_singleton.1 hid]
      exact ⟨Nat.le_succ n, t', ht', hl'⟩
  have hfrees : OwnedSince n ((u.free n).free (n + 1)) ↔ _ :=
    owned_frees (nodup_pair n) hlive fun id h1 h2 => mem_pair h1 (Nat.lt_of_lt_of_eq h2 hlen)
  rw [hfrees]
  simp [ht, ht']

theorem cmdWait_owned_iff {n : Nat} (hin : Waiting n w.now) (hout : Waiting (n + 1) w.now)
    (hlen : w.now.transfers.length = n + 2) (rounds : List Round) :
    ((cmdWait errorName w n (n + 1) rounds).2 ≠ .running →
      OwnedSince n (cmdWait errorName w n (n + 1) rounds).1.now) ↔
      runBeforeDeadline (pending [n, n + 1] w.now) rounds = true := by
  have h0 : ∀ id ∈ [n, n + 1], Waiting id w.now := by
    intro id hid
    rcases List.mem_cons.1 hid with rfl | hid
    · exact hin
    · rwa [List.mem_singleton.1 hid]
  have hle : ∀ id ∈ [n, n + 1], n ≤ id := by
    intro id hid
    rcases List.mem_cons.1 hid with rfl | hid
    · exact Nat.le_refl _
    · rw [List.mem_singleton.1 hid]; omega
  obtain ⟨hw, hl, hdone, hiff⟩ := waitLoop_spec rounds h0
  rw [hiff]
  unfold cmdWait
  cases hr : waitLoop [n, n + 1] w rounds with
  | mk w1 exit =>
    rw [hr] at hw hl hdone
    have hfree : OwnedSince n ((w1.now.free n).free (n + 1)) ↔ pending [n, n + 1] w1.now = [] :=
      owned_frees_waiting (nodup_pair n) (fun id hid => ⟨hle id hid, hw id hid⟩)
        fun id h1 h2 => mem_pair h1 (by rw [hl, hlen] at h2; exact h2)
    cases exit with
    | running => simp
    | deadline =>
      simp only [ne_eq, reduceCtorEq, not_false_eq_true, forall_const]
      exact hfree
    | done =>
      simp only [ne_eq, reduceCtorEq, false_implies, iff_true]
      intro _
      split <;> exact hfree.2 (hdone rfl)

theorem cmdSubmit_owned_iff {n : Nat} (hin : Ready n w.now) (hout : Ready (n + 1) w.now)
    (hlen : w.now.transfers.length = n + 2) (env : CallEnv) :
    ((cmdSubmit errorName w n (n + 1) env).2 ≠ .running →
      OwnedSince n (cmdSubmit errorName w n (n + 1) env).1.now) ↔
      (decide ((env.submit 0).val < 0) ||
        (decide ((env.submit 1).val = 0) && runBeforeDeadline [n, n + 1] env.rounds)) = true := by
  have hne : n ≠ n + 1 := by omega
  let u1 := w.now.submit n (env.submit 0)
  let u2 := u1.submit (n + 1) (env.submit 1)
  have hlen1 : u1.transfers.length = n + 2 := (length_on _).trans hlen
  have hlen2 : u2.transfers.length = n + 2 := (length_on _).trans hlen1
  have hready1 : Ready (n + 1) u1 := hout.submit_of_ne hne (env.submit 0)
  unfold cmdSubmit
  by_cases h0 : (env.submit 0).val < 0
  · -- neither is in flight
    obtain ⟨t, ht, -, hl, hf, -⟩ := hin.submit_failed ((rc_neg_iff _).1 h0)
    obtain ⟨t', ht', -, hl', hf', -⟩ := hready1
    have hgone : OwnedSince n ((u1.free n).free (n + 1)) :=
      (owned_free_pair ht ht' hl hl' hlen1).2 ⟨hf, hf'⟩
    rw [if_pos h0, decide_eq_true h0, Bool.true_or]
    exact iff_of_true (fun _ => hgone) rfl
  · have hok0 : (env.submit 0).val = 0 := not_not.1 fun h => h0 ((rc_neg_iff _).2 h)
    obtain ⟨hwait1, hdone1⟩ : Waiting n u1 ∧ u1.isDone n = false := hin.submit hok0
    have hwait2 : Waiting n u2 := hwait1.submit_of_ne (Ne.symm hne) (env.submit 1)
    have hdone2 : u2.isDone n = false :=
      (isDone_submit_of_ne (Ne.symm hne) (env.submit 1)).trans hdone1
    rw [if_neg h0, decide_eq_false h0, Bool.false_or]
    by_cases h1 : (env.submit 1).val < 0
    · -- IN is still in flight when it is freed
      obtain ⟨t, ht, -, hl, hf⟩ := hwait2
      obtain ⟨t', ht', -, hl', -⟩ := hready1.submit_failed ((rc_neg_iff _).1 h1)
      have hflight : t.inFlight = true := by
        rw [Usb.isDone, ht] at hdone2
        rw [hf]
        simpa using hdone2
      have hlost : ¬ OwnedSince n ((u2.free n).free (n + 1)) := by
        intro h
        have hidle := ((owned_free_pair ht ht' hl hl' hlen2).1 h).1
        rw [hflight] at hidle
        cases hidle
      rw [if_pos h1, decide_eq_false ((rc_neg_iff _).1 h1), Bool.false_and]
      exact iff_of_false (fun h => hlost (h (by simp))) (by simp)
    · have hok1 : (env.submit 1).val = 0 := not_not.1 fun h => h1 ((rc_neg_iff _).2 h)
      obtain ⟨hwait2', hdone2'⟩ : Waiting (n + 1) u2 ∧ u2.isDone (n + 1) = false :=
        hready1.submit hok1
      have hpending : pending [n, n + 1] u2 = [n, n + 1] := by
        simp [pending, hdone2, hdone2']
      rw [if_neg h1, decide_eq_true hok1, Bool.true_and, ← hpending]
      exact cmdWait_owned_iff errorName
        (w := (w.step (·.submit n (env.submit 0))).step (·.submit (n + 1) (env.submit 1)))
        hwait2 hwait2' hlen2 env.rounds

/-- **A command owns its transfers** at its exits exactly under `cmdReleases`. -/
theorem cmd_owned_iff (w : History Usb) (bytes : List UInt8) (env : CallEnv) :
    ((cmd errorName dev w bytes env).2 ≠ .running →
      OwnedSince w.now.transfers.length (cmd errorName dev w bytes env).1.now) ↔
      cmdReleases dev w.now.transfers.length env = true := by
  have hnone : OwnedSince w.now.transfers.length w.now := by
    intro id t hid ht
    rw [List.getElem?_eq_none hid] at ht
    cases ht
  unfold cmd cmdReleases
  by_cases hdev : (dev.context.isNone || dev.handle.isNone) = true
  · simp only [hdev, if_true, Bool.true_or, iff_true]
    exact fun _ => hnone
  · rw [if_neg hdev, Bool.eq_false_iff.2 hdev, Bool.false_or]
    unfold allocTransfer
    cases h0 : env.alloc 0 <;> cases h1 : env.alloc 1
    · simpa using hnone
    · simpa using not_owned_alloc w.now
    · simpa using not_owned_alloc w.now
    · obtain ⟨hin, hout, hlen⟩ := filled_ready dev w.now bytes
      let n := w.now.transfers.length
      let filled := (((w.step Usb.alloc).step Usb.alloc).step
        (·.fill n dev.handle epResp inBuf .xferCb)).step
        (·.fill (n + 1) dev.handle epCmd bytes .xferCb)
      have hsubmit := cmdSubmit_owned_iff errorName (w := filled) hin hout hlen env
      have hlen1 : w.now.alloc.transfers.length = n + 1 := by simp [Usb.alloc, n]
      simp only [if_true, History.step_now, hlen1, beq_self_eq_true, Bool.true_and, Bool.not_true,
        Bool.false_or]
      exact hsubmit

/-- **Ownership of the transfers of a call.** -/
theorem transfers_owned_iff (w : History Usb) (bytes data : List UInt8) (env : CallEnv) :
    (((cmd errorName dev w bytes env).2 ≠ .running →
      OwnedSince w.now.transfers.length (cmd errorName dev w bytes env).1.now) ↔
      cmdReleases dev w.now.transfers.length env = true) ∧
    ((ledAsync errorName dev w data env).2 ≠ .running →
      OwnedSince w.now.transfers.length (ledAsync errorName dev w data env).1.now) :=
  ⟨cmd_owned_iff errorName dev w bytes env, ledAsync_owned errorName dev w data env⟩

theorem not_owned_out_submit :
    ¬ ∀ (errorName : Int → String) (dev : Device) (w : History Usb) (bytes : List UInt8)
      (env : CallEnv), (cmd errorName dev w bytes env).2 ≠ .running →
      OwnedSince w.now.transfers.length (cmd errorName dev w bytes env).1.now := by
  intro h
  -- the device is unplugged between the two submissions
  let env : CallEnv := ⟨fun _ => true, fun k => if k = 0 then .ok else ⟨-4, by decide⟩, [], []⟩
  have hrel := (cmd_owned_iff (fun _ => "LIBUSB_ERROR_NO_DEVICE") ⟨some 0, some 0⟩ (.start {})
    [0x01] env).1 (h _ _ _ _ _)
  exact absurd hrel (by decide)

end Startup
