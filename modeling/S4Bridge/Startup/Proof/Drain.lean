import S4Bridge.Startup.Proof.Events

/-!
# The drain transfer

`DrainInv` ties `s_drain` to the transfers of endpoint 0x84: the current one is live, and in flight
exactly if `active`; all others are released. Completions keep it (`DrainInv.complete`); they end
`active` exactly when one of them ends the current transfer (`foldl_complete_active`).
-/

namespace Startup

open Transfers

variable {u u' : Usb} {w : History Usb} {id n : Nat}

/-- A transfer of the drain. -/
def IsDrain (t : Transfer Xfer) : Prop := t.data.callback = some .drain84Cb

structure DrainInv (u : Usb) : Prop where
  current : ∀ id, u.drain.t = some id →
    ∃ t, u.transfers[id]? = some t ∧ IsDrain t ∧ t.Live ∧ t.inFlight = u.drain.active
  idle : u.drain.t = none → u.drain.active = false
  past : ∀ (id : Nat) t, u.transfers[id]? = some t → IsDrain t → u.drain.t ≠ some id →
    t.Released ∧ t.inFlight = false

/-- At most one drain transfer is in flight, and `active` tells whether there is one. -/
structure DrainOk (u : Usb) : Prop where
  atMostOne : ∀ (id id' : Nat) t t', u.transfers[id]? = some t → u.transfers[id']? = some t' →
    IsDrain t → IsDrain t' → t.inFlight = true → t'.inFlight = true → id = id'
  active_iff : u.drain.active = true ↔
    ∃ (id : Nat) (t : _), u.transfers[id]? = some t ∧ IsDrain t ∧ t.inFlight = true

/-- There is no drain, and what there was of it is released. -/
structure DrainGone (u : Usb) : Prop where
  t : u.drain.t = none
  released : ∀ (id : Nat) t, u.transfers[id]? = some t → IsDrain t → t.Released ∧ t.inFlight = false

/-! ## The invariant -/

theorem DrainInv.current_of_inFlight (h : DrainInv u) {t : Transfer Xfer}
    (ht : u.transfers[id]? = some t) (hd : IsDrain t) (hf : t.inFlight = true) :
    u.drain.t = some id := by
  by_contra hne
  have hidle := (h.past id t ht hd hne).2
  rw [hf] at hidle
  cases hidle

theorem DrainInv.ok (h : DrainInv u) : DrainOk u := by
  refine ⟨fun id id' t t' ht ht' hd hd' hf hf' => ?_, fun hact => ?_, fun ⟨id, t, ht, hd, hf⟩ => ?_⟩
  · have h1 := h.current_of_inFlight ht hd hf
    rw [h.current_of_inFlight ht' hd' hf'] at h1
    exact (Option.some.inj h1).symm
  · cases hcur : u.drain.t with
    | none =>
      rw [h.idle hcur] at hact
      cases hact
    | some id =>
      obtain ⟨t, ht, hd, -, hf⟩ := h.current id hcur
      exact ⟨id, t, ht, hd, hf.trans hact⟩
  · obtain ⟨t', ht', -, -, hf'⟩ := h.current id (h.current_of_inFlight ht hd hf)
    rw [← hf', ← Option.some.inj (ht.symm.trans ht')]
    exact hf

theorem DrainInv.gone (h : DrainInv u) (ht : u.drain.t = none) : DrainGone u :=
  ⟨ht, fun id t hget hd => h.past id t hget hd (by rw [ht]; simp)⟩

theorem drainInv_start : DrainInv ({} : Usb) :=
  ⟨fun id h => by simp at h, fun _ => rfl, fun id t h => by simp at h⟩

/-- A step that leaves the drain and its transfers alone keeps the invariant. -/
theorem DrainInv.of_same (h : DrainInv u) (hdrain : u'.drain = u.drain)
    (hsame : ∀ (id : Nat) t, IsDrain t → (u'.transfers[id]? = some t ↔ u.transfers[id]? = some t)) :
    DrainInv u' := by
  refine ⟨fun id hid => ?_, fun ht => ?_, fun id t ht hd hne => ?_⟩
  · rw [hdrain] at hid ⊢
    obtain ⟨t, ht, hd, h'⟩ := h.current id hid
    exact ⟨t, (hsame id t hd).2 ht, hd, h'⟩
  · rw [hdrain] at ht ⊢
    exact h.idle ht
  · rw [hdrain] at hne
    exact h.past id t ((hsame id t hd).1 ht) hd hne

/-- Changing a transfer that is not the drain's, into one that is not. -/
theorem same_on (hplain : ∀ t, u.transfers[id]? = some t → ¬ IsDrain t)
    {f : Transfer Xfer → Transfer Xfer} (hf : ∀ t, ¬ IsDrain t → ¬ IsDrain (f t)) (j : Nat)
    (t : Transfer Xfer) (hd : IsDrain t) :
    (u.on id f).transfers[j]? = some t ↔ u.transfers[j]? = some t := by
  by_cases hj : id = j
  · subst hj
    refine iff_of_false (fun h => ?_) fun h => hplain t h hd
    rw [Usb.on, List.getElem?_modify] at h
    cases hget : u.transfers[id]? with
    | none => rw [hget] at h; cases h
    | some t0 =>
      simp only [hget, if_true, Option.map_eq_map, Option.map_some, Option.some.injEq] at h
      exact hf t0 (hplain t0 hget) (h ▸ hd)
  · rw [getElem?_on_of_ne f hj]

/-! ## Completions -/

/-- A completion of anything but the current transfer. -/
theorem complete_other (h : DrainInv u) {c : Completion} (hc : u.drain.t ≠ some c.id) :
    (complete u c).drain = u.drain ∧ ∀ (id : Nat) t, IsDrain t →
      ((complete u c).transfers[id]? = some t ↔ u.transfers[id]? = some t) := by
  by_cases hidle : ∀ t, u.transfers[c.id]? = some t → t.inFlight = false
  · rw [complete_idle hidle]
    exact ⟨rfl, fun _ _ _ => Iff.rfl⟩
  · push Not at hidle
    obtain ⟨t, ht, hf⟩ := hidle
    have hf : t.inFlight = true := by simpa using hf
    have hplain : ¬ IsDrain t := fun hd => hc (h.current_of_inFlight ht hd hf)
    have hfin : ∀ s, u.transfers[c.id]? = some s → ¬ IsDrain s := fun s hs =>
      Option.some.inj (ht.symm.trans hs) ▸ hplain
    rw [complete_inFlight ht hf]
    cases hcb : t.data.callback with
    | none => exact ⟨rfl, same_on hfin fun s hs => hs⟩
    | some cb =>
      cases cb with
      | drain84Cb => exact absurd hcb hplain
      | xferCb =>
        refine ⟨rfl, fun id s hd => ?_⟩
        have hfin' : ∀ s, (u.on c.id (·.finished)).transfers[c.id]? = some s → ¬ IsDrain s := by
          intro s hs
          rw [getElem?_on_self ht] at hs
          rw [← Option.some.inj hs]
          exact hplain
        exact (same_on hfin' (f := xferCb c) (fun s hs => hs) id s hd).trans
          (same_on hfin (f := (·.finished)) (fun s hs => hs) id s hd)

/-- The completion ends transfer `id` of the drain: its status says so, or it cannot be submitted
again. -/
def endsDrain (id : Nat) (c : Completion) : Bool :=
  c.id == id && (c.status.endsDrain || decide (c.resubmit.val < 0))

/-- A completion of the current transfer. -/
theorem complete_current (h : DrainInv u) {c : Completion} (hc : u.drain.t = some c.id) :
    (complete u c).drain.active = (u.drain.active && !endsDrain c.id c) ∧
    ∃ t, (complete u c).transfers[c.id]? = some t ∧ IsDrain t ∧ t.Live ∧
      t.inFlight = (complete u c).drain.active := by
  obtain ⟨t, ht, hd, hl, hf⟩ := h.current c.id hc
  cases hact : u.drain.active with
  | false =>
    rw [hact] at hf
    have hidle : complete u c = u := complete_idle fun s hs => by
      rw [← Option.some.inj (ht.symm.trans hs)]
      exact hf
    rw [hidle, hact]
    exact ⟨rfl, t, ht, hd, hl, hf⟩
  | true =>
    have hfin : (u.on c.id (·.finished)).transfers[c.id]? = some t.finished := getElem?_on_self ht
    have hcb : t.data.callback = some .drain84Cb := hd
    rw [complete_inFlight ht (hf.trans hact), hcb]
    simp only [drain84Cb, endsDrain, beq_self_eq_true, Bool.true_and]
    cases hend : c.status.endsDrain with
    | true => exact ⟨rfl, _, hfin, hd, hl, rfl⟩
    | false =>
      -- submitted again, or not
      have hfill := getElem?_on_self
        (f := fun t => { t with data := { t.data with
          handle := u.drain.hdl, endpoint := epData, buffer := drainBuf,
          callback := some .drain84Cb } }) hfin
      have hsub := getElem?_on_self
        (f := (·.submitted (decide (c.resubmit.val = 0)))) hfill
      by_cases hrc : c.resubmit.val < 0
      · have hrc0 : c.resubmit.val ≠ 0 := (rc_neg_iff _).1 hrc
        simp only [hrc, if_true, Bool.false_eq_true, if_false, decide_true, Bool.false_or,
          Bool.not_true]
        exact ⟨trivial, _, hsub, by simp [IsDrain], (Transfer.live_submitted _).2 hl, by
          simp [Transfer.submitted, Transfer.finished, hrc0]⟩
      · have hrc0 : c.resubmit.val = 0 := not_not.1 fun hne => hrc ((rc_neg_iff _).2 hne)
        simp only [hrc, Bool.false_eq_true, if_false, decide_false, Bool.or_self, Bool.not_false]
        exact ⟨hact, _, hsub, by simp [IsDrain], (Transfer.live_submitted _).2 hl, by
          simp [Transfer.submitted, hrc0, Usb.submit, Usb.fill, hact]⟩

theorem DrainInv.complete (h : DrainInv u) (c : Completion) : DrainInv (complete u c) := by
  by_cases hc : u.drain.t = some c.id
  · obtain ⟨-, hcur⟩ := complete_current h hc
    have ht : (Startup.complete u c).drain.t = some c.id := complete_t.trans hc
    refine ⟨fun id hid => ?_, fun hnone => ?_, fun id t hget hd hne => ?_⟩
    · obtain rfl : c.id = id := Option.some.inj (ht.symm.trans hid)
      exact hcur
    · rw [ht] at hnone
      cases hnone
    · have hne' : c.id ≠ id := fun he => hne (he ▸ ht)
      rw [complete_of_ne hne'] at hget
      rw [complete_t] at hne
      exact h.past id t hget hd hne
  · obtain ⟨hdrain, hsame⟩ := complete_other h hc
    exact h.of_same hdrain hsame

/-- How the events change `active`, for the current transfer `id`. -/
theorem foldl_complete_active (h : DrainInv u) (ht : u.drain.t = some id) (cs : List Completion) :
    (cs.foldl complete u).drain.active = (u.drain.active && !cs.any (endsDrain id)) := by
  induction cs generalizing u with
  | nil => simp
  | cons c cs ih =>
    have hone : (complete u c).drain.active = (u.drain.active && !endsDrain id c) := by
      by_cases hc : c.id = id
      · subst hc
        exact (complete_current h ht).1
      · have hends : endsDrain id c = false := by simp [endsDrain, hc]
        have hother := (complete_other h (c := c) fun hh =>
          hc (Option.some.inj (hh.symm.trans ht))).1
        rw [hother, hends, Bool.not_false, Bool.and_true]
    rw [List.foldl_cons, ih (h.complete c) (complete_t.trans ht), hone, List.any_cons, Bool.not_or,
      Bool.and_assoc]

end Startup
