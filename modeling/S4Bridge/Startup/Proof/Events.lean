import S4Bridge.Startup.Init

/-!
# What events do to one transfer

A completion changes only the transfer it names, and `s_drain` only if that is a drain transfer in
flight. Of a transfer with `xferCb` the events run the callback once, at the first completion that
names it (`complete_xfer`, `handleEvents_xfer`).
-/

namespace Startup

open Transfers

variable {u : Usb} {c : Completion} {id j : Nat} {t : Transfer Xfer}

/-! ## Calls on one transfer -/

theorem getElem?_on_self {f : Transfer Xfer → Transfer Xfer} (h : u.transfers[id]? = some t) :
    (u.on id f).transfers[id]? = some (f t) := getElem?_modify_self h

theorem getElem?_on_of_ne (f : Transfer Xfer → Transfer Xfer) (h : id ≠ j) :
    (u.on id f).transfers[j]? = u.transfers[j]? := getElem?_modify_of_ne f h

@[simp] theorem length_on (f : Transfer Xfer → Transfer Xfer) :
    (u.on id f).transfers.length = u.transfers.length := List.length_modify ..

@[simp] theorem on_drain (f : Transfer Xfer → Transfer Xfer) : (u.on id f).drain = u.drain := rfl

/-- A return code is an error exactly if it is not 0. -/
theorem rc_neg_iff (rc : Rc) : rc.val < 0 ↔ ¬ rc.val = 0 := by
  have := rc.property
  omega

/-! ## One completion -/

theorem drain84Cb_transfers_of_ne (h : c.id ≠ j) :
    (drain84Cb u c).transfers[j]? = u.transfers[j]? := by
  unfold drain84Cb
  split
  · rfl
  · split <;> simp only [Usb.submit, Usb.fill, getElem?_on_of_ne _ h]

@[simp] theorem drain84Cb_length : (drain84Cb u c).transfers.length = u.transfers.length := by
  unfold drain84Cb
  split
  · rfl
  · split <;> simp only [Usb.submit, Usb.fill, length_on]

@[simp] theorem drain84Cb_t : (drain84Cb u c).drain.t = u.drain.t := by
  unfold drain84Cb
  split
  · rfl
  · split <;> rfl

/-- A completion of a transfer that is not in flight is none. -/
theorem complete_idle (h : ∀ t, u.transfers[c.id]? = some t → t.inFlight = false) :
    complete u c = u := by
  unfold complete
  cases hc : u.transfers[c.id]? with
  | none => rfl
  | some t => simp [h t hc]

/-- A completion of a transfer in flight. -/
theorem complete_inFlight (h : u.transfers[c.id]? = some t) (hf : t.inFlight = true) :
    complete u c =
      match t.data.callback with
      | some .xferCb => (u.on c.id (·.finished)).on c.id (xferCb c)
      | some .drain84Cb => drain84Cb (u.on c.id (·.finished)) c
      | none => u.on c.id (·.finished) := by
  unfold complete
  rw [h]
  exact if_neg (by simp [hf])

theorem complete_of_ne (h : c.id ≠ j) : (complete u c).transfers[j]? = u.transfers[j]? := by
  unfold complete
  split
  · rfl
  · split
    · rfl
    · simp only
      split
      · rw [getElem?_on_of_ne _ h, getElem?_on_of_ne _ h]
      · rw [drain84Cb_transfers_of_ne h, getElem?_on_of_ne _ h]
      · rw [getElem?_on_of_ne _ h]

@[simp] theorem complete_length : (complete u c).transfers.length = u.transfers.length := by
  unfold complete
  split
  · rfl
  · split
    · rfl
    · simp only
      split <;> simp

@[simp] theorem complete_t : (complete u c).drain.t = u.drain.t := by
  unfold complete
  split
  · rfl
  · split
    · rfl
    · simp only
      split <;> simp

/-- What a completion does to a transfer with `xferCb`. -/
def afterXfer (id : Nat) (t : Transfer Xfer) (c : Completion) : Transfer Xfer :=
  if c.id = id ∧ t.inFlight then xferCb c t.finished else t

theorem complete_xfer (h : u.transfers[id]? = some t) (hcb : t.data.callback = some .xferCb) :
    (complete u c).transfers[id]? = some (afterXfer id t c) := by
  by_cases hc : c.id = id
  · subst hc
    cases hf : t.inFlight with
    | true =>
      rw [complete_inFlight h hf, hcb, getElem?_on_self (getElem?_on_self h)]
      simp [afterXfer, hf]
    | false =>
      have hidle : complete u c = u := complete_idle fun t' ht' => by
        rw [h, Option.some.injEq] at ht'
        rw [← ht', hf]
      rw [hidle, h, afterXfer, if_neg (by simp [hf])]
  · rw [complete_of_ne hc, h, afterXfer, if_neg fun hh => hc hh.1]

/-! ## Event handling -/

variable {w : History Usb}

theorem handleEvents_now (cs : List Completion) :
    (handleEvents w cs).now = cs.foldl complete w.now := History.steps_now complete cs

@[simp] theorem handleEvents_length (cs : List Completion) :
    (handleEvents w cs).now.transfers.length = w.now.transfers.length := by
  rw [handleEvents_now]
  induction cs generalizing w with
  | nil => rfl
  | cons c cs ih =>
    exact (ih (w := w.step (complete · c))).trans complete_length

/-- The events leave a transfer with `xferCb` alone that is not in flight. -/
theorem foldl_complete_idle (cs : List Completion) (h : u.transfers[id]? = some t)
    (hcb : t.data.callback = some .xferCb) (hf : t.inFlight = false) :
    (cs.foldl complete u).transfers[id]? = some t := by
  induction cs generalizing u with
  | nil => exact h
  | cons c cs ih =>
    have h1 := complete_xfer (c := c) h hcb
    rw [afterXfer, if_neg (by simp [hf])] at h1
    exact ih h1

/-- A transfer with `xferCb` in flight is completed by the first completion that names it. -/
theorem handleEvents_xfer (cs : List Completion) (h : w.now.transfers[id]? = some t)
    (hcb : t.data.callback = some .xferCb) (hf : t.inFlight = true) :
    (handleEvents w cs).now.transfers[id]? =
      some (match cs.find? (·.id == id) with
        | some c => xferCb c t.finished
        | none => t) := by
  rw [handleEvents_now]
  generalize w.now = u at h
  induction cs generalizing u with
  | nil => exact h
  | cons c cs ih =>
    have h1 := complete_xfer (c := c) h hcb
    rw [List.foldl_cons, List.find?_cons]
    by_cases hc : c.id = id
    · -- from here on the transfer is not in flight
      rw [afterXfer, if_pos ⟨hc, hf⟩] at h1
      simp only [hc, beq_self_eq_true]
      exact foldl_complete_idle cs h1 hcb rfl
    · rw [afterXfer, if_neg fun hh => hc hh.1] at h1
      simp only [beq_false_of_ne hc]
      exact ih _ h1

end Startup
