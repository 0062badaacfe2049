import S4Bridge.Startup.Proof.Calls
import S4Bridge.Startup.Proof.Drain

/-!
# Calls without a drain transfer

Commands and LED writes work on transfers of their own, so whatever becomes of them they keep
`DrainInv` all along and the current transfer of the drain (`StaysCalm.cmd`, `StaysCalm.ledAsync`).
-/

namespace Startup

open Transfers History

variable {u : Usb} {w : History Usb} {n : Nat} {t0 : Option Nat}

/-! ## The invariant of a call -/

/-- What holds during a call whose transfers are those from number `n` on. -/
structure Calm (n : Nat) (t0 : Option Nat) (u : Usb) : Prop where
  inv : DrainInv u
  t : u.drain.t = t0
  plain : ∀ id, n ≤ id → ∀ t, u.transfers[id]? = some t → ¬ IsDrain t

theorem Calm.on (h : Calm n t0 u) {id : Nat} (hid : n ≤ id) {f : Transfer Xfer → Transfer Xfer}
    (hf : ∀ t, ¬ IsDrain t → ¬ IsDrain (f t)) : Calm n t0 (u.on id f) := by
  refine ⟨h.inv.of_same rfl (same_on (h.plain id hid) hf), h.t, fun j hj t ht hd => ?_⟩
  exact h.plain j hj t ((same_on (h.plain id hid) hf j t hd).1 ht) hd

theorem Calm.fill (h : Calm n t0 u) {id : Nat} (hid : n ≤ id) (handle : Option Handle)
    (endpoint : UInt8) (buffer : List UInt8) :
    Calm n t0 (u.fill id handle endpoint buffer .xferCb) :=
  h.on hid fun t _ hd => by simp [IsDrain] at hd

theorem Calm.submit (h : Calm n t0 u) {id : Nat} (hid : n ≤ id) (rc : Rc) :
    Calm n t0 (u.submit id rc) :=
  h.on hid fun t ht hd => ht (by rwa [IsDrain, Transfer.submitted_data] at hd)

theorem Calm.free (h : Calm n t0 u) {id : Nat} (hid : n ≤ id) : Calm n t0 (u.free id) :=
  h.on hid fun _ ht => ht

theorem Calm.alloc (h : Calm n t0 u) : Calm n t0 u.alloc := by
  have hfresh : ¬ IsDrain (.fresh {} : Transfer Xfer) := by simp [IsDrain, Transfer.fresh]
  have hsame : ∀ (id : Nat) (t : Transfer Xfer), IsDrain t →
      (u.alloc.transfers[id]? = some t ↔ u.transfers[id]? = some t) := by
    intro id t hd
    rw [Usb.alloc, getElem?_alloc]
    split
    · rename_i hid
      refine iff_of_false (fun h => hfresh (Option.some.inj h ▸ hd)) fun h => ?_
      rw [hid, List.getElem?_eq_none (Nat.le_refl _)] at h
      cases h
    · exact Iff.rfl
  exact ⟨h.inv.of_same rfl hsame, h.t, fun id hid t ht hd => h.plain id hid t ((hsame id t hd).1 ht) hd⟩

theorem Calm.complete (h : Calm n t0 u) (c : Completion) : Calm n t0 (complete u c) := by
  refine ⟨h.inv.complete c, complete_t.trans h.t, fun id hid t ht hd => ?_⟩
  by_cases hc : u.drain.t = some c.id
  · obtain ⟨t', ht', hd', -⟩ := h.inv.current c.id hc
    have hne : c.id ≠ id := fun he => h.plain id hid t' (he ▸ ht') hd'
    rw [complete_of_ne hne] at ht
    exact h.plain id hid t ht hd
  · exact h.plain id hid t (((complete_other h.inv hc).2 id t hd).1 ht) hd

theorem Calm.start (h : DrainInv u) : Calm u.transfers.length u.drain.t u :=
  ⟨h, rfl, fun id hid t ht => by rw [List.getElem?_eq_none hid] at ht; cases ht⟩

/-- `DrainInv` has held all along and the call is calm. -/
abbrev StaysCalm (n : Nat) (t0 : Option Nat) : History Usb → Prop := Holds DrainInv (Calm n t0)

theorem staysCalm_start (h : w.Always DrainInv) :
    StaysCalm w.now.transfers.length w.now.drain.t w := ⟨h, .start h.1⟩

/-- A call keeps the drain, whatever becomes of the call's own transfers. -/
theorem calmRule (n : Nat) (t0 : Option Nat) : CallRule DrainInv (Calm n t0) n where
  implies _ h := h.inv
  alloc _ h := h.alloc
  submit _ _ rc hid h := h.submit hid rc
  free _ _ hid h := h.free hid
  complete _ c h := h.complete c

/-! ## Commands and LED writes -/

variable (errorName : Int → String) (dev : Device)

theorem StaysCalm.cmd (h : StaysCalm n t0 w) (hn : n ≤ w.now.transfers.length) (bytes : List UInt8)
    (env : CallEnv) : StaysCalm n t0 (cmd errorName dev w bytes env).1 :=
  (calmRule n t0).cmd errorName dev h hn (fun _ hu => hu.fill hn _ _ _)
    (fun _ hu => hu.fill (Nat.le_succ_of_le hn) _ _ _) env

theorem StaysCalm.ledAsync (h : StaysCalm n t0 w) (hn : n ≤ w.now.transfers.length)
    (data : List UInt8) (env : CallEnv) :
    StaysCalm n t0 (ledAsync errorName dev w data env).1 :=
  (calmRule n t0).ledAsync errorName dev h hn (fun _ hu => hu.fill hn _ _ _) env

end Startup
