import Mathlib.Data.List.Basic

/-!
# Asynchronous transfers and their memory

A transfer is a heap object the program lends to a driver: it is allocated, submitted, finished by
the driver some time later, and freed. Freeing it while it is in flight is a use after free in the
driver; each transfer is to be freed exactly once (`Released`). Transfers are kept in the order of
their allocation and named by their position, so that a freed one is still there to be looked at.
-/

namespace Transfers

variable {δ : Type*}

structure Transfer (δ : Type*) where
  data : δ
  inFlight : Bool
  frees : Nat
  freedInFlight : Bool
  deriving DecidableEq, Repr

namespace Transfer

variable (t : Transfer δ)

def fresh (data : δ) : Transfer δ := ⟨data, false, 0, false⟩

/-- The driver takes the transfer, if it accepts it. -/
def submitted (accepted : Bool) : Transfer δ :=
  if accepted then { t with inFlight := true } else t

/-- The driver gives the transfer back. -/
def finished : Transfer δ := { t with inFlight := false }

def freed : Transfer δ :=
  { t with frees := t.frees + 1, freedInFlight := t.freedInFlight || t.inFlight }

/-- Not freed yet. -/
def Live : Prop := t.frees = 0 ∧ t.freedInFlight = false

/-- Freed exactly once, and not while in flight. -/
def Released : Prop := t.frees = 1 ∧ t.freedInFlight = false

instance : Decidable t.Released := inferInstanceAs (Decidable (_ ∧ _))

variable {t}

theorem live_fresh (data : δ) : (fresh data).Live := ⟨rfl, rfl⟩

theorem Live.not_released (h : t.Live) : ¬ t.Released := fun hr => by
  rw [Released, h.1] at hr
  exact absurd hr.1 (by decide)

/-- Freeing a live transfer releases it exactly if it is not in flight. -/
theorem released_freed (h : t.Live) : t.freed.Released ↔ t.inFlight = false := by
  simp [Released, freed, h.1, h.2]

@[simp] theorem submitted_data (accepted : Bool) : (t.submitted accepted).data = t.data := by
  cases accepted <;> rfl

@[simp] theorem live_submitted (accepted : Bool) : (t.submitted accepted).Live ↔ t.Live := by
  cases accepted <;> exact Iff.rfl

@[simp] theorem live_finished : t.finished.Live ↔ t.Live := Iff.rfl

end Transfer

/-! ## Tables -/

variable {ts : List (Transfer δ)} {t : Transfer δ}

/-- The next transfer allocated is named by the length of the table. -/
theorem getElem?_alloc (data : δ) (i : Nat) :
    (ts ++ [Transfer.fresh data])[i]? =
      if i = ts.length then some (.fresh data) else ts[i]? := by
  rcases Nat.lt_trichotomy i ts.length with h | h | h
  · rw [List.getElem?_append_left h, if_neg (Nat.ne_of_lt h)]
  · rw [if_pos h, h, List.getElem?_concat_length]
  · rw [if_neg (Nat.ne_of_gt h), List.getElem?_eq_none (Nat.le_of_lt h),
      List.getElem?_eq_none (by rw [List.length_append]; exact h)]

theorem getElem?_modify_self {f : Transfer δ → Transfer δ} {i : Nat} (h : ts[i]? = some t) :
    (ts.modify i f)[i]? = some (f t) := by
  rw [List.getElem?_modify, h]
  simp

theorem getElem?_modify_of_ne (f : Transfer δ → Transfer δ) {i j : Nat} (h : i ≠ j) :
    (ts.modify i f)[j]? = ts[j]? := by
  rw [List.getElem?_modify]
  simp [h]

end Transfers
