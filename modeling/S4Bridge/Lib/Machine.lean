import Mathlib.Data.List.Basic

/-!
# Machines and their runs

`Machine σ ι ο`: a deterministic machine that reads one input per step and answers each with one
output. `final` is the state a run ends in, `outs` its outputs, one per input. The rules the
models use: a run splits at any point (`final_append`, `outs_append`), and a simulation of single
steps is a simulation of runs, on corresponding inputs (`outs_sim`) or on inputs chosen along the
run (`exists_sim`).
-/

/-- A deterministic machine: one output for each input. -/
structure Machine (σ ι ο : Type*) where
  step : σ → ι → σ × ο

namespace Machine

variable {σ τ ι κ ο π ω : Type*} (M : Machine σ ι ο)

/-- The state after reading `xs` from `s`. -/
def final : σ → List ι → σ
  | s, [] => s
  | s, x :: xs => final (M.step s x).1 xs

/-- The outputs of reading `xs` from `s`, one per input. -/
def outs : σ → List ι → List ο
  | _, [] => []
  | s, x :: xs => (M.step s x).2 :: outs (M.step s x).1 xs

@[simp] theorem final_nil (s : σ) : M.final s [] = s := rfl

@[simp] theorem final_cons (s : σ) (x : ι) (xs : List ι) :
    M.final s (x :: xs) = M.final (M.step s x).1 xs := rfl

@[simp] theorem outs_nil (s : σ) : M.outs s [] = [] := rfl

@[simp] theorem outs_cons (s : σ) (x : ι) (xs : List ι) :
    M.outs s (x :: xs) = (M.step s x).2 :: M.outs (M.step s x).1 xs := rfl

theorem final_append (s : σ) (xs ys : List ι) :
    M.final s (xs ++ ys) = M.final (M.final s xs) ys := by
  induction xs generalizing s with
  | nil => rfl
  | cons x xs ih => exact ih _

theorem outs_append (s : σ) (xs ys : List ι) :
    M.outs s (xs ++ ys) = M.outs s xs ++ M.outs (M.final s xs) ys := by
  induction xs generalizing s with
  | nil => rfl
  | cons x xs ih => simp [ih]

@[simp] theorem length_outs (s : σ) (xs : List ι) : (M.outs s xs).length = xs.length := by
  induction xs generalizing s with
  | nil => rfl
  | cons x xs ih => simp [ih]

/-- What a run answers to the inputs after `xs`. -/
theorem drop_outs (s : σ) (xs ys : List ι) :
    (M.outs s (xs ++ ys)).drop xs.length = M.outs (M.final s xs) ys := by
  rw [outs_append, List.drop_append_of_le_length (by simp), ← M.length_outs s xs, List.drop_length]
  rfl

/-- What a run answers to the input after `xs`. -/
theorem getElem?_outs (s : σ) (xs : List ι) (x : ι) (ys : List ι) :
    (M.outs s (xs ++ x :: ys))[xs.length]? = some (M.step (M.final s xs) x).2 := by
  rw [outs_append, List.getElem?_append_right (by simp), length_outs, Nat.sub_self]
  rfl

/-- Every output of a run is one step's. -/
theorem mem_outs {s : σ} {xs : List ι} {o : ο} (h : o ∈ M.outs s xs) :
    ∃ s', ∃ x ∈ xs, o = (M.step s' x).2 := by
  induction xs generalizing s with
  | nil => cases h
  | cons x xs ih =>
    rcases List.mem_cons.1 h with rfl | h
    · exact ⟨s, x, .head _, rfl⟩
    · obtain ⟨s', y, hy, ho⟩ := ih h
      exact ⟨s', y, .tail _ hy, ho⟩

/-- **Invariants**: what every step keeps holds at the end of a run, and what every step answers
under it holds of every output. -/
theorem invariant {I : σ → Prop} {P : ο → Prop} (xs : List ι)
    (hstep : ∀ s, ∀ x ∈ xs, I s → I (M.step s x).1 ∧ P (M.step s x).2) {s : σ} (h : I s) :
    I (M.final s xs) ∧ ∀ o ∈ M.outs s xs, P o := by
  induction xs generalizing s with
  | nil => exact ⟨h, fun o ho => (by cases ho)⟩
  | cons x xs ih =>
    obtain ⟨hnext, hout⟩ := hstep s x (.head _) h
    obtain ⟨hfinal, houts⟩ := ih (fun s y hy => hstep s y (.tail _ hy)) hnext
    refine ⟨hfinal, fun o ho => ?_⟩
    rcases List.mem_cons.1 ho with rfl | ho
    · exact hout
    · exact houts o ho

/-- **Simulation**: machines whose steps keep `R` and agree on what `g` and `g'` observe of the
outputs agree on what they observe of every run. -/
theorem outs_sim {N : Machine τ κ π} {R : σ → τ → Prop} {f : ι → κ} {g : ο → ω} {g' : π → ω}
    {xs : List ι}
    (hstep : ∀ s t, ∀ x ∈ xs, R s t → R (M.step s x).1 (N.step t (f x)).1 ∧
      g (M.step s x).2 = g' (N.step t (f x)).2)
    {s : σ} {t : τ} (h : R s t) :
    (M.outs s xs).map g = (N.outs t (xs.map f)).map g' := by
  induction xs generalizing s t with
  | nil => rfl
  | cons x xs ih =>
    obtain ⟨hR, hg⟩ := hstep s t x (.head _) h
    simp only [outs_cons, List.map_cons, hg]
    rw [ih (fun s t y hy => hstep s t y (.tail _ hy)) hR]

/-- **Simulation with chosen inputs**: if every step can be answered by a step of `N` on some input,
every run can be answered by a run of `N`. -/
theorem exists_sim {N : Machine τ κ π} {R : σ → τ → Prop} {g : ο → ω} {g' : π → ω}
    (hstep : ∀ s t x, R s t → ∃ y, R (M.step s x).1 (N.step t y).1 ∧
      g (M.step s x).2 = g' (N.step t y).2)
    {s : σ} {t : τ} (h : R s t) (xs : List ι) :
    ∃ ys, R (M.final s xs) (N.final t ys) ∧ (M.outs s xs).map g = (N.outs t ys).map g' := by
  induction xs generalizing s t with
  | nil => exact ⟨[], h, rfl⟩
  | cons x xs ih =>
    obtain ⟨y, hR, hg⟩ := hstep s t x h
    obtain ⟨ys, hfinal, houts⟩ := ih hR
    exact ⟨y :: ys, hfinal, by simp only [outs_cons, List.map_cons, hg, houts]⟩

end Machine
