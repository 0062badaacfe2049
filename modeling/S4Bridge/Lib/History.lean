import Mathlib.Data.List.Basic

/-!
# States with their past

A `History` is a state together with the states it has gone through, so that a property can be
stated of every moment of a program and not only of its end. `Holds P Q` is the invariant rule: `Q`
holds now, it implies `P`, and `P` has held all along; it is kept by every step that keeps `Q`.
-/

/-- A state and the states before it, the latest first. -/
structure History (σ : Type*) where
  now : σ
  past : List σ

namespace History

variable {σ τ ι : Type*} {P Q : σ → Prop} {h : History σ}

def start (s : σ) : History σ := ⟨s, []⟩

/-- The state moves on. -/
def step (h : History σ) (f : σ → σ) : History σ := ⟨f h.now, h.now :: h.past⟩

@[simp] theorem step_now (f : σ → σ) : (h.step f).now = f h.now := rfl

/-- `P` holds now and at every moment before. -/
def Always (P : σ → Prop) (h : History σ) : Prop := P h.now ∧ ∀ s ∈ h.past, P s

theorem Always.step (hP : h.Always P) {f : σ → σ} (hf : P (f h.now)) : (h.step f).Always P := by
  refine ⟨hf, fun s hs => ?_⟩
  rcases List.mem_cons.1 hs with rfl | hs
  · exact hP.1
  · exact hP.2 s hs

/-- The states in order, the present one last. -/
def moments (h : History σ) : List σ := (h.now :: h.past).reverse

theorem Always.of_mem_moments (hP : h.Always P) {s : σ} (hs : s ∈ h.moments) : P s := by
  rcases List.mem_cons.1 (List.mem_reverse.1 hs) with rfl | hs
  · exact hP.1
  · exact hP.2 s hs

/-- `P` has held all along, through the invariant `Q` that holds now. -/
structure Holds (P Q : σ → Prop) (h : History σ) : Prop where
  always : h.Always P
  now : Q h.now

theorem Holds.step (hh : h.Holds P Q) {R : σ → Prop} (hRP : ∀ s, R s → P s) {f : σ → σ}
    (hf : R (f h.now)) : (h.step f).Holds P R :=
  ⟨hh.always.step (hRP _ hf), hf⟩

/-- What a part of the state goes through, as the whole does; `f` puts the part into the whole. -/
def lift (h : History σ) (f : τ → σ) (u : History τ) : History σ := ⟨f u.now, u.past.map f ++ h.past⟩

@[simp] theorem lift_now (f : τ → σ) (u : History τ) : (h.lift f u).now = f u.now := rfl

theorem Holds.lift (hh : h.Holds P Q) {f : τ → σ} (hP : ∀ s, P (f s)) {u : History τ}
    (hQ : Q (f u.now)) : (h.lift f u).Holds P Q := by
  refine ⟨⟨hP _, fun s hs => ?_⟩, hQ⟩
  rcases List.mem_append.1 hs with hs | hs
  · obtain ⟨s, -, rfl⟩ := List.mem_map.1 hs
    exact hP s
  · exact hh.always.2 s hs

/-- Steps taken one after the other. -/
def steps (h : History σ) (f : σ → ι → σ) (xs : List ι) : History σ :=
  xs.foldl (fun h x => h.step (f · x)) h

theorem steps_now (f : σ → ι → σ) (xs : List ι) : (h.steps f xs).now = xs.foldl f h.now := by
  induction xs generalizing h with
  | nil => rfl
  | cons x xs ih => exact ih

theorem Holds.steps (hh : h.Holds P Q) (hQP : ∀ s, Q s → P s) {f : σ → ι → σ}
    (hf : ∀ s x, Q s → Q (f s x)) (xs : List ι) : (h.steps f xs).Holds P Q := by
  induction xs generalizing h with
  | nil => exact hh
  | cons x xs ih => exact ih (hh.step hQP (hf _ x hh.now))

end History
