import Mathlib.Data.List.Basic

/-!
# Interleavings of two lists

`Interleaving xs ys zs`: the list `zs` has the elements of `xs` and those of `ys` and no others, the
elements of each in their order. Interleavings of parts make up one of the whole
(`Interleaving.append`, `interleaving_flatMap`).
-/

inductive Interleaving {α : Type*} : List α → List α → List α → Prop
  | nil : Interleaving [] [] []
  | left {x : α} {xs ys zs : List α} : Interleaving xs ys zs → Interleaving (x :: xs) ys (x :: zs)
  | right {y : α} {xs ys zs : List α} : Interleaving xs ys zs → Interleaving xs (y :: ys) (y :: zs)

namespace Interleaving

variable {α β : Type*} {xs ys zs : List α}

theorem append {xs' ys' zs' : List α} (h : Interleaving xs ys zs) (h' : Interleaving xs' ys' zs') :
    Interleaving (xs ++ xs') (ys ++ ys') (zs ++ zs') := by
  induction h with
  | nil => exact h'
  | left _ ih => exact .left ih
  | right _ ih => exact .right ih

/-- One list behind the other. -/
theorem of_append (xs ys : List α) : Interleaving xs ys (xs ++ ys) := by
  induction xs with
  | nil =>
    induction ys with
    | nil => exact .nil
    | cons y ys ih => exact .right ih
  | cons x xs ih => exact .left ih

theorem map (f : α → β) (h : Interleaving xs ys zs) :
    Interleaving (xs.map f) (ys.map f) (zs.map f) := by
  induction h with
  | nil => exact .nil
  | left _ ih => exact .left ih
  | right _ ih => exact .right ih

end Interleaving

theorem interleaving_flatMap {α ι : Type*} {f g h : ι → List α} (l : List ι)
    (hparts : ∀ i ∈ l, Interleaving (f i) (g i) (h i)) :
    Interleaving (l.flatMap f) (l.flatMap g) (l.flatMap h) := by
  induction l with
  | nil => exact .nil
  | cons i l ih =>
    simp only [List.flatMap_cons]
    exact (hparts i (.head _)).append (ih fun j hj => hparts j (.tail _ hj))
