import S4Bridge.Lib.Machine
import S4Bridge.Lib.Latest

/-!
# Change filters

Two ways of passing on a stream of samples only where it changes.

* A **delta filter** compares each sample with the previous *sample*, and passes it on when the pair
  is in `moved`. Whoever keeps the last sample passed on knows the current one exactly when
  `moved` misses no change (`latest_reports`); when `moved` misses changes of size at most `d`,
  the error grows by `d` with each change held back and is only bounded by `d` times their number
  (`gap_latest_le`). Reporting every change and nothing else, the filter passes on one sample for
  each change (`length_reports`) and never the same one twice in a row (`isChain_reports`).
* A **change publisher** compares each sample with the last one *published*, and an attempt to
  publish may fail. It publishes no sample twice in a row (`isChain_published`) and its state is
  the last sample published (`final_publisher`).
-/

open Latest

namespace DeltaFilter

variable {α : Type*} (moved : α → α → Bool)

/-- What the filter passes on; `none` as a sample is a sample that is missing. -/
def report : Option α → Option α → Option α
  | some a, some b => if moved a b then some b else none
  | _, _ => none

/-- The filter: its state is the previous sample. -/
def filter : Machine (Option α) (Option α) (Option α) := ⟨fun a b => (b, report moved a b)⟩

/-- What the filter passes on of the samples `xs` that follow `a`. -/
def reports (a : α) (xs : List α) : List (Option α) := (filter moved).outs (some a) (xs.map some)

@[simp] theorem report_some (a b : α) :
    report moved (some a) (some b) = if moved a b then some b else none := rfl

@[simp] theorem report_none_left (b : Option α) : report moved none b = none := by
  cases b <;> rfl

@[simp] theorem report_none_right (a : Option α) : report moved a none = none := by
  cases a <;> rfl

@[simp] theorem reports_nil (a : α) : reports moved a [] = [] := rfl

@[simp] theorem reports_cons (a b : α) (xs : List α) :
    reports moved a (b :: xs) = (if moved a b then some b else none) :: reports moved b xs := rfl

variable {moved}

/-- As many samples are passed on as there are neighbours in `moved`. -/
theorem countP_outs (a : Option α) (xs : List (Option α)) :
    ((filter moved).outs a xs).countP Option.isSome =
      ((a :: xs).zip xs).countP fun change => (report moved change.1 change.2).isSome := by
  induction xs generalizing a with
  | nil => rfl
  | cons x xs ih =>
    rw [Machine.outs_cons, List.zip_cons_cons, List.countP_cons, List.countP_cons]
    exact congrArg (· + if (report moved a x).isSome then 1 else 0) (ih x)

/-- A filter that misses no change: the last sample passed on is the current one. -/
theorem latest_reports (h : ∀ a b, moved a b = false → a = b) (a : α) (xs : List α) :
    latest id a (reports moved a xs) = xs.getLastD a := by
  induction xs generalizing a with
  | nil => rfl
  | cons b xs ih =>
    rw [reports_cons, latest_cons, List.getLastD_cons]
    cases hm : moved a b with
    | true => exact ih b
    | false => rw [h a b hm]; exact ih b

/-- A filter that misses changes of at most `d`: the last sample passed on is within `d` for each
change held back since. -/
theorem gap_latest_le [DecidableEq α] (gap : α → α → ℕ) {d : ℕ} (hself : ∀ a, gap a a = 0)
    (htri : ∀ a b c, gap a c ≤ gap a b + gap b c) (h : ∀ a b, moved a b = false → gap a b ≤ d)
    {k a : α} {n : ℕ} (hk : gap k a ≤ d * n) (xs : List α) :
    gap (latest id k (reports moved a xs)) (xs.getLastD a) ≤
      d * countSince (fun x => x.2.isSome) (fun x => decide (x.1.1 ≠ x.1.2)) n
        (((a :: xs).zip xs).zip (reports moved a xs)) := by
  induction xs generalizing k a n with
  | nil => exact hk
  | cons b xs ih =>
    rw [reports_cons, latest_cons, List.getLastD_cons, List.zip_cons_cons, List.zip_cons_cons,
      countSince]
    cases hm : moved a b with
    | true => exact ih (by simp [hself])
    | false =>
      refine ih ?_
      by_cases hab : a = b
      · subst hab
        simpa using hk
      · -- the error so far and the change held back now
        have hgap : gap k b ≤ d * (n + 1) := calc
          gap k b ≤ gap k a + gap a b := htri k a b
          _ ≤ d * n + d := Nat.add_le_add hk (h a b hm)
          _ = d * (n + 1) := (Nat.mul_succ d n).symm
        simpa [hab] using hgap

section Exact

variable [DecidableEq α]

/-- How often the stream `a :: xs` changes. -/
def changes : α → List α → ℕ
  | _, [] => 0
  | a, b :: xs => (if a = b then 0 else 1) + changes b xs

/-- A filter that passes on exactly the changes passes on as many samples as there are changes. -/
theorem length_reports (h : ∀ a b, moved a b = decide (a ≠ b)) (a : α) (xs : List α) :
    (reports moved a xs).reduceOption.length = changes a xs := by
  induction xs generalizing a with
  | nil => rfl
  | cons b xs ih =>
    rw [reports_cons, changes, h]
    by_cases hab : a = b
    · simp [hab, ih]
    · simp [hab, ih, Nat.add_comm]

/-- It passes on no sample twice in a row, and first one other than `a`. -/
theorem isChain_reports (h : ∀ a b, moved a b = decide (a ≠ b)) (a : α) (xs : List α) :
    (a :: (reports moved a xs).reduceOption).IsChain (· ≠ ·) := by
  induction xs generalizing a with
  | nil => simp
  | cons b xs ih =>
    rw [reports_cons, h]
    by_cases hab : a = b
    · simpa [hab] using ih b
    · simpa [hab] using ih b

/-- It passes on nothing as long as the stream stays at `a`. -/
theorem reports_eq_nil (h : ∀ a b, moved a b = decide (a ≠ b)) (a : α) (xs : List α) :
    (reports moved a xs).reduceOption = [] ↔ ∀ b ∈ xs, b = a := by
  induction xs generalizing a with
  | nil => simp
  | cons b xs ih =>
    rw [reports_cons, h]
    by_cases hab : a = b
    · simp [hab, ih]
    · simp [hab, Ne.symm hab]

/-- The last sample passed on is the current one, if the stream ever left `a`. -/
theorem getLast?_reports (h : ∀ a b, moved a b = decide (a ≠ b)) (a : α) (xs : List α) :
    (reports moved a xs).reduceOption.getLast? =
      if ∃ b ∈ xs, b ≠ a then some (xs.getLastD a) else none := by
  have hexact : ∀ a b, moved a b = false → a = b := fun a b hab => by simpa [h] using hab
  have hnil := reports_eq_nil h a xs
  have hlast := latest_reports hexact a xs
  split
  · rename_i hex
    obtain ⟨b, hb, hne⟩ := hex
    have hreports : (reports moved a xs).reduceOption ≠ [] := fun he => hne (hnil.1 he b hb)
    rw [← hlast, List.getLast?_eq_some_getLast hreports, latest,
      show List.filterMap id (reports moved a xs) = (reports moved a xs).reduceOption from rfl,
      List.getLast?_eq_some_getLast hreports, Option.getD_some]
  · rename_i hex
    push Not at hex
    rw [hnil.2 hex, List.getLast?_nil]

end Exact

end DeltaFilter

namespace ChangePublisher

variable {α : Type*} [DecidableEq α]

/-- The publisher: its state is the last sample published, its inputs the samples with whether an
attempt to publish succeeds. -/
def publisher : Machine (Option α) (α × Bool) (Option α) where
  step last x := if some x.1 ≠ last ∧ x.2 = true then (some x.1, some x.1) else (last, none)

theorem step_publisher (last : Option α) (x : α × Bool) :
    publisher.step last x =
      if some x.1 ≠ last ∧ x.2 = true then (some x.1, some x.1) else (last, none) := rfl

/-- The state is the last sample published. -/
theorem final_publisher (last : Option α) (xs : List (α × Bool)) :
    publisher.final last xs = (publisher.outs last xs).reduceOption.getLast?.or last := by
  induction xs generalizing last with
  | nil => rfl
  | cons x xs ih =>
    rw [Machine.final_cons, Machine.outs_cons, step_publisher]
    split
    · rw [ih, List.reduceOption_cons_of_some, List.getLast?_cons]
      cases (publisher.outs (some x.1) xs).reduceOption.getLast? <;> rfl
    · rw [ih, List.reduceOption_cons_of_none]

/-- No sample is published twice in a row. -/
theorem isChain_published (last : Option α) (xs : List (α × Bool)) :
    (last.toList ++ (publisher.outs last xs).reduceOption).IsChain (· ≠ ·) := by
  induction xs generalizing last with
  | nil => cases last <;> simp
  | cons x xs ih =>
    rw [Machine.outs_cons, step_publisher]
    split
    · rename_i h
      have := ih (some x.1)
      cases last with
      | none => simpa using this
      | some a =>
        have hne : a ≠ x.1 := fun he => h.1 (by rw [he])
        simpa [hne] using this
    · simpa using ih last

end ChangePublisher
