import Mathlib.Data.Nat.Basic
import Mathlib.Order.Basic

/-!
# Logs that forget in blocks

A log takes rows at its front. When it holds more than `limit` rows, all but the newest `keep` are
dropped at once (`push`). How many of `n` rows it still holds depends on `n` alone and is periodic from
the first time it forgets (`retained`), and these are the newest (`push_take`).
-/

namespace Retention

variable {α : Type*} {limit keep n : Nat}

def push (limit keep : Nat) (row : α) (log : List α) : List α :=
  let rows := row :: log
  if rows.length > limit then rows.take keep else rows

/-- How many of `n` rows are held. -/
def retained (limit keep n : Nat) : Nat :=
  if n ≤ limit then n else keep + (n - limit - 1) % (limit + 1 - keep)

theorem retained_le (h : keep ≤ limit) : retained limit keep n ≤ limit := by
  unfold retained
  split
  · assumption
  · have hmod : (n - limit - 1) % (limit + 1 - keep) < limit + 1 - keep :=
      Nat.mod_lt _ (by omega)
    omega

theorem retained_le_self (h : keep ≤ limit) : retained limit keep n ≤ n := by
  by_cases hn : n ≤ limit
  · rw [retained, if_pos hn]
  · exact (retained_le h).trans (by omega)

theorem succ_mod {a p : Nat} (hp : 0 < p) :
    (a + 1) % p = if a % p + 1 = p then 0 else a % p + 1 := by
  have hlt : a % p < p := Nat.mod_lt a hp
  have hsucc : (a + 1) % p = (a % p + 1) % p := by rw [Nat.mod_add_mod]
  rw [hsucc]
  split
  · rename_i heq
    rw [heq, Nat.mod_self]
  · exact Nat.mod_eq_of_lt (by omega)

theorem retained_succ (h : keep ≤ limit) : retained limit keep (n + 1) =
    if retained limit keep n = limit then keep else retained limit keep n + 1 := by
  rcases Nat.lt_trichotomy n limit with hn | rfl | hn
  · rw [retained, if_pos (Nat.succ_le_of_lt hn), retained, if_pos hn.le, if_neg hn.ne]
  · -- the first row too many
    have hzero : n + 1 - n - 1 = 0 := by omega
    rw [retained, if_neg (Nat.not_succ_le_self n), hzero, Nat.zero_mod, retained,
      if_pos (le_refl n), if_pos rfl]
    rfl
  · have hperiod : 0 < limit + 1 - keep := by omega
    have hnow : retained limit keep n = keep + (n - limit - 1) % (limit + 1 - keep) :=
      if_neg (by omega)
    have hnext : retained limit keep (n + 1) =
        keep + (n - limit - 1 + 1) % (limit + 1 - keep) := by
      rw [retained, if_neg (by omega)]
      congr 2
      omega
    have hlt : (n - limit - 1) % (limit + 1 - keep) < limit + 1 - keep := Nat.mod_lt _ hperiod
    rw [hnext, hnow, succ_mod hperiod]
    generalize (n - limit - 1) % (limit + 1 - keep) = r at hlt
    split <;> split <;> omega

/-- **What a log holds**: of the rows pushed into it the newest, as many as their number says. -/
theorem push_take (h : keep ≤ limit) (row : α) (rows : List α) :
    push limit keep row (rows.take (retained limit keep rows.length)) =
      (row :: rows).take (retained limit keep (rows.length + 1)) := by
  have hle := retained_le (n := rows.length) h
  have hlength : (rows.take (retained limit keep rows.length)).length =
      retained limit keep rows.length := by
    rw [List.length_take, Nat.min_eq_left (retained_le_self h)]
  rw [retained_succ h]
  unfold push
  simp only [List.length_cons, hlength]
  split
  · rename_i hmany
    rw [if_pos (by omega), ← List.take_succ_cons, List.take_take, Nat.min_eq_left (by omega)]
  · rename_i hfew
    rw [if_neg (by omega), List.take_succ_cons]

end Retention
