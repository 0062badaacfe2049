import Mathlib.Data.List.AList
import Mathlib.Data.List.Induction

/-!
# Dictionaries filled from a list

`group key l` maps each key to the elements of `l` with that key, in order, and has no other keys
(`lookup_group`); `increment` counts (`count_increment`). `tally` is a table of counts, with a row for
each key under an id of its own, and `bump` keeps it (`bump_tally`).
-/

namespace Grouping

variable {α κ : Type*} [DecidableEq κ]

/-- One more element under the key. -/
def append (d : AList fun _ : κ => List α) (k : κ) (a : α) : AList fun _ : κ => List α :=
  d.insert k ((d.lookup k).getD [] ++ [a])

def group (key : α → κ) (l : List α) : AList fun _ : κ => List α :=
  l.foldl (fun d a => append d (key a) a) ∅

/-- The count of a key; a key that is not there has none. -/
def count (d : AList fun _ : κ => Nat) (k : κ) : Nat := (d.lookup k).getD 0

def increment (d : AList fun _ : κ => Nat) (k : κ) : AList fun _ : κ => Nat :=
  d.insert k (count d k + 1)

theorem count_increment (d : AList fun _ : κ => Nat) (k k' : κ) :
    count (increment d k) k' = count d k' + if k' = k then 1 else 0 := by
  unfold increment
  split
  · rename_i h
    subst h
    rw [count, AList.lookup_insert]
    rfl
  · rename_i h
    rw [count, AList.lookup_insert_ne h]
    rfl

/-! ## Tables of counts -/

section
variable {β ι : Type*} [BEq β] [LawfulBEq β] (id : β → ι)

/-- A row for each key, in the order of their first elements, with the number of its elements. -/
def tally (keys : List β) : List (ι × β × Nat) :=
  keys.eraseDups.map fun k => (id k, k, keys.count k)

/-- The row of the key gets another number; a key without a row gets one at the end. -/
def bump [DecidableEq ι] (rows : List (ι × β × Nat)) (k : β) (n : Nat) : List (ι × β × Nat) :=
  if id k ∈ rows.map (·.1) then rows.map fun row => if row.1 = id k then (id k, k, n) else row
  else rows ++ [(id k, k, n)]

variable {id}

theorem mem_tally (hid : Function.Injective id) {keys : List β} {k : β} :
    id k ∈ (tally id keys).map (·.1) ↔ k ∈ keys := by
  rw [tally, List.map_map, List.mem_map]
  constructor
  · rintro ⟨k', hk', heq⟩
    rw [← hid heq]
    exact List.mem_eraseDups.1 hk'
  · exact fun h => ⟨k, List.mem_eraseDups.2 h, rfl⟩

theorem mem_tally_row (hid : Function.Injective id) {keys : List β} {k : β} {n : Nat} :
    (id k, k, n) ∈ tally id keys ↔ n = keys.count k ∧ 0 < n := by
  rw [tally, List.mem_map]
  constructor
  · rintro ⟨k', hk', heq⟩
    obtain ⟨hsame, hn⟩ := Prod.mk.inj heq
    rw [← hid hsame]
    obtain ⟨-, rfl⟩ := Prod.mk.inj hn
    exact ⟨rfl, List.count_pos_iff.2 (List.mem_eraseDups.1 hk')⟩
  · rintro ⟨rfl, hpos⟩
    exact ⟨k, List.mem_eraseDups.2 (List.count_pos_iff.1 hpos), rfl⟩

theorem nodup_eraseDups (keys : List β) : keys.eraseDups.Nodup := by
  induction keys using List.reverseRecOn with
  | nil => exact List.nodup_nil
  | append_singleton keys k ih =>
    rw [List.eraseDups_append]
    by_cases hmem : k ∈ keys
    · simpa [List.removeAll, hmem] using ih
    · have hone : ([k] : List β).removeAll keys = [k] := by simp [List.removeAll, hmem]
      rw [hone, List.nodup_append]
      refine ⟨ih, by simp [List.eraseDups_cons], fun a ha b hb hab => hmem ?_⟩
      obtain rfl : b = k := by simpa using hb
      rw [← hab]
      exact List.mem_eraseDups.1 ha

/-- No two rows share an id. -/
theorem nodup_tally (hid : Function.Injective id) (keys : List β) :
    ((tally id keys).map (·.1)).Nodup := by
  rw [tally, List.map_map]
  exact (nodup_eraseDups keys).map hid

/-- **One more element** changes the row of its key, or adds it. -/
theorem bump_tally [DecidableEq ι] (hid : Function.Injective id) (keys : List β) (k : β) :
    bump id (tally id keys) k (keys.count k + 1) = tally id (keys ++ [k]) := by
  have hcount (k' : β) : (keys ++ [k]).count k' = keys.count k' + if k == k' then 1 else 0 := by
    rw [List.count_append, List.count_singleton]
  unfold bump
  split
  · rename_i hold
    have hmem := (mem_tally hid).1 hold
    have hnone : ([k] : List β).removeAll keys = [] := by simp [List.removeAll, hmem]
    rw [tally, tally, List.eraseDups_append, hnone, List.eraseDups_nil, List.append_nil, List.map_map]
    refine List.map_congr_left fun k' _ => ?_
    rw [hcount]
    by_cases hk : k = k'
    · subst hk
      simp
    · have hne : id k' ≠ id k := fun h => hk (hid h).symm
      simp [hk, hne]
  · rename_i hnew
    have hmem : k ∉ keys := fun h => hnew ((mem_tally hid).2 h)
    have hone : ([k] : List β).removeAll keys = [k] := by simp [List.removeAll, hmem]
    rw [tally, tally, List.eraseDups_append, hone, List.map_append]
    congr 1
    · refine List.map_congr_left fun k' hk' => ?_
      have hne : k ≠ k' := fun h => hmem (h ▸ List.mem_eraseDups.1 hk')
      rw [hcount, if_neg (by simpa using hne), Nat.add_zero]
    · simp [hcount, List.eraseDups_cons]

end

end Grouping
