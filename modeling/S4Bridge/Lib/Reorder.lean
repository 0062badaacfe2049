import Mathlib.Data.List.Perm.Basic

/-!
# Actions in another order

Actions change a state one after the other, and those with different keys commute. Then any order in
which actions with the same key keep theirs leaves the same state (`foldl_reordered`). Where an action
also overwrites what an earlier one with its key did, the last action of each key is all that counts
(`foldl_lastOfEach`). Both take the first action with a key out of its place, past actions that it
commutes with.
-/

namespace Reorder

variable {α κ σ : Type*} {key : α → κ} {f : σ → α → σ} {as bs : List α}

/-- Actions with different keys commute. -/
def Independent (key : α → κ) (f : σ → α → σ) (as : List α) : Prop :=
  ∀ a ∈ as, ∀ b ∈ as, key a ≠ key b → ∀ s, f (f s a) b = f (f s b) a

/-- An action leaves nothing of an earlier one with its key. -/
def Overwriting (key : α → κ) (f : σ → α → σ) (as : List α) : Prop :=
  ∀ a ∈ as, ∀ b ∈ as, key a = key b → ∀ s, f (f s a) b = f s b

theorem Independent.subset (h : Independent key f as) (hsub : bs ⊆ as) : Independent key f bs :=
  fun b hb c hc => h b (hsub hb) c (hsub hc)

theorem Overwriting.subset (h : Overwriting key f as) (hsub : bs ⊆ as) : Overwriting key f bs :=
  fun b hb c hc => h b (hsub hb) c (hsub hc)

/-- An action goes past those that it commutes with. -/
theorem foldl_past {a : α} (h : ∀ b ∈ bs, ∀ s, f (f s a) b = f (f s b) a) (s : σ) :
    bs.foldl f (f s a) = f (bs.foldl f s) a := by
  induction bs generalizing s with
  | nil => rfl
  | cons b bs ih =>
    rw [List.foldl_cons, List.foldl_cons, h b (by simp) s, ih fun c hc => h c (.tail b hc)]

variable [DecidableEq κ]

/-- The same elements in another order, in which those with the same key keep theirs. -/
structure Reordered (key : α → κ) (as bs : List α) : Prop where
  perm : as.Perm bs
  order : ∀ k, as.filter (key · = k) = bs.filter (key · = k)

/-- Of the elements with the same key, the last. -/
def lastOfEach (key : α → κ) : List α → List α
  | [] => []
  | a :: as => if as.any (key · = key a) then lastOfEach key as else a :: lastOfEach key as

theorem lastOfEach_subset (key : α → κ) (as : List α) : lastOfEach key as ⊆ as := by
  induction as with
  | nil => exact List.Subset.refl _
  | cons a as ih =>
    rw [lastOfEach]
    split
    · exact List.subset_cons_of_subset a ih
    · exact List.cons_subset_cons a ih

/-- The first action with a key, and those before it, with other keys. -/
theorem foldl_first (h : Independent key f as) {a : α} {rest : List α}
    (ha : as.filter (key · = key a) = a :: rest) :
    ∃ before behind, as = before ++ a :: behind ∧ (∀ b ∈ before, key b ≠ key a) ∧
      behind.filter (key · = key a) = rest ∧
      ∀ s, as.foldl f s = (before ++ behind).foldl f (f s a) := by
  obtain ⟨before, behind, rfl, hbefore, -, hbehind⟩ := List.filter_eq_cons_iff.1 ha
  have hother : ∀ b ∈ before, key b ≠ key a := fun b hb => by simpa using hbefore b hb
  refine ⟨before, behind, rfl, hother, hbehind, fun s => ?_⟩
  have hpast : ∀ b ∈ before, ∀ s, f (f s a) b = f (f s b) a := fun b hb =>
    h a (by simp) b (by simp [hb]) (hother b hb).symm
  rw [List.foldl_append, List.foldl_cons, List.foldl_append, foldl_past hpast]

/-- **Another order leaves the same state.** -/
theorem foldl_reordered (h : Independent key f bs) (hr : Reordered key as bs) (s : σ) :
    bs.foldl f s = as.foldl f s := by
  obtain ⟨-, horder⟩ := hr
  induction as generalizing bs s with
  | nil =>
    have hnil : bs = [] := List.eq_nil_iff_forall_not_mem.2 fun b hb => by
      have hmem : b ∈ bs.filter (key · = key b) := List.mem_filter.2 ⟨hb, by simp⟩
      rw [← horder] at hmem
      cases hmem
    rw [hnil]
  | cons a as ih =>
    have hfirst := (horder (key a)).symm
    rw [List.filter_cons_of_pos (by simp)] at hfirst
    obtain ⟨before, behind, rfl, hother, hbehind, hfold⟩ := foldl_first h hfirst
    have hsub : before ++ behind ⊆ before ++ a :: behind :=
      (List.Sublist.append_left (List.sublist_cons_self a behind) before).subset
    rw [hfold, List.foldl_cons]
    refine ih (h.subset hsub) (f s a) fun k => ?_
    by_cases hk : key a = k
    · subst hk
      have hnone : before.filter (key · = key a) = [] :=
        List.filter_eq_nil_iff.2 fun b hb => by simpa using hother b hb
      rw [List.filter_append, hnone, hbehind, List.nil_append]
    · have hk' := horder k
      rw [List.filter_cons_of_neg (by simpa using hk), List.filter_append,
        List.filter_cons_of_neg (by simpa using hk), ← List.filter_append] at hk'
      exact hk'

/-- **The last action of each key counts.** -/
theorem foldl_lastOfEach (h : Independent key f as) (hover : Overwriting key f as) (s : σ) :
    (lastOfEach key as).foldl f s = as.foldl f s := by
  induction as generalizing s with
  | nil => rfl
  | cons a as ih =>
    have hsub : as ⊆ a :: as := List.subset_cons_self a as
    have hrest := ih (h.subset hsub) (hover.subset hsub)
    rw [lastOfEach]
    split
    · rename_i hlater
      -- the next action with the key overwrites what this one does
      have hne : as.filter (key · = key a) ≠ [] := fun hnil => by
        rw [List.filter_eq_nil_iff] at hnil
        obtain ⟨b, hb, hkey⟩ := List.any_eq_true.1 hlater
        exact hnil b hb hkey
      obtain ⟨b, rest, hb⟩ := List.exists_cons_of_ne_nil hne
      have hmem : b ∈ as ∧ key b = key a := by
        have := List.mem_filter.1 (hb ▸ List.mem_cons_self : b ∈ as.filter (key · = key a))
        exact ⟨this.1, by simpa using this.2⟩
      rw [← hmem.2] at hb
      obtain ⟨before, behind, -, -, -, hfold⟩ := foldl_first (h.subset hsub) hb
      rw [hrest, List.foldl_cons, hfold, hfold,
        hover a (by simp) b (.tail a hmem.1) hmem.2.symm s]
    · rw [List.foldl_cons, List.foldl_cons, hrest]

end Reorder
