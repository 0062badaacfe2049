import Mathlib.Data.List.Basic
import Mathlib.Data.List.Forall2

/-!
# Lists of optional parts

Facts about lists some of whose parts are missing: a list read through `filterMap` changes by one
element when one of its places does (`filterMap_range_single`), parts that are kept or dropped whole
add up to all parts only if every part was kept or empty (`flatten_map_eq_iff`), and elements that
contribute nothing can be left out (`filter_flatMap_of_nil`, `flatMap_ite_singleton`). Elements that
carry their own positions are found by them (`filter_position`), parts in another order make up the
whole in another order (`flatMap_perm`), and words joined by a separator are split into the words
(`splitOnP_words`).
-/

namespace Lists

variable {α β γ : Type*}

/-- A list read by position, in any range that covers it. -/
theorem filterMap_eq_range (f : α → Option β) {l : List α} {k : Nat} (h : l.length ≤ k) :
    l.filterMap f = (List.range k).filterMap fun i => l[i]?.bind f := by
  induction l generalizing k with
  | nil =>
    refine (List.filterMap_eq_nil_iff.2 fun i _ => ?_).symm
    rfl
  | cons a l ih =>
    obtain ⟨k, rfl⟩ : ∃ j, k = j + 1 := ⟨k - 1, by simp at h; omega⟩
    rw [List.range_succ_eq_map, List.filterMap_cons, List.filterMap_cons, List.filterMap_map,
      ih (Nat.le_of_succ_le_succ h)]
    rfl

/-- The two readings agree but for one place, behind which there is nothing. -/
theorem filterMap_range_single {f g : Nat → Option α} {i k : Nat} (hi : i < k)
    (hsame : ∀ j, j ≠ i → f j = g j) (hnone : ∀ j, i ≤ j → g j = none) :
    (List.range k).filterMap f = (List.range k).filterMap g ++ (f i).toList := by
  induction k with
  | zero => omega
  | succ k ih =>
    rw [List.range_succ, List.filterMap_append, List.filterMap_append]
    rcases Nat.lt_or_ge i k with hlt | hge
    · have hk : f k = none := (hsame k (by omega)).trans (hnone k (by omega))
      rw [ih hlt, List.filterMap_cons_none hk, List.filterMap_cons_none (hnone k (by omega))]
      simp
    · obtain rfl : i = k := by omega
      have hbefore : (List.range i).filterMap f = (List.range i).filterMap g :=
        List.filterMap_congr fun j hj => hsame j (Nat.ne_of_lt (List.mem_range.1 hj))
      rw [hbefore, List.filterMap_cons_none (hnone i (Nat.le_refl i))]
      cases hfi : f i with
      | none => simp [hfi]
      | some a => simp [hfi]

/-- Of parts that are kept or dropped whole, all bytes are there only if all parts were kept or
empty. -/
theorem flatten_map_eq_iff {f g : α → List β} {l : List α}
    (h : ∀ a ∈ l, f a = g a ∨ f a = []) :
    (l.map f).flatten = (l.map g).flatten ↔ ∀ a ∈ l, f a = g a := by
  have hshort : ∀ l : List α, (∀ a ∈ l, f a = g a ∨ f a = []) →
      (l.map f).flatten.length ≤ (l.map g).flatten.length := by
    intro l hl
    induction l with
    | nil => exact Nat.le_refl _
    | cons a l ih =>
      have hrest := ih fun b hb => hl b (.tail _ hb)
      simp only [List.map_cons, List.flatten_cons, List.length_append]
      rcases hl a (.head _) with ha | ha
      · rw [ha]
        omega
      · rw [ha]
        exact Nat.le_trans (by simpa using hrest) (Nat.le_add_left _ _)
  constructor
  · intro heq
    induction l with
    | nil => exact fun a ha => (by cases ha)
    | cons a l ih =>
      rw [List.map_cons, List.map_cons, List.flatten_cons, List.flatten_cons] at heq
      have hl : ∀ b ∈ l, f b = g b ∨ f b = [] := fun b hb => h b (.tail _ hb)
      have hlen := hshort l hl
      have ha : f a = g a := by
        rcases h a (.head _) with ha | ha
        · exact ha
        · have hsum := congrArg List.length heq
          rw [List.length_append, List.length_append, ha, List.length_nil] at hsum
          rw [ha, List.eq_nil_of_length_eq_zero (l := g a) (by omega)]
      rw [ha] at heq
      intro b hb
      rcases List.mem_cons.1 hb with rfl | hb
      · exact ha
      · exact ih hl (List.append_cancel_left heq) b hb
  · intro heq
    rw [List.map_congr_left heq]

/-- Elements that contribute nothing can be left out. -/
theorem filter_flatMap_of_nil {p : α → Bool} {f : α → List β} {l : List α}
    (h : ∀ a ∈ l, p a = false → f a = []) : (l.filter p).flatMap f = l.flatMap f := by
  induction l with
  | nil => rfl
  | cons a l ih =>
    have hrest := ih fun b hb => h b (.tail _ hb)
    cases hp : p a with
    | true => rw [List.filter_cons_of_pos hp, List.flatMap_cons, List.flatMap_cons, hrest]
    | false =>
      rw [List.filter_cons_of_neg (by simp [hp]), List.flatMap_cons, h a (.head _) hp, hrest]
      rfl

theorem filter_flatMap (p : α → Bool) (f : α → List β) (l : List α) :
    (l.filter p).flatMap f = l.flatMap fun a => if p a then f a else [] := by
  have hkept : (l.filter p).flatMap f = (l.filter p).flatMap fun a => if p a then f a else [] :=
    List.flatMap_congr fun a ha => (if_pos (List.mem_filter.1 ha).2).symm
  rw [hkept]
  exact filter_flatMap_of_nil fun a _ ha => by simp [ha]

theorem flatMap_ite_singleton {p : α → Prop} [DecidablePred p] (f : α → β) (l : List α) :
    (l.flatMap fun a => if p a then [f a] else []) = (l.filter p).map f := by
  induction l with
  | nil => rfl
  | cons a l ih =>
    rw [List.flatMap_cons, ih]
    by_cases hp : p a
    · simp [hp]
    · simp [hp]

/-- Elements numbered by position: the one with a number is the one at the position. -/
theorem filter_position {number : α → Nat} {l : List α} {k : Nat}
    (h : ∀ i a, l[i]? = some a → number a = k + i) (n : Nat) :
    l.filter (fun a => number a = k + n) = l[n]?.toList := by
  induction l generalizing k n with
  | nil => rfl
  | cons a l ih =>
    have ha : number a = k := h 0 a rfl
    have hl : ∀ i b, l[i]? = some b → number b = k + 1 + i := fun i b hb => by
      rw [h (i + 1) b hb]
      omega
    cases n with
    | zero =>
      have hnone : l.filter (fun b => number b = k + 0) = [] := by
        refine List.filter_eq_nil_iff.2 fun b hb => ?_
        obtain ⟨i, hi⟩ := List.mem_iff_getElem?.1 hb
        have hnumber := hl i b hi
        simp only [decide_eq_true_eq]
        omega
      rw [List.filter_cons_of_pos (by simp [ha]), hnone]
      rfl
    | succ n =>
      have hshift : k + 1 + n = k + (n + 1) := by omega
      rw [List.filter_cons_of_neg (by simp [ha]), ← hshift, ih hl n]
      rfl

theorem flatMap_perm {R : α → γ → Prop} {f : α → List β} {g : γ → List β} {l : List α}
    {l' : List γ} (h : List.Forall₂ R l l') (hf : ∀ a b, R a b → (f a).Perm (g b)) :
    (l.flatMap f).Perm (l'.flatMap g) := by
  induction h with
  | nil => exact .refl _
  | cons hab _ ih => exact (hf _ _ hab).append ih

theorem forall_getElem?_cons {α : Type*} {p : Nat → α → Prop} {a : α} {as : List α} :
    (∀ i x, (a :: as)[i]? = some x → p i x) ↔ p 0 a ∧ ∀ i x, as[i]? = some x → p (i + 1) x := by
  constructor
  · exact fun h => ⟨h 0 a rfl, fun i x hx => h (i + 1) x hx⟩
  · rintro ⟨hfirst, hrest⟩ i x hx
    cases i with
    | zero =>
      obtain rfl := Option.some.inj hx
      exact hfirst
    | succ i => exact hrest i x hx

/-- Words without separators, and a separator between them, are split into the words. -/
theorem splitOnP_words {p : α → Bool} {sep : α} (hsep : p sep = true) {word : List α}
    {words : List (List α)} (h : ∀ w ∈ word :: words, ∀ c ∈ w, p c = false) :
    (word ++ words.flatMap (sep :: ·)).splitOnP p = word :: words := by
  induction words generalizing word with
  | nil => simpa using List.splitOnP_eq_singleton (h word (by simp))
  | cons next rest ih =>
    rw [List.flatMap_cons, List.cons_append,
      List.splitOnP_append_cons_of_forall_mem (h word (by simp)) sep hsep,
      ih fun w hw => h w (List.mem_cons_of_mem word hw)]

end Lists
