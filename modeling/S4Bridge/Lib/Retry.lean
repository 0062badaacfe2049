import Mathlib.Data.List.Basic

/-!
# Loops that try again

A loop whose turns each end in one of two ways: the loop goes on in a new state (`again`), or it is
left (`exit`). `run` takes what its turns meet as a list; a list that runs out leaves it unfinished.
`Agains` says that every turn of a list was made and went on. A loop is left in the first turn that
leaves it (`run_eq_some_iff`), and what each turn keeps holds where it is left (`run_induct`). Where
a turn is made up of acts and is left by the first that fails, so is the loop (`run_upTo`).
-/

namespace Retry

inductive Turn (σ ε : Type*)
  | again (s : σ)
  | exit (s : σ) (how : ε)

variable {σ α ε : Type*} (turn : σ → α → Turn σ ε)

def run : σ → List α → σ × Option ε
  | s, [] => (s, none)
  | s, x :: xs =>
    match turn s x with
    | .again s' => run s' xs
    | .exit s' how => (s', some how)

/-- The turns `xs` take the loop from `s` to `s'`. -/
inductive Agains : σ → List α → σ → Prop
  | nil (s : σ) : Agains s [] s
  | cons {s s' s'' : σ} {x : α} {xs : List α} :
      turn s x = .again s' → Agains s' xs s'' → Agains s (x :: xs) s''

variable {turn} {s s' : σ} {xs : List α} {how : ε}

theorem run_eq_none_iff : run turn s xs = (s', none) ↔ Agains turn s xs s' := by
  induction xs generalizing s with
  | nil =>
    constructor
    · intro h
      rw [run, Prod.mk.injEq] at h
      exact h.1 ▸ .nil s
    · rintro ⟨⟩
      rfl
  | cons x xs ih =>
    rw [run]
    constructor
    · intro h
      cases hturn : turn s x with
      | again s1 =>
        rw [hturn] at h
        exact .cons hturn (ih.1 h)
      | exit s1 e =>
        rw [hturn, Prod.mk.injEq] at h
        cases h.2
    · rintro (_ | ⟨hturn, hrest⟩)
      rw [hturn]
      exact ih.2 hrest

/-- **The loop is left in the first turn that leaves it.** -/
theorem run_eq_some_iff : run turn s xs = (s', some how) ↔
    ∃ before x after s1, xs = before ++ x :: after ∧ Agains turn s before s1 ∧
      turn s1 x = .exit s' how := by
  induction xs generalizing s with
  | nil =>
    constructor
    · intro h
      rw [run, Prod.mk.injEq] at h
      cases h.2
    · rintro ⟨before, x, after, s1, h, -, -⟩
      cases before <;> cases h
  | cons x xs ih =>
    rw [run]
    constructor
    · intro h
      cases hturn : turn s x with
      | again s1 =>
        rw [hturn] at h
        obtain ⟨before, y, after, s2, rfl, hbefore, hexit⟩ := ih.1 h
        exact ⟨x :: before, y, after, s2, rfl, .cons hturn hbefore, hexit⟩
      | exit s1 e =>
        rw [hturn, Prod.mk.injEq] at h
        obtain ⟨rfl, he⟩ := h
        obtain rfl := Option.some.inj he
        exact ⟨[], x, xs, s, rfl, .nil s, hturn⟩
    · rintro ⟨before, y, after, s2, hxs, hbefore, hexit⟩
      cases hbefore with
      | nil =>
        obtain ⟨rfl, rfl⟩ := List.cons.inj hxs
        rw [hexit]
      | cons hturn hrest =>
        obtain ⟨rfl, rfl⟩ := List.cons.inj hxs
        rw [hturn]
        exact ih.2 ⟨_, y, after, s2, rfl, hrest, hexit⟩

/-- `Q` holds where the loop goes on, `R` where it is left. -/
def Turn.Ends (Q : σ → Prop) (R : σ → Option ε → Prop) : Turn σ ε → Prop
  | .again s => Q s
  | .exit s how => R s (some how)

/-- What each turn keeps holds where the loop is left. -/
theorem run_induct {Q : σ → Prop} {R : σ → Option ε → Prop} (hnone : ∀ s, Q s → R s none)
    (hturn : ∀ s x, Q s → (turn s x).Ends Q R) (h : Q s) :
    R (run turn s xs).1 (run turn s xs).2 := by
  induction xs generalizing s with
  | nil => exact hnone s h
  | cons x xs ih =>
    have hends := hturn s x h
    rw [run]
    cases ht : turn s x with
    | again s1 =>
      rw [ht] at hends
      exact ih hends
    | exit s1 e =>
      rw [ht] at hends
      exact hends

/-! ## Acts -/

section
variable {β : Type*} {ok : β → Bool} {as bs : List β}

/-- The list up to its first element that fails, with that one. -/
def upTo (ok : β → Bool) : List β → List β
  | [] => []
  | b :: bs => b :: if ok b then upTo ok bs else []

theorem upTo_append (h : as.find? (!ok ·) = none) : upTo ok (as ++ bs) = as ++ upTo ok bs := by
  induction as with
  | nil => rfl
  | cons a as ih =>
    have hall := List.find?_eq_none.1 h
    have hok : ok a = true := by simpa using hall a (.head _)
    have hrest : as.find? (!ok ·) = none :=
      List.find?_eq_none.2 fun b hb => hall b (.tail _ hb)
    simp only [List.cons_append, upTo, hok, if_true, ih hrest]

theorem upTo_append_of_failed {b : β} (h : as.find? (!ok ·) = some b) :
    upTo ok (as ++ bs) = upTo ok as := by
  induction as with
  | nil => cases h
  | cons a as ih =>
    simp only [List.cons_append, upTo]
    cases hok : ok a with
    | false => simp
    | true =>
      rw [List.find?_cons_of_neg (by simp [hok])] at h
      rw [ih h]

theorem upTo_eq_self (h : as.find? (!ok ·) = none) : upTo ok as = as := by
  have happend := @upTo_append β ok as [] h
  rwa [List.append_nil, upTo, List.append_nil] at happend

end

/-- **A loop of acts** makes those of its turns up to the first that fails, which is how it is left.
`R` says that the acts lead from one state to the other, `E` what is thrown where an act fails. -/
theorem run_upTo {β : Type*} {acts : α → List β} {ok : β → Bool} {R : σ → List β → σ → Prop}
    {E : β → ε → Prop} {I : σ → Prop} (hnil : ∀ s, R s [] s)
    (htrans : ∀ s s' s'' as bs, R s as s' → R s' bs s'' → R s (as ++ bs) s'')
    (hagain : ∀ s x s', I s → turn s x = .again s' →
      I s' ∧ R s (acts x) s' ∧ (acts x).find? (!ok ·) = none)
    (hexit : ∀ s x s' how, I s → turn s x = .exit s' how → R s (upTo ok (acts x)) s' ∧
      ∃ b, (acts x).find? (!ok ·) = some b ∧ E b how)
    (hs : I s) :
    R s (upTo ok (xs.flatMap acts)) (run turn s xs).1 ∧
      ((xs.flatMap acts).find? (!ok ·) = none ∧ (run turn s xs).2 = none ∧ I (run turn s xs).1 ∨
        ∃ b how, (xs.flatMap acts).find? (!ok ·) = some b ∧ (run turn s xs).2 = some how ∧
          E b how) := by
  induction xs generalizing s with
  | nil => exact ⟨hnil s, .inl ⟨rfl, rfl, hs⟩⟩
  | cons x xs ih =>
    rw [run, List.flatMap_cons, List.find?_append]
    cases hturn : turn s x with
    | again s1 =>
      obtain ⟨hI, hR, hnone⟩ := hagain s x s1 hs hturn
      obtain ⟨hrest, hends⟩ := ih hI
      rw [upTo_append hnone, hnone]
      exact ⟨htrans _ _ _ _ _ hR hrest, hends⟩
    | exit s1 how =>
      obtain ⟨hR, b, hsome, hE⟩ := hexit s x s1 how hs hturn
      rw [upTo_append_of_failed hsome, hsome]
      exact ⟨hR, .inr ⟨b, how, rfl, rfl, hE⟩⟩

end Retry
