import Mathlib.Data.List.ReduceOption

/-!
# Observers of a list of events

An observer selects the events that concern it: `sel e` is the value event `e` writes for it, `none`
for an event that does not concern it. It keeps the last value written (`latest`) and can count
events since (`countSince`). Of events emitted by a loop over distinct indices, an observer that only
one index concerns sees that index's events (`filterMap_flatMap_nodup`).
-/

namespace Latest

variable {ε ε' ν : Type*}

/-- The value of the last event of `es` that writes one, `init` if none does. -/
def latest (sel : ε → Option ν) (init : ν) (es : List ε) : ν :=
  ((es.filterMap sel).getLast?).getD init

/-- How many events with `q` there are since the last one with `p`; `n` counts those before `es`. -/
def countSince (p q : ε → Bool) : Nat → List ε → Nat
  | n, [] => n
  | n, e :: es => countSince p q (if p e then 0 else if q e then n + 1 else n) es

variable {sel : ε → Option ν} {init : ν}

@[simp] theorem latest_nil : latest sel init [] = init := rfl

theorem latest_cons (e : ε) (es : List ε) :
    latest sel init (e :: es) = latest sel ((sel e).getD init) es := by
  unfold latest
  cases h : sel e with
  | none => rw [List.filterMap_cons_none h]; rfl
  | some v => rw [List.filterMap_cons_some h]; simp [List.getLast?_cons]

theorem latest_append (es es' : List ε) :
    latest sel init (es ++ es') = latest sel (latest sel init es) es' := by
  induction es generalizing init with
  | nil => rfl
  | cons e es ih => rw [List.cons_append, latest_cons, latest_cons, ih]

/-- Reading a list of lists event by event or list by list is the same. -/
theorem latest_flatten (ess : List (List ε)) :
    latest sel init ess.flatten = latest (fun es => (es.filterMap sel).getLast?) init ess := by
  induction ess generalizing init with
  | nil => rfl
  | cons es ess ih => rw [List.flatten_cons, latest_append, latest_cons, ih]; rfl

@[simp] theorem latest_map (f : ε' → ε) (es : List ε') :
    latest sel init (es.map f) = latest (sel ∘ f) init es := by
  unfold latest
  rw [List.filterMap_map]

/-- Where only one event concerns an observer, the order is of no account. -/
theorem latest_perm {es es' : List ε} (h : es.Perm es') (hone : (es.filterMap sel).length ≤ 1) :
    latest sel init es = latest sel init es' := by
  have hsel : (es.filterMap sel).Perm (es'.filterMap sel) := h.filterMap sel
  unfold latest
  match hes : es.filterMap sel with
  | [] => rw [hes] at hsel; rw [hsel.nil_eq]
  | [v] => rw [hes] at hsel; rw [hsel.singleton_eq]
  | _ :: _ :: _ => simp [hes] at hone

theorem countSince_congr {p p' q q' : ε → Bool} {n : Nat} {es : List ε}
    (h : ∀ e ∈ es, p e = p' e ∧ q e = q' e) : countSince p q n es = countSince p' q' n es := by
  induction es generalizing n with
  | nil => rfl
  | cons e es ih =>
    obtain ⟨hp, hq⟩ := h e (.head _)
    rw [countSince, countSince, hp, hq]
    exact ih fun e' he => h e' (.tail _ he)

theorem countSince_map (p q : ε → Bool) (f : ε' → ε) (n : Nat) (es : List ε') :
    countSince p q n (es.map f) = countSince (p ∘ f) (q ∘ f) n es := by
  induction es generalizing n with
  | nil => rfl
  | cons e es ih => simp only [List.map_cons, countSince, ih]; rfl

/-- Events that are one or none at a time. -/
theorem flatten_map_toList (f : ε' → ε) (os : List (Option ε')) :
    (os.map fun o => o.toList.map f).flatten = os.reduceOption.map f := by
  induction os with
  | nil => rfl
  | cons o os ih => cases o <;> simp [ih]

theorem flatten_toList (os : List (Option ε)) :
    (os.map Option.toList).flatten = os.reduceOption := by
  simpa using flatten_map_toList id os

/-! ## Events emitted by a loop -/

section
variable {ι : Type*} {f : ι → List ε} {i : ι}

theorem filterMap_flatMap_of_forall {l : List ι} (h : ∀ j ∈ l, (f j).filterMap sel = []) :
    (l.flatMap f).filterMap sel = [] := by
  rw [List.filterMap_flatMap]
  exact List.flatMap_eq_nil_iff.2 h

/-- An observer that only index `i` concerns sees the events of index `i`. -/
theorem filterMap_flatMap_nodup {l : List ι} (hl : l.Nodup) (hi : i ∈ l)
    (h : ∀ j ∈ l, j ≠ i → (f j).filterMap sel = []) :
    (l.flatMap f).filterMap sel = (f i).filterMap sel := by
  induction l with
  | nil => cases hi
  | cons k l ih =>
    obtain ⟨hk, hl⟩ := List.nodup_cons.1 hl
    rw [List.flatMap_cons, List.filterMap_append]
    rcases List.mem_cons.1 hi with rfl | hi
    · have hrest : (l.flatMap f).filterMap sel = [] :=
        filterMap_flatMap_of_forall fun j hj => h j (.tail _ hj) fun he => hk (he ▸ hj)
      rw [hrest, List.append_nil]
    · rw [h k (.head _) fun he => hk (he ▸ hi), List.nil_append]
      exact ih hl hi fun j hj => h j (.tail _ hj)

end

end Latest
