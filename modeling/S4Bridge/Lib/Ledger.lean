import Mathlib.Data.List.Basic

/-!
# Resources that are given back once

A ledger lists the resources a program has acquired, in order, each with how often it was released;
a resource is named by its position. `Settled held es` says that the program holds the resource
`held`, if any, and has released every other exactly once. Acquiring while nothing is held and
releasing what is held keep it, so the program has at most one such resource at a time. A `view` is a
property of all resources, in order; releasing one does not change it.
-/

namespace Ledger

variable {δ : Type*}

structure Entry (δ : Type*) where
  data : δ
  releases : Nat
  deriving DecidableEq, Repr

def acquire (es : List (Entry δ)) (data : δ) : List (Entry δ) := es ++ [⟨data, 0⟩]

def release (es : List (Entry δ)) (i : Nat) : List (Entry δ) :=
  es.modify i fun e => { e with releases := e.releases + 1 }

/-- The data of resource `i` changes. -/
def update (es : List (Entry δ)) (i : Nat) (f : δ → δ) : List (Entry δ) :=
  es.modify i fun e => { e with data := f e.data }

/-- The newest resource. -/
def newest (es : List (Entry δ)) : Option (Entry δ) := es.getLast?

/-- `held` is the newest resource and not released; all others are, exactly once. -/
structure Settled (held : Option Nat) (es : List (Entry δ)) : Prop where
  newest : ∀ i, held = some i → i + 1 = es.length
  releases : ∀ i e, es[i]? = some e → e.releases = if held = some i then 0 else 1

variable {es : List (Entry δ)} {held : Option Nat} {i : Nat}

theorem settled_nil : Settled none ([] : List (Entry δ)) :=
  ⟨fun _ h => (by cases h), fun i e h => (by simp at h)⟩

@[simp] theorem length_release : (release es i).length = es.length := List.length_modify ..

@[simp] theorem length_update {f : δ → δ} : (update es i f).length = es.length :=
  List.length_modify ..

theorem getElem?_acquire (data : δ) (j : Nat) :
    (acquire es data)[j]? = if j = es.length then some ⟨data, 0⟩ else es[j]? := by
  rcases Nat.lt_trichotomy j es.length with h | h | h
  · rw [acquire, List.getElem?_append_left h, if_neg (Nat.ne_of_lt h)]
  · rw [if_pos h, h, acquire, List.getElem?_concat_length]
  · rw [if_neg (Nat.ne_of_gt h), List.getElem?_eq_none (Nat.le_of_lt h), acquire,
      List.getElem?_eq_none (by rw [List.length_append]; exact h)]

theorem Settled.acquire (h : Settled none es) (data : δ) :
    Settled (some es.length) (acquire es data) := by
  refine ⟨fun i hi => ?_, fun i e he => ?_⟩
  · rw [← Option.some.inj hi]
    simp [Ledger.acquire]
  · rw [getElem?_acquire] at he
    split at he
    · rename_i hi
      rw [← Option.some.inj he, hi, if_pos rfl]
    · rename_i hi
      rw [h.releases i e he, if_neg (by simp), if_neg fun h => hi (Option.some.inj h).symm]

theorem Settled.release (h : Settled (some i) es) : Settled none (release es i) := by
  refine ⟨fun j hj => (by cases hj), fun j e he => ?_⟩
  rw [if_neg (by simp)]
  rw [Ledger.release, List.getElem?_modify] at he
  obtain ⟨e', he', rfl⟩ := Option.map_eq_some_iff.1 he
  have hrel := h.releases j e' he'
  by_cases hij : i = j
  · rw [if_pos (congrArg some hij)] at hrel
    simp [hij, hrel]
  · rw [if_neg fun h => hij (Option.some.inj h)] at hrel
    simp [hij, hrel]

theorem Settled.update (h : Settled held es) (i : Nat) (f : δ → δ) :
    Settled held (update es i f) := by
  refine ⟨fun j hj => (by rw [h.newest j hj, length_update]), fun j e he => ?_⟩
  rw [Ledger.update, List.getElem?_modify] at he
  obtain ⟨e', he', rfl⟩ := Option.map_eq_some_iff.1 he
  rw [← h.releases j e' he']
  by_cases hij : i = j <;> simp [hij]

/-! ## What is known of the resources -/

section
variable {β : Type*} (g : δ → β)

/-- A property of the resources, in order. -/
def view (es : List (Entry δ)) : List β := es.map fun e => g e.data

@[simp] theorem length_view : (view g es).length = es.length := List.length_map _

theorem view_acquire (data : δ) : view g (acquire es data) = view g es ++ [g data] := by
  simp [view, acquire]

/-- Where a change of a resource changes the property, it changes that of this resource. -/
theorem view_modify {f : Entry δ → Entry δ} {k : β → β} (h : ∀ e, g (f e).data = k (g e.data))
    (i : Nat) : view g (es.modify i f) = (view g es).modify i k := by
  refine List.ext_getElem? fun j => ?_
  rw [view, view, List.getElem?_map, List.getElem?_modify, List.getElem?_modify, List.getElem?_map]
  cases es[j]? with
  | none => rfl
  | some e => by_cases hij : i = j <;> simp [hij, h]

theorem view_release (i : Nat) : view g (release es i) = view g es := by
  have hsame : view g (release es i) = (view g es).modify i id := view_modify g (fun e => rfl) i
  rwa [List.modify_id] at hsame

theorem view_update {f : δ → δ} {k : β → β} (h : ∀ d, g (f d) = k (g d)) (i : Nat) :
    view g (update es i f) = (view g es).modify i k :=
  view_modify g (fun e => h e.data) i

end

/-! ## What it comes to -/

/-- Every resource was released exactly once. -/
def Returned (es : List (Entry δ)) : Prop := ∀ e ∈ es, e.releases = 1

/-- Every resource but the newest was released exactly once, and that one at most once. -/
structure Single (es : List (Entry δ)) : Prop where
  before : ∀ e ∈ es.dropLast, e.releases = 1
  once : ∀ e ∈ es, e.releases ≤ 1

theorem Settled.returned (h : Settled none es) : Returned es := by
  intro e he
  obtain ⟨i, hi⟩ := List.mem_iff_getElem?.1 he
  rw [h.releases i e hi, if_neg (by simp)]

theorem Settled.single (h : Settled held es) : Single es := by
  refine ⟨fun e he => ?_, fun e he => ?_⟩
  · obtain ⟨i, hi⟩ := List.mem_iff_getElem?.1 he
    obtain ⟨hlt, hget⟩ := List.getElem?_eq_some_iff.1 hi
    rw [List.length_dropLast] at hlt
    rw [List.getElem_dropLast] at hget
    have hi' : es[i]? = some e := List.getElem?_eq_some_iff.2 ⟨by omega, hget⟩
    have hne : held ≠ some i := fun hheld => by
      have := h.newest i hheld
      omega
    rw [h.releases i e hi', if_neg hne]
  · obtain ⟨i, hi⟩ := List.mem_iff_getElem?.1 he
    rw [h.releases i e hi]
    split
    · exact Nat.zero_le 1
    · exact Nat.le_refl 1

end Ledger
