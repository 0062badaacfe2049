import S4Bridge.Lib.Machine

/-!
# Event pumps

Items are put into a queue at any time; a timer runs a loop of at most `batch` turns, each of which
takes an item and handles it, and the timer is set again only after the loop (`EventPump.turn`). A
handler that raises ends the loop and with it the pump. Between the loops the state also changes by
other calls.

* `alive_iff`: a pump is alive after a run if and only if every item it took could be handled.
* `handled_append_queue`: then it has handled the items in order, and the rest are in the queue.
* `run_rule`: what is kept by handling an item and by the other calls holds at the end of a run.
* `invariant_rule`: what is kept by the handler and the other calls holds after every run.
* `rearmed`: a loop sets the timer again, whatever is put into the queue meanwhile.
* `rounds_spec`: a number of undisturbed loops take so many batches from the queue.
-/

/-- What a call leaves: the state, and what it raised, if anything. -/
@[ext]
structure Effect (σ ε : Type*) where
  state : σ
  raised : Option ε

namespace Effect

variable {σ τ ε : Type*}

def ok (s : σ) : Effect σ ε := ⟨s, none⟩

def raise (s : σ) (e : ε) : Effect σ ε := ⟨s, some e⟩

/-- The next call, if nothing was raised. -/
def andThen (x : Effect σ ε) (f : σ → Effect σ ε) : Effect σ ε :=
  match x.raised with
  | none => f x.state
  | some _ => x

/-- A loop: the call for each element, until one raises. -/
def each {α : Type*} (f : α → σ → Effect σ ε) : List α → σ → Effect σ ε
  | [], s => .ok s
  | a :: as, s => (f a s).andThen (each f as)

/-- The effect on a part of a state is one on the state. -/
def lift (f : τ → σ) (x : Effect τ ε) : Effect σ ε := ⟨f x.state, x.raised⟩

/-- What a caller gets: what was raised, or the state. -/
def result (x : Effect σ ε) : Except ε σ :=
  match x.raised with
  | none => .ok x.state
  | some e => .error e

@[simp] theorem ok_state (s : σ) : (ok s : Effect σ ε).state = s := rfl

@[simp] theorem ok_raised (s : σ) : (ok s : Effect σ ε).raised = none := rfl

@[simp] theorem raise_state (s : σ) (e : ε) : (raise s e).state = s := rfl

@[simp] theorem raise_raised (s : σ) (e : ε) : (raise s e).raised = some e := rfl

@[simp] theorem lift_state (f : τ → σ) (x : Effect τ ε) : (x.lift f).state = f x.state := rfl

@[simp] theorem lift_raised (f : τ → σ) (x : Effect τ ε) : (x.lift f).raised = x.raised := rfl

@[simp] theorem ok_result (s : σ) : (ok s : Effect σ ε).result = .ok s := rfl

theorem result_of_none {x : Effect σ ε} (h : x.raised = none) : x.result = .ok x.state := by
  rw [result, h]

@[simp] theorem ok_andThen (s : σ) (f : σ → Effect σ ε) : (ok s).andThen f = f s := rfl

theorem andThen_of_none {x : Effect σ ε} (h : x.raised = none) (f : σ → Effect σ ε) :
    x.andThen f = f x.state := by
  rw [andThen, h]

theorem andThen_raised {x : Effect σ ε} {f : σ → Effect σ ε} :
    (x.andThen f).raised = none ↔ x.raised = none ∧ (f x.state).raised = none := by
  unfold andThen
  cases h : x.raised with
  | none => simp
  | some e => simp [h]

@[simp] theorem each_nil {α : Type*} (f : α → σ → Effect σ ε) (s : σ) : each f [] s = ok s := rfl

theorem each_cons {α : Type*} (f : α → σ → Effect σ ε) (a : α) (as : List α) (s : σ) :
    each f (a :: as) s = (f a s).andThen (each f as) := rfl

/-- **Loops**: what every call keeps holds after a loop, and what a call that raises leaves holds if it
raises. -/
theorem each_rule {α : Type*} {I J : σ → Prop} {f : α → σ → Effect σ ε} {as : List α}
    (hok : ∀ a ∈ as, ∀ s, I s → (f a s).raised = none → I (f a s).state)
    (hraise : ∀ a ∈ as, ∀ s, I s → (f a s).raised ≠ none → J (f a s).state) {s : σ} (hs : I s) :
    ((each f as s).raised = none → I (each f as s).state) ∧
      ((each f as s).raised ≠ none → J (each f as s).state) := by
  induction as generalizing s with
  | nil => exact ⟨fun _ => hs, fun h => absurd rfl h⟩
  | cons a as ih =>
    rw [each_cons]
    by_cases h : (f a s).raised = none
    · rw [andThen_of_none h]
      exact ih (fun b hb => hok b (.tail _ hb)) (fun b hb => hraise b (.tail _ hb))
        (hok a (.head _) s hs h)
    · have hsame : (f a s).andThen (each f as) = f a s := by
        unfold andThen
        split
        · rename_i hnone
          exact absurd hnone h
        · rfl
      rw [hsame]
      exact ⟨fun hnone => absurd hnone h, fun _ => hraise a (.head _) s hs h⟩

/-- What every call keeps, whether or not it raises. -/
theorem each_invariant {α : Type*} {I : σ → Prop} {f : α → σ → Effect σ ε} {as : List α}
    (h : ∀ a ∈ as, ∀ s, I s → I (f a s).state) {s : σ} (hs : I s) : I (each f as s).state := by
  obtain ⟨hok, hraise⟩ := each_rule (I := I) (J := I) (fun a ha s hs _ => h a ha s hs)
    (fun a ha s hs _ => h a ha s hs) hs
  by_cases hnone : (each f as s).raised = none
  · exact hok hnone
  · exact hraise hnone

/-- Loops whose calls do the same to related states, and raise the same. -/
theorem each_sim {α : Type*} {R : σ → τ → Prop} {f : α → σ → Effect σ ε} {g : α → τ → Effect τ ε}
    {as : List α}
    (h : ∀ a ∈ as, ∀ s t, R s t → R (f a s).state (g a t).state ∧ (f a s).raised = (g a t).raised)
    {s : σ} {t : τ} (hs : R s t) :
    R (each f as s).state (each g as t).state ∧ (each f as s).raised = (each g as t).raised := by
  induction as generalizing s t with
  | nil => exact ⟨hs, rfl⟩
  | cons a as ih =>
    obtain ⟨hstate, hraised⟩ := h a (.head _) s t hs
    rw [each_cons, each_cons, andThen, andThen, ← hraised]
    cases hf : (f a s).raised with
    | none => exact ih (fun b hb => h b (.tail _ hb)) hstate
    | some e => exact ⟨hstate, hraised⟩

end Effect

namespace Pump

inductive Phase
  /-- The timer is set. -/
  | armed
  /-- In a loop with this many turns left. -/
  | draining (left : Nat)
  | dead
  deriving DecidableEq, Repr

structure State (σ ι : Type*) where
  inner : σ
  queue : List ι
  phase : Phase

inductive Event (ι υ : Type*)
  | put (item : ι)
  /-- The timer fires. -/
  | fire
  /-- The loop takes a turn. -/
  | turn
  /-- Another call; there is none in the middle of a loop. -/
  | other (call : υ)

/-- A pump: how items are handled, what other calls do, how many items a loop takes at most. -/
structure EventPump (σ ι ε υ : Type*) where
  handle : σ → ι → Effect σ ε
  call : σ → υ → σ
  batch : Nat

variable {σ ι ε υ : Type*}

namespace EventPump

variable (P : EventPump σ ι ε υ)

/-- One turn of the loop, and the item it has handled. -/
def turn (s : State σ ι) : State σ ι × Option ι :=
  match s.phase with
  | .draining 0 => ({ s with phase := .armed }, none)
  | .draining (left + 1) =>
    match s.queue with
    | [] => ({ s with phase := .armed }, none)
    | item :: queue =>
      let result := P.handle s.inner item
      match result.raised with
      | none => (⟨result.state, queue, .draining left⟩, some item)
      | some _ => (⟨result.state, queue, .dead⟩, none)
  | _ => (s, none)

def step (s : State σ ι) : Event ι υ → State σ ι × Option ι
  | .put item => ({ s with queue := s.queue ++ [item] }, none)
  | .fire => if s.phase = .armed then ({ s with phase := .draining P.batch }, none) else (s, none)
  | .turn => P.turn s
  | .other call =>
    match s.phase with
    | .draining _ => (s, none)
    | _ => ({ s with inner := P.call s.inner call }, none)

def machine : Machine (State σ ι) (Event ι υ) (Option ι) := ⟨P.step⟩

/-- The state after a run. -/
def final (s : State σ ι) (events : List (Event ι υ)) : State σ ι := P.machine.final s events

/-- The items a run has handled, in order. -/
def handled (s : State σ ι) (events : List (Event ι υ)) : List ι :=
  (P.machine.outs s events).filterMap id

/-- One loop that nothing disturbs. -/
def round : List (Event ι υ) := .fire :: List.replicate (P.batch + 1) .turn

def rounds (k : Nat) : List (Event ι υ) := (List.replicate k P.round).flatten

end EventPump

/-- The items put into the queue. -/
def arrived (events : List (Event ι υ)) : List ι :=
  events.filterMap fun
    | .put item => some item
    | _ => none

def Event.isFire : Event ι υ → Bool
  | .fire => true
  | _ => false

def Event.isTurn : Event ι υ → Bool
  | .turn => true
  | _ => false

/-- The item the next turn takes. -/
def State.next (s : State σ ι) : Option ι :=
  match s.phase with
  | .draining (_ + 1) => s.queue.head?
  | _ => none

/-- Every item that is taken is good in the state it is taken in. -/
def EventPump.Calm (P : EventPump σ ι ε υ) (good : σ → ι → Prop) (s : State σ ι)
    (events : List (Event ι υ)) : Prop :=
  ∀ before after, events = before ++ .turn :: after → ∀ item,
    (P.final s before).next = some item → good (P.final s before).inner item

variable {P : EventPump σ ι ε υ} {s : State σ ι} {events : List (Event ι υ)}

@[simp] theorem final_nil : P.final s [] = s := rfl

@[simp] theorem final_cons (event : Event ι υ) :
    P.final s (event :: events) = P.final (P.step s event).1 events := rfl

theorem final_append (xs ys : List (Event ι υ)) :
    P.final s (xs ++ ys) = P.final (P.final s xs) ys := P.machine.final_append s xs ys

@[simp] theorem handled_nil : P.handled s [] = [] := rfl

theorem handled_cons (event : Event ι υ) :
    P.handled s (event :: events) =
      (P.step s event).2.toList ++ P.handled (P.step s event).1 events := by
  show ((P.step s event).2 :: P.machine.outs (P.step s event).1 events).filterMap id = _
  rw [List.filterMap_cons]
  generalize (P.step s event).2 = item?
  cases item? <;> rfl

/-! ## One step -/

/-- What a turn does. -/
theorem turn_cases (P : EventPump σ ι ε υ) (s : State σ ι) :
    (s.next = none ∧ (P.turn s).2 = none ∧ (P.turn s).1.inner = s.inner ∧
        (P.turn s).1.queue = s.queue ∧ ((P.turn s).1.phase = .dead ↔ s.phase = .dead)) ∨
      ∃ item queue left, s.next = some item ∧ s.queue = item :: queue ∧
        s.phase = .draining (left + 1) ∧
        (((P.handle s.inner item).raised = none ∧ P.turn s =
            (⟨(P.handle s.inner item).state, queue, .draining left⟩, some item)) ∨
          ((P.handle s.inner item).raised ≠ none ∧ P.turn s =
            (⟨(P.handle s.inner item).state, queue, .dead⟩, none))) := by
  obtain ⟨inner, queue, phase⟩ := s
  cases phase with
  | armed => exact .inl ⟨rfl, rfl, rfl, rfl, Iff.rfl⟩
  | dead => exact .inl ⟨rfl, rfl, rfl, rfl, Iff.rfl⟩
  | draining left =>
    cases left with
    | zero => exact .inl ⟨rfl, rfl, rfl, rfl, by simp [EventPump.turn]⟩
    | succ left =>
      cases queue with
      | nil => exact .inl ⟨rfl, rfl, rfl, rfl, by simp [EventPump.turn]⟩
      | cons item queue =>
        refine .inr ⟨item, queue, left, rfl, rfl, rfl, ?_⟩
        cases h : (P.handle inner item).raised with
        | none => exact .inl ⟨rfl, by simp [EventPump.turn, h]⟩
        | some e => exact .inr ⟨by simp, by simp [EventPump.turn, h]⟩

/-- The timer starts a loop, or does nothing. -/
theorem fire_spec (P : EventPump σ ι ε υ) (s : State σ ι) :
    (P.step s .fire).1.inner = s.inner ∧ (P.step s .fire).1.queue = s.queue ∧
      ((P.step s .fire).1.phase = .dead ↔ s.phase = .dead) ∧ (P.step s .fire).2 = none := by
  unfold EventPump.step
  simp only
  split
  · rename_i harmed
    exact ⟨rfl, rfl, by simp [harmed], rfl⟩
  · exact ⟨rfl, rfl, Iff.rfl, rfl⟩

/-- Another call goes to the state, or comes in a loop and is not made. -/
theorem other_spec (P : EventPump σ ι ε υ) (s : State σ ι) (call : υ) :
    ((P.step s (.other call)).1.inner = s.inner ∨
        (P.step s (.other call)).1.inner = P.call s.inner call) ∧
      (P.step s (.other call)).1.queue = s.queue ∧ (P.step s (.other call)).1.phase = s.phase ∧
        (P.step s (.other call)).2 = none := by
  unfold EventPump.step
  simp only
  split
  · exact ⟨.inl rfl, rfl, rfl, rfl⟩
  · exact ⟨.inr rfl, rfl, rfl, rfl⟩

/-- The dead stay dead. -/
theorem step_dead (h : s.phase = .dead) (event : Event ι υ) :
    (P.step s event).1.phase = .dead := by
  cases event with
  | put item => exact h
  | fire => exact (fire_spec P s).2.2.1.2 h
  | turn => simp [EventPump.step, EventPump.turn, h]
  | other call => exact (other_spec P s call).2.2.1.trans h

theorem final_dead (h : s.phase = .dead) (events : List (Event ι υ)) :
    (P.final s events).phase = .dead := by
  induction events generalizing s with
  | nil => exact h
  | cons event events ih => exact ih (step_dead h event)

theorem alive_of_final (h : (P.final s events).phase ≠ .dead) : s.phase ≠ .dead :=
  fun hdead => h (final_dead hdead events)

theorem step_alive_iff {good : σ → ι → Prop}
    (hgood : ∀ s item, (P.handle s item).raised = none ↔ good s item) (hs : s.phase ≠ .dead)
    (event : Event ι υ) : (P.step s event).1.phase ≠ .dead ↔
      (event = .turn → ∀ item, s.next = some item → good s.inner item) := by
  cases event with
  | put item => exact ⟨fun _ h => (by cases h), fun _ => hs⟩
  | fire => exact ⟨fun _ h => (by cases h), fun _ h => hs ((fire_spec P s).2.2.1.1 h)⟩
  | other call =>
    refine ⟨fun _ h => (by cases h), fun _ => ?_⟩
    rw [(other_spec P s call).2.2.1]
    exact hs
  | turn =>
    show (P.turn s).1.phase ≠ .dead ↔ _
    rcases turn_cases P s with ⟨hnext, -, -, -, hphase⟩ | ⟨item, queue, left, hnext, -, -, hturn⟩
    · rw [hnext]
      exact ⟨fun _ _ _ h => (by cases h), fun _ h => hs (hphase.1 h)⟩
    · have hone : (Event.turn = (Event.turn : Event ι υ) →
          ∀ x, s.next = some x → good s.inner x) ↔ (P.handle s.inner item).raised = none := by
        simp [hnext, hgood]
      rw [hone]
      rcases hturn with ⟨hnone, heq⟩ | ⟨hraised, heq⟩
      · rw [heq]
        exact ⟨fun _ => hnone, fun _ => Phase.noConfusion⟩
      · rw [heq]
        exact ⟨fun h => absurd rfl h, fun h => absurd h hraised⟩

theorem step_handled {event : Event ι υ} (h : (P.step s event).1.phase ≠ .dead) :
    (P.step s event).2.toList ++ (P.step s event).1.queue = s.queue ++ arrived [event] := by
  cases event with
  | put item => rfl
  | fire =>
    obtain ⟨-, hqueue, -, hout⟩ := fire_spec P s
    rw [hout, hqueue]
    exact (List.append_nil _).symm
  | other call =>
    obtain ⟨-, hqueue, -, hout⟩ := other_spec P s call
    rw [hout, hqueue]
    exact (List.append_nil _).symm
  | turn =>
    change (P.turn s).1.phase ≠ .dead at h
    show (P.turn s).2.toList ++ (P.turn s).1.queue = s.queue ++ []
    rw [List.append_nil]
    rcases turn_cases P s with ⟨-, hitem, -, hqueue, -⟩ |
      ⟨item, queue, left, -, hqueue, -, ⟨-, heq⟩ | ⟨-, heq⟩⟩
    · rw [hitem, hqueue]
      rfl
    · rw [heq, hqueue]
      rfl
    · rw [heq] at h
      exact absurd rfl h

/-! ## Runs -/

theorem calm_cons {good : σ → ι → Prop} {event : Event ι υ} :
    P.Calm good s (event :: events) ↔
      (event = .turn → ∀ item, s.next = some item → good s.inner item) ∧
        P.Calm good (P.step s event).1 events := by
  constructor
  · intro h
    refine ⟨fun hturn => ?_, fun before after hevents => ?_⟩
    · exact h [] events (by rw [hturn]; rfl)
    · exact h (event :: before) after (by rw [hevents]; rfl)
  · rintro ⟨hfirst, hrest⟩ before after hevents
    cases before with
    | nil =>
      obtain ⟨hturn, -⟩ := List.cons.inj hevents
      exact hfirst hturn
    | cons event' before =>
      obtain ⟨hhead, htail⟩ := List.cons.inj hevents
      rw [← hhead]
      exact hrest before after htail

/-- **The pump is alive** after a run if and only if every item it took could be handled. -/
theorem alive_iff {good : σ → ι → Prop}
    (hgood : ∀ s item, (P.handle s item).raised = none ↔ good s item) (hs : s.phase ≠ .dead) :
    (P.final s events).phase ≠ .dead ↔ P.Calm good s events := by
  induction events generalizing s with
  | nil => exact ⟨fun _ before after h => (by cases before <;> cases h), fun _ => hs⟩
  | cons event events ih =>
    rw [calm_cons, ← step_alive_iff hgood hs event, final_cons]
    constructor
    · intro h
      have hstep := alive_of_final h
      exact ⟨hstep, (ih hstep).1 h⟩
    · exact fun ⟨hstep, hcalm⟩ => (ih hstep).2 hcalm

theorem arrived_cons (event : Event ι υ) (events : List (Event ι υ)) :
    arrived (event :: events) = arrived [event] ++ arrived events := by
  cases event <;> rfl

/-- **In order, once each**: what a run has handled, and then the queue, is what was in the queue and
what was put into it. -/
theorem handled_append_queue (h : (P.final s events).phase ≠ .dead) :
    P.handled s events ++ (P.final s events).queue = s.queue ++ arrived events := by
  induction events generalizing s with
  | nil => simp [arrived]
  | cons event events ih =>
    rw [final_cons] at h
    have hrest : P.handled (P.step s event).1 events ++ (P.final (P.step s event).1 events).queue =
        (P.step s event).1.queue ++ arrived events := ih h
    rw [handled_cons, List.append_assoc, final_cons, hrest, ← List.append_assoc,
      step_handled (alive_of_final h), arrived_cons event events, List.append_assoc]

/-- **What holds of the state and the items handled so far**: kept by handling an item and by the other
calls, it is kept by a run. -/
theorem run_rule {I : σ → List ι → Prop}
    (hhandle : ∀ s items item, I s items → (P.handle s item).raised = none →
      I (P.handle s item).state (items ++ [item]))
    (hcall : ∀ s items call, I s items → I (P.call s call) items) {items : List ι}
    (hs : I s.inner items) (h : (P.final s events).phase ≠ .dead) :
    I (P.final s events).inner (items ++ P.handled s events) := by
  induction events generalizing s items with
  | nil => simpa using hs
  | cons event events ih =>
    rw [final_cons] at h
    have hstep := alive_of_final h
    rw [handled_cons, ← List.append_assoc, final_cons]
    refine ih ?_ h
    cases event with
    | put item => simpa [EventPump.step] using hs
    | fire =>
      obtain ⟨hinner, -, -, hout⟩ := fire_spec P s
      rw [hout, hinner]
      simpa using hs
    | other call =>
      obtain ⟨hinner, -, -, hout⟩ := other_spec P s call
      rw [hout]
      rcases hinner with hinner | hinner
      · rw [hinner]
        simpa using hs
      · rw [hinner]
        simpa using hcall _ _ call hs
    | turn =>
      change (P.turn s).1.phase ≠ .dead at hstep
      show I (P.turn s).1.inner (items ++ (P.turn s).2.toList)
      rcases turn_cases P s with ⟨-, hitem, hinner, -, -⟩ |
        ⟨item, queue, left, -, -, -, ⟨hnone, heq⟩ | ⟨-, heq⟩⟩
      · rw [hitem, hinner]
        simpa using hs
      · rw [heq]
        exact hhandle _ _ _ hs hnone
      · rw [heq] at hstep
        exact absurd rfl hstep

/-- What a turn of a live loop leaves of it. -/
theorem turn_phase {left : Nat} (hs : s.phase = .draining left)
    (h : (P.turn s).1.phase ≠ .dead) :
    (P.turn s).1.phase = .armed ∨ ∃ left', left = left' + 1 ∧ (P.turn s).1.phase = .draining left' := by
  obtain ⟨inner, queue, phase⟩ := s
  obtain rfl : phase = .draining left := hs
  cases left with
  | zero => exact .inl rfl
  | succ left =>
    rcases turn_cases P ⟨inner, queue, .draining (left + 1)⟩ with
      ⟨hnext, -⟩ | ⟨item, queue', left', -, -, hphase, ⟨-, heq⟩ | ⟨-, heq⟩⟩
    · cases queue with
      | nil => exact .inl rfl
      | cons item queue => cases hnext
    · obtain rfl : left = left' := Nat.succ.inj (Phase.draining.inj hphase)
      exact .inr ⟨left, rfl, congrArg (·.1.phase) heq⟩
    · exact absurd (congrArg (·.1.phase) heq) h

theorem stays_armed (hs : s.phase = .armed) (hfire : ∀ event ∈ events, event.isFire = false) :
    (P.final s events).phase = .armed := by
  induction events generalizing s with
  | nil => exact hs
  | cons event events ih =>
    have hstep : (P.step s event).1.phase = .armed := by
      cases event with
      | put item => exact hs
      | fire => cases hfire .fire (.head _)
      | turn => simp [EventPump.step, EventPump.turn, hs]
      | other call => exact (other_spec P s call).2.2.1.trans hs
    exact ih hstep fun e he => hfire e (.tail _ he)

/-- **The timer is set again** by a loop that lives, after at most one more turn than it has left. -/
theorem rearmed {left : Nat} (hs : s.phase = .draining left)
    (hfire : ∀ event ∈ events, event.isFire = false) (hturns : left < events.countP (·.isTurn))
    (h : (P.final s events).phase ≠ .dead) : (P.final s events).phase = .armed := by
  induction events generalizing s left with
  | nil => cases hturns
  | cons event events ih =>
    have hrest : ∀ e ∈ events, e.isFire = false := fun e he => hfire e (.tail _ he)
    rw [final_cons] at h ⊢
    cases event with
    | put item => exact ih hs hrest hturns h
    | fire => cases hfire .fire (.head _)
    | other call =>
      have hsame : (P.step s (.other call)).1 = s := by simp [EventPump.step, hs]
      rw [hsame] at h ⊢
      exact ih hs hrest hturns h
    | turn =>
      have hcount : (Event.turn :: events : List (Event ι υ)).countP (·.isTurn) =
          events.countP (·.isTurn) + 1 := List.countP_cons_of_pos rfl
      rcases turn_phase hs (alive_of_final h) with harmed | ⟨left', rfl, hleft⟩
      · exact stays_armed harmed hrest
      · exact ih hleft hrest (by omega) h

/-! ## Loops that nothing disturbs -/

theorem turns_armed (h : s.phase = .armed) (n : Nat) :
    P.final s (List.replicate n .turn) = s := by
  have hturn : (P.step s .turn).1 = s := by simp [EventPump.step, EventPump.turn, h]
  induction n with
  | zero => rfl
  | succ n ih => rw [List.replicate_succ, final_cons, hturn, ih]

/-- Enough turns end a loop. -/
theorem turns_spec {left n : Nat} (hleft : left < n) (hs : s.phase = .draining left)
    (h : (P.final s (List.replicate n .turn)).phase ≠ .dead) :
    (P.final s (List.replicate n .turn)).phase = .armed ∧
      (P.final s (List.replicate n .turn)).queue = s.queue.drop left := by
  induction n generalizing s left with
  | zero => omega
  | succ n ih =>
    rw [List.replicate_succ, final_cons] at h ⊢
    obtain ⟨inner, queue, phase⟩ := s
    obtain rfl : phase = .draining left := hs
    cases left with
    | zero =>
      rw [turns_armed rfl]
      exact ⟨rfl, rfl⟩
    | succ left =>
      cases queue with
      | nil =>
        rw [turns_armed rfl]
        exact ⟨rfl, rfl⟩
      | cons item queue =>
        have hstep := alive_of_final h
        rcases turn_cases P ⟨inner, item :: queue, .draining (left + 1)⟩ with
          ⟨hnext, -⟩ | ⟨item', queue', left', -, hqueue, hphase, ⟨-, heq⟩ | ⟨-, heq⟩⟩
        · cases hnext
        · obtain ⟨rfl, rfl⟩ := List.cons.inj hqueue
          obtain rfl : left = left' := Nat.succ.inj (Phase.draining.inj hphase)
          have hnext : (P.step (⟨inner, item :: queue, .draining (left + 1)⟩ : State σ ι) .turn).1 =
              ⟨(P.handle inner item).state, queue, .draining left⟩ := congrArg Prod.fst heq
          rw [hnext] at h ⊢
          exact ih (Nat.lt_of_succ_lt_succ hleft) rfl h
        · exact absurd (congrArg (·.1.phase) heq) hstep

theorem round_spec (hs : s.phase = .armed) (h : (P.final s P.round).phase ≠ .dead) :
    (P.final s P.round).phase = .armed ∧ (P.final s P.round).queue = s.queue.drop P.batch := by
  have hfire : (P.step s (.fire : Event ι υ)).1 = { s with phase := .draining P.batch } := by
    simp [EventPump.step, hs]
  rw [EventPump.round, final_cons, hfire] at h ⊢
  exact turns_spec (Nat.lt_succ_self _) rfl h

/-- **Progress**: each loop takes a batch from the queue, or what there is, and sets the timer. -/
theorem rounds_spec (k : Nat) (hs : s.phase = .armed)
    (h : (P.final s (P.rounds k)).phase ≠ .dead) :
    (P.final s (P.rounds k)).phase = .armed ∧
      (P.final s (P.rounds k)).queue = s.queue.drop (P.batch * k) := by
  induction k generalizing s with
  | zero => exact ⟨hs, rfl⟩
  | succ k ih =>
    have hrounds : P.rounds (k + 1) = P.round ++ P.rounds k := by
      rw [EventPump.rounds, List.replicate_succ, List.flatten_cons]
      rfl
    rw [hrounds, final_append] at h ⊢
    obtain ⟨harmed, hqueue⟩ := round_spec hs (alive_of_final h)
    obtain ⟨hphase, hrest⟩ := ih harmed h
    refine ⟨hphase, ?_⟩
    rw [hrest, hqueue, List.drop_drop, Nat.mul_succ, Nat.add_comm]

end Pump
