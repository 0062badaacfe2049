import S4Bridge.Lib.Lists
import S4Bridge.Startup.Proof.Calls
import S4Bridge.Startup.Proof.Lifecycle

/-!
# Which packets the device has received

`deliveredSince n` lists the packets, on the command and the LED endpoint, that were transferred in
full by the transfers since there were `n`. A call adds its own packet or nothing, and touches no
packet of an earlier call (`Sending`). A call that returns has had its packet completed with status
COMPLETED, but looks at no length: so a start-up that returns has delivered the whole sequence
exactly if no packet was completed short (`delivery_iff`).
-/

namespace Startup

open Transfers History

/-! ## Packets -/

/-- The transfer carries a packet for the device. -/
def IsPacket (t : Transfer Xfer) : Prop := t.data.endpoint = epCmd ∨ t.data.endpoint = epLed

instance (t : Transfer Xfer) : Decidable (IsPacket t) := inferInstanceAs (Decidable (_ ∨ _))

/-- The packet of a transfer that has transferred all of it. -/
def fullPacket (t : Transfer Xfer) : Option (List UInt8) :=
  if IsPacket t ∧ t.data.state.done = true ∧ (t.data.buffer.length : Int) ≤ t.data.state.transferred
  then some t.data.buffer else none

/-- The packets transferred in full, of the transfers since there were `n`. -/
def deliveredSince (n : Nat) (u : Usb) : List (List UInt8) :=
  (u.transfers.drop n).filterMap fullPacket

def packetAt (u : Usb) (id : Nat) : Option (List UInt8) := u.transfers[id]?.bind fullPacket

/-- The packet a step sends. -/
def InitStep.packet? : InitStep → Option (List UInt8)
  | .cmd bytes => some bytes
  | .led packet => some packet
  | _ => none

/-- The packets of phases 1 to 7. -/
def initPackets : List (List UInt8) := initSteps.filterMap InitStep.packet?

theorem fullPacket_none {t : Transfer Xfer} (h : ¬ IsPacket t) : fullPacket t = none :=
  if_neg fun hfull => h hfull.1

variable {u before : Usb} {w : History Usb} {n out id : Nat} {p : List UInt8}

/-! ## A call at a moment -/

/-- If the transfer carries a packet, nothing will happen to it any more. -/
def Idle (t : Transfer Xfer) : Prop :=
  IsPacket t → t.data.callback = some .xferCb ∧ t.inFlight = false

/-- The transfer of the packet `p`, or one that is not filled yet. -/
def Carries (p : List UInt8) (t : Transfer Xfer) : Prop :=
  t.data.callback ≠ some .drain84Cb ∧ (IsPacket t → t.data.buffer = p)

/-- What holds in a call that began in `before` and sends `p` with the transfer `out`: the packets of
the calls since there were `n` transfers are as they were. -/
structure Sending (n : Nat) (before : Usb) (out : Nat) (p : List UInt8) (u : Usb) : Prop where
  length : before.transfers.length ≤ u.transfers.length
  idle : ∀ id, n ≤ id → id ≠ out → ∀ t, u.transfers[id]? = some t → Idle t
  same : ∀ id, n ≤ id → id ≠ out → packetAt u id = packetAt before id
  plain : ∀ id, before.transfers.length ≤ id → id ≠ out →
    ∀ t, u.transfers[id]? = some t → ¬ IsPacket t
  own : ∀ t, u.transfers[out]? = some t → Carries p t

/-- The packets of the calls since there were `n` transfers stay as they are. -/
def AllIdle (n : Nat) (u : Usb) : Prop :=
  ∀ id, n ≤ id → ∀ t, u.transfers[id]? = some t → Idle t

theorem Sending.start (h : AllIdle n u) (hout : u.transfers.length ≤ out) (p : List UInt8) :
    Sending n u out p u := by
  refine ⟨Nat.le_refl _, fun id hid _ => h id hid, fun _ _ _ => rfl, fun id hid _ t ht => ?_,
    fun t ht => ?_⟩
  · rw [List.getElem?_eq_none hid] at ht
    cases ht
  · rw [List.getElem?_eq_none hout] at ht
    cases ht

/-- The transfer is the call's own one, or carries no packet. -/
def PlainAt (n out id : Nat) (u : Usb) : Prop :=
  n ≤ id → id ≠ out → ∀ t, u.transfers[id]? = some t → ¬ IsPacket t

theorem Sending.plainAt (h : Sending n before out p u) (hid : before.transfers.length ≤ id) :
    PlainAt n out id u := fun _ => h.plain id hid

theorem getElem?_on_cases {f : Transfer Xfer → Transfer Xfer} {j : Nat} {t : Transfer Xfer}
    (h : (u.on id f).transfers[j]? = some t) :
    u.transfers[j]? = some t ∨ id = j ∧ ∃ t', u.transfers[j]? = some t' ∧ t = f t' := by
  rw [Usb.on, List.getElem?_modify] at h
  obtain ⟨t', ht', hf⟩ := Option.map_eq_some_iff.1 h
  by_cases hid : id = j
  · rw [if_pos hid] at hf
    exact .inr ⟨hid, t', ht', hf.symm⟩
  · rw [if_neg hid] at hf
    exact .inl (by rw [ht']; exact congrArg some hf)

theorem PlainAt.on (h : PlainAt n out id u) {f : Transfer Xfer → Transfer Xfer}
    (hf : ∀ t, ¬ IsPacket t → ¬ IsPacket (f t)) : PlainAt n out id (u.on id f) := by
  intro hn hne t ht
  rcases getElem?_on_cases ht with ht | ⟨-, t', ht', rfl⟩
  · exact h hn hne t ht
  · exact hf t' (h hn hne t' ht')

/-- A change of one transfer. -/
theorem Sending.on (h : Sending n before out p u) (hplain : PlainAt n out id u)
    {f : Transfer Xfer → Transfer Xfer} (hf : id ≠ out → ∀ t, ¬ IsPacket t → ¬ IsPacket (f t))
    (hown : id = out → ∀ t, Carries p t → Carries p (f t)) : Sending n before out p (u.on id f) := by
  refine ⟨?_, fun j hj hne t ht => ?_, fun j hj hne => ?_, fun j hj hne t ht => ?_, fun t ht => ?_⟩
  · rw [length_on]
    exact h.length
  · rcases getElem?_on_cases ht with ht | ⟨rfl, t', ht', rfl⟩
    · exact h.idle j hj hne t ht
    · exact fun hp => absurd hp (hf hne t' (hplain hj hne t' ht'))
  · rw [← h.same j hj hne, packetAt, packetAt]
    by_cases hid : id = j
    · subst hid
      cases ht : u.transfers[id]? with
      | none => rw [Usb.on, List.getElem?_modify, ht]; rfl
      | some t =>
        have hnot := hplain hj hne t ht
        rw [getElem?_on_self ht]
        exact (fullPacket_none (hf hne t hnot)).trans (fullPacket_none hnot).symm
    · rw [getElem?_on_of_ne f hid]
  · rcases getElem?_on_cases ht with ht | ⟨rfl, t', ht', rfl⟩
    · exact h.plain j hj hne t ht
    · exact hf hne t' (h.plain id hj hne t' ht')
  · rcases getElem?_on_cases ht with ht | ⟨hid, t', ht', rfl⟩
    · exact h.own t ht
    · exact hown hid t' (h.own t' ht')

/-- Only the transfers matter. -/
theorem Sending.of_transfers {u' : Usb} (h : Sending n before out p u)
    (heq : u'.transfers = u.transfers) : Sending n before out p u' := by
  refine ⟨?_, ?_, ?_, ?_, ?_⟩
  · rw [heq]
    exact h.length
  · rw [heq]
    exact h.idle
  · intro id hid hne
    rw [← h.same id hid hne, packetAt, packetAt, heq]
  · rw [heq]
    exact h.plain
  · rw [heq]
    exact h.own

theorem epData_ne : epData ≠ epCmd ∧ epData ≠ epLed := by decide

theorem not_isPacket_fresh : ¬ IsPacket (.fresh {}) := by decide

theorem Sending.alloc (h : Sending n before out p u) : Sending n before out p u.alloc := by
  have hget : ∀ (id : Nat) (t : Transfer Xfer), u.alloc.transfers[id]? = some t →
      u.transfers[id]? = some t ∨ t = .fresh {} := by
    intro id t ht
    rw [Usb.alloc, getElem?_alloc] at ht
    split at ht
    · exact .inr (Option.some.inj ht).symm
    · exact .inl ht
  refine ⟨?_, fun id hid hne t ht => ?_, fun id hid hne => ?_, fun id hid hne t ht => ?_,
    fun t ht => ?_⟩
  · rw [Usb.alloc, List.length_append]
    exact Nat.le_add_right_of_le h.length
  · rcases hget id t ht with ht | rfl
    · exact h.idle id hid hne t ht
    · exact fun hp => absurd hp not_isPacket_fresh
  · rw [← h.same id hid hne, packetAt, packetAt, Usb.alloc, getElem?_alloc]
    split
    · rename_i hlen
      rw [hlen, List.getElem?_eq_none (Nat.le_refl _)]
      rfl
    · rfl
  · rcases hget id t ht with ht | rfl
    · exact h.plain id hid hne t ht
    · exact not_isPacket_fresh
  · rcases hget out t ht with ht | rfl
    · exact h.own t ht
    · exact ⟨by decide, fun hp => absurd hp not_isPacket_fresh⟩

/-! ## What a call does -/

theorem carries_of_data {t t' : Transfer Xfer} (h : t'.data = t.data) (ht : Carries p t) :
    Carries p t' := by
  rw [Carries, IsPacket, h]
  exact ht

theorem not_isPacket_submitted (accepted : Bool) {t : Transfer Xfer} (h : ¬ IsPacket t) :
    ¬ IsPacket (t.submitted accepted) := by
  rw [IsPacket, Transfer.submitted_data]
  exact h

theorem Sending.submit (h : Sending n before out p u) (hid : before.transfers.length ≤ id)
    (rc : Rc) : Sending n before out p (u.submit id rc) :=
  h.on (h.plainAt hid) (fun _ _ => not_isPacket_submitted _) fun _ _ =>
    carries_of_data (Transfer.submitted_data _)

theorem Sending.free (h : Sending n before out p u) (hid : before.transfers.length ≤ id) :
    Sending n before out p (u.free id) :=
  h.on (h.plainAt hid) (fun _ _ hnot => hnot) fun _ _ => carries_of_data rfl

/-- Filling another transfer of the call. -/
theorem Sending.fillOther (h : Sending n before out p u) (hid : before.transfers.length ≤ id)
    (hne : id ≠ out) (handle : Option Handle) {endpoint : UInt8} (hcmd : endpoint ≠ epCmd)
    (hled : endpoint ≠ epLed) (buffer : List UInt8) (callback : Callback) :
    Sending n before out p (u.fill id handle endpoint buffer callback) :=
  h.on (h.plainAt hid) (fun _ _ _ => not_or_intro hcmd hled) fun heq => absurd heq hne

theorem Sending.fillOut (h : Sending n before out p u) (handle : Option Handle)
    (endpoint : UInt8) : Sending n before out p (u.fill out handle endpoint p .xferCb) :=
  h.on (fun _ hne => absurd rfl hne) (fun hne => absurd rfl hne) fun _ _ _ =>
    ⟨fun hcb => (by cases hcb), fun _ => rfl⟩

theorem Sending.complete (h : Sending n before out p u) (c : Completion) :
    Sending n before out p (complete u c) := by
  cases hget : u.transfers[c.id]? with
  | none =>
    rw [complete_idle fun t ht => (by rw [hget] at ht; cases ht)]
    exact h
  | some t =>
    cases hf : t.inFlight with
    | false =>
      rw [complete_idle fun t' ht' => (by rw [hget] at ht'; rw [← Option.some.inj ht', hf])]
      exact h
    | true =>
      -- a transfer in flight of another call carries no packet
      have hplain : PlainAt n out c.id u := by
        intro hid hne t' ht' hp
        obtain rfl := Option.some.inj (hget.symm.trans ht')
        rw [(h.idle c.id hid hne t hget hp).2] at hf
        cases hf
      have hfinished : Sending n before out p (u.on c.id (·.finished)) :=
        h.on hplain (fun _ _ hnot => hnot) fun _ _ => carries_of_data rfl
      have hplain' : PlainAt n out c.id (u.on c.id (·.finished)) := hplain.on fun _ hnot => hnot
      rw [complete_inFlight hget hf]
      cases hcb : t.data.callback with
      | none => exact hfinished
      | some callback =>
        cases callback with
        | xferCb => exact hfinished.on hplain' (fun _ _ hnot => hnot) fun _ _ ht => ht
        | drain84Cb =>
          have hne : c.id ≠ out := fun heq => (h.own t (heq ▸ hget)).1 hcb
          let u1 := (u.on c.id (·.finished)).fill c.id u.drain.hdl epData drainBuf .drain84Cb
          have hfilled : Sending n before out p u1 := hfinished.on hplain'
            (fun _ _ _ => not_or_intro epData_ne.1 epData_ne.2) fun heq => absurd heq hne
          have hplain1 : PlainAt n out c.id u1 :=
            hplain'.on fun _ _ => not_or_intro epData_ne.1 epData_ne.2
          have hsubmitted : Sending n before out p (u1.submit c.id c.resubmit) :=
            hfilled.on hplain1 (fun _ _ => not_isPacket_submitted _) fun heq => absurd heq hne
          simp only [drain84Cb]
          split
          · exact hfinished.of_transfers rfl
          · split
            · exact hsubmitted.of_transfers rfl
            · exact hsubmitted

/-! ## What has been delivered at a moment -/

theorem deliveredSince_eq {k : Nat} (hk : u.transfers.length ≤ n + k) :
    deliveredSince n u = (List.range k).filterMap fun i => packetAt u (n + i) := by
  have hlen : (u.transfers.drop n).length ≤ k := by
    rw [List.length_drop]
    omega
  rw [deliveredSince, Lists.filterMap_eq_range fullPacket hlen]
  simp only [List.getElem?_drop, packetAt]

/-- During a call its own packet comes to those before. -/
theorem Sending.delivered (h : Sending n before out p u) (hn : n ≤ before.transfers.length)
    (hout : before.transfers.length ≤ out) :
    deliveredSince n u = deliveredSince n before ++ (packetAt u out).toList := by
  have hlen := h.length
  have hnow : u.transfers.length ≤ n + (u.transfers.length + out + 1) := by omega
  have hbefore : before.transfers.length ≤ n + (u.transfers.length + out + 1) := by omega
  rw [deliveredSince_eq hnow, deliveredSince_eq hbefore]
  have hat : n + (out - n) = out := by omega
  have hsingle := Lists.filterMap_range_single (f := fun i => packetAt u (n + i))
    (g := fun i => packetAt before (n + i)) (i := out - n) (k := u.transfers.length + out + 1)
    (by omega) (fun j hj => h.same (n + j) (by omega) (by omega)) fun j hj => by
      rw [packetAt, List.getElem?_eq_none (by omega)]
      rfl
  simp only [hat] at hsingle
  exact hsingle

theorem Carries.fullPacket {t : Transfer Xfer} (h : Carries p t) :
    fullPacket t = none ∨ fullPacket t = some p := by
  unfold Startup.fullPacket
  split
  · rename_i hfull
    exact .inr (congrArg some (h.2 hfull.1))
  · exact .inl rfl

theorem Sending.delivered_cases (h : Sending n before out p u) (hn : n ≤ before.transfers.length)
    (hout : before.transfers.length ≤ out) :
    deliveredSince n u = deliveredSince n before ∨
      deliveredSince n u = deliveredSince n before ++ [p] := by
  rw [h.delivered hn hout, packetAt]
  cases ht : u.transfers[out]? with
  | none => exact .inl (List.append_nil _)
  | some t =>
    rcases (h.own t ht).fullPacket with hfull | hfull
    · exact .inl (by simp [hfull])
    · exact .inr (by simp [hfull])

theorem sendingRule {P : Usb → Prop} (himp : ∀ u, Sending n before out p u → P u) :
    CallRule P (Sending n before out p) before.transfers.length where
  implies := himp
  complete _ c h := h.complete c
  alloc _ h := h.alloc
  submit _ _ rc hid h := h.submit hid rc
  free _ _ hid h := h.free hid

/-! ## Between the calls -/

/-- All packets since there were `n` transfers are settled, and those delivered are `packets`. -/
structure Settled (n : Nat) (packets : List (List UInt8)) (u : Usb) : Prop where
  length : n ≤ u.transfers.length
  idle : AllIdle n u
  delivered : deliveredSince n u = packets

variable {packets : List (List UInt8)}

/-- A call that has not got as far as its packet has changed nothing. -/
theorem Sending.settled (h : Sending n before out p u) (hb : Settled n packets before)
    (hout : before.transfers.length ≤ out) (hlen : u.transfers.length ≤ out) :
    Settled n packets u := by
  have hnone : u.transfers[out]? = none := List.getElem?_eq_none hlen
  refine ⟨Nat.le_trans hb.length h.length, fun id hid t ht => ?_, ?_⟩
  · refine h.idle id hid (fun heq => ?_) t ht
    rw [heq, hnone] at ht
    cases ht
  · rw [h.delivered hb.length hout, packetAt, hnone, hb.delivered]
    exact List.append_nil _

theorem Settled.of_transfers {u' : Usb} (h : Settled n packets u)
    (heq : u'.transfers = u.transfers) : Settled n packets u' := by
  obtain ⟨hlen, hidle, hdelivered⟩ := h
  rw [deliveredSince, ← heq] at hdelivered
  refine ⟨heq ▸ hlen, ?_, hdelivered⟩
  rw [AllIdle, heq]
  exact hidle

theorem Settled.complete (h : Settled n packets u) (c : Completion) :
    Settled n packets (complete u c) :=
  ((Sending.start h.idle (Nat.le_refl _) []).complete c).settled h (Nat.le_refl _)
    (Nat.le_of_eq complete_length)

theorem settledRule {P : Usb → Prop} (himp : ∀ u, Settled n packets u → P u) :
    EventRule P (Settled n packets) where
  implies := himp
  complete _ c h := h.complete c

/-- Freeing a transfer changes nothing. -/
theorem Settled.free (h : Settled n packets u) (id : Nat) : Settled n packets (u.free id) := by
  have hat : ∀ j, packetAt (u.free id) j = packetAt u j := by
    intro j
    rw [packetAt, packetAt, Usb.free, Usb.on, List.getElem?_modify]
    cases u.transfers[j]? with
    | none => rfl
    | some t =>
      show fullPacket (if id = j then t.freed else t) = fullPacket t
      split <;> rfl
  have hlen : (u.free id).transfers.length = u.transfers.length := length_on _
  have hk : u.transfers.length ≤ n + u.transfers.length := Nat.le_add_left _ _
  refine ⟨hlen ▸ h.length, fun j hj t ht => ?_, ?_⟩
  · rcases getElem?_on_cases ht with ht | ⟨-, t', ht', rfl⟩
    · exact h.idle j hj t ht
    · exact h.idle j hj t' ht'
  · rw [← h.delivered, deliveredSince_eq (Nat.le_trans (Nat.le_of_eq hlen) hk),
      deliveredSince_eq hk]
    simp only [hat]

/-! ## Calls that return -/

/-- The first completion of transfer `id`. -/
def firstCompletion (id : Nat) (rounds : List Round) : Option Completion :=
  (rounds.flatMap (·.completions)).find? (·.id == id)

variable {t : Transfer Xfer}

/-- A wait leaves a transfer alone whose callback has run. -/
theorem waitLoop_idle (ht : w.now.transfers[id]? = some t) (hcb : t.data.callback = some .xferCb)
    (hf : t.inFlight = false) (ids : List Nat) (rounds : List Round) :
    (waitLoop ids w rounds).1.now.transfers[id]? = some t := by
  induction rounds generalizing w with
  | nil => exact ht
  | cons round rounds ih =>
    have hnext : (handleEvents w round.completions).now.transfers[id]? = some t := by
      rw [handleEvents_now]
      exact foldl_complete_idle _ ht hcb hf
    rw [waitLoop]
    split
    · exact ht
    · simp only
      split
      · exact hnext
      · exact ih hnext

/-- A wait leaves a transfer in flight as it is, or its first completion ends it. -/
theorem waitLoop_xfer (ht : w.now.transfers[id]? = some t) (hcb : t.data.callback = some .xferCb)
    (hf : t.inFlight = true) (ids : List Nat) (rounds : List Round) :
    (waitLoop ids w rounds).1.now.transfers[id]? = some t ∨
      ∃ c, firstCompletion id rounds = some c ∧
        (waitLoop ids w rounds).1.now.transfers[id]? = some (xferCb c t.finished) := by
  induction rounds generalizing w with
  | nil => exact .inl ht
  | cons round rounds ih =>
    have hnext := handleEvents_xfer round.completions ht hcb hf
    rw [waitLoop, firstCompletion, List.flatMap_cons, List.find?_append]
    split
    · exact .inl ht
    · simp only
      cases hfind : round.completions.find? (·.id == id) with
      | none =>
        rw [hfind] at hnext
        split
        · exact .inl hnext
        · exact ih hnext
      | some c =>
        rw [hfind] at hnext
        refine .inr ⟨c, rfl, ?_⟩
        split
        · exact hnext
        · exact waitLoop_idle hnext hcb rfl ids rounds

theorem waitLoop_done {ids : List Nat} {rounds : List Round}
    (h : (waitLoop ids w rounds).2 = .done) :
    ids.all (waitLoop ids w rounds).1.now.isDone = true := by
  induction rounds generalizing w with
  | nil =>
    rw [waitLoop] at h ⊢
    split at h
    · assumption
    · cases h
  | cons round rounds ih =>
    rw [waitLoop] at h ⊢
    split at h
    · rename_i hall
      rw [if_pos hall]
      exact hall
    · rename_i hnot
      rw [if_neg hnot]
      simp only at h ⊢
      split at h
      · cases h
      · rename_i hlate
        rw [if_neg hlate]
        exact ih h

/-- The transfer `out` is filled with the packet `p`. -/
def Filled (out : Nat) (endpoint : UInt8) (p : List UInt8) (u : Usb) : Prop :=
  ∃ t, u.transfers[out]? = some t ∧ t.data.endpoint = endpoint ∧ t.data.buffer = p ∧
    t.data.callback = some .xferCb ∧ t.data.state.done = false

/-- It is in flight. -/
def Sent (out : Nat) (endpoint : UInt8) (p : List UInt8) (u : Usb) : Prop :=
  ∃ t, u.transfers[out]? = some t ∧ t.data.endpoint = endpoint ∧ t.data.buffer = p ∧
    t.data.callback = some .xferCb ∧ t.data.state.done = false ∧ t.inFlight = true

/-- It has been ended by `c`. -/
def Ended (out : Nat) (endpoint : UInt8) (p : List UInt8) (c : Completion) (u : Usb) : Prop :=
  ∃ t, u.transfers[out]? = some t ∧ t.data.endpoint = endpoint ∧ t.data.buffer = p ∧
    t.data.callback = some .xferCb ∧ t.data.state = ⟨true, c.status, c.actualLength⟩ ∧
    t.inFlight = false

variable {endpoint : UInt8} {c : Completion}

theorem Sent.waited (h : Sent out endpoint p w.now) (ids : List Nat) (rounds : List Round)
    (hids : out ∈ ids) (hdone : (waitLoop ids w rounds).2 = .done) :
    ∃ c, firstCompletion out rounds = some c ∧
      Ended out endpoint p c (waitLoop ids w rounds).1.now := by
  obtain ⟨t, ht, hendpoint, hbuffer, hcb, hnot, hf⟩ := h
  rcases waitLoop_xfer ht hcb hf ids rounds with hsame | ⟨c, hfirst, hend⟩
  · have hall := List.all_eq_true.1 (waitLoop_done hdone) out hids
    rw [Usb.isDone, hsame] at hall
    exact absurd (hall.symm.trans hnot) (by decide)
  · exact ⟨c, hfirst, _, hend, hendpoint, hbuffer, hcb, rfl, rfl⟩

theorem Ended.free (h : Ended out endpoint p c u) (id : Nat) :
    Ended out endpoint p c (u.free id) := by
  obtain ⟨t, ht, h⟩ := h
  by_cases hid : id = out
  · subst hid
    exact ⟨_, getElem?_on_self ht, h⟩
  · exact ⟨t, (getElem?_on_of_ne _ hid).trans ht, h⟩

theorem Ended.status (h : Ended out endpoint p c u) : u.status out = c.status := by
  obtain ⟨t, ht, -, -, -, hstate, -⟩ := h
  rw [Usb.status, ht, Option.map_some, Option.getD_some, hstate]

variable (errorName : Int → String) (dev : Device)

theorem cmdWait_returned {inT : Nat} (h : Sent out endpoint p w.now) {rounds : List Round}
    (hret : (cmdWait errorName w inT out rounds).2 = .returned) :
    ∃ c, firstCompletion out rounds = some c ∧ c.status = .completed ∧
      Ended out endpoint p c (cmdWait errorName w inT out rounds).1.now := by
  have hwaited := h.waited [inT, out] rounds (by simp)
  unfold cmdWait at hret ⊢
  generalize waitLoop [inT, out] w rounds = waited at hret hwaited ⊢
  obtain ⟨w1, exit⟩ := waited
  cases exit with
  | running => cases hret
  | deadline => cases hret
  | done =>
    obtain ⟨c, hfirst, hend⟩ := hwaited rfl
    have hfreed := (hend.free inT).free out
    have hstatus : ((w1.step (·.free inT)).step (·.free out)).now.status out = c.status :=
      hfreed.status
    simp only [hstatus] at hret ⊢
    split at hret
    · cases hret
    · rename_i hok
      rw [if_neg hok]
      exact ⟨c, hfirst, not_not.1 hok, hfreed⟩

theorem ledWait_returned (h : Sent out endpoint p w.now) {env : CallEnv}
    (hret : (ledWait w out env).2 = .returned) :
    ∃ c, firstCompletion out env.rounds = some c ∧ c.status = .completed ∧
      Ended out endpoint p c (ledWait w out env).1.now := by
  have hwaited := h.waited [out] env.rounds (by simp)
  unfold ledWait at hret ⊢
  generalize waitLoop [out] w env.rounds = waited at hret hwaited ⊢
  obtain ⟨w1, exit⟩ := waited
  cases exit with
  | running => cases hret
  | deadline =>
    simp only at hret
    split at hret <;> cases hret
  | done =>
    obtain ⟨c, hfirst, hend⟩ := hwaited rfl
    have hfreed := hend.free out
    have hstatus : (w1.step (·.free out)).now.status out = c.status := hfreed.status
    simp only [hstatus] at hret ⊢
    split at hret
    · cases hret
    · rename_i hok
      rw [if_neg hok]
      exact ⟨c, hfirst, not_not.1 hok, hfreed⟩

theorem filled_fill (ht : u.transfers[out]? = some (.fresh {})) (handle : Option Handle)
    (endpoint : UInt8) (p : List UInt8) :
    Filled out endpoint p (u.fill out handle endpoint p .xferCb) :=
  ⟨_, getElem?_on_self ht, rfl, rfl, rfl, rfl⟩

theorem Filled.submit_of_ne (h : Filled out endpoint p u) (hne : id ≠ out) (rc : Rc) :
    Filled out endpoint p (u.submit id rc) := by
  obtain ⟨t, ht, h⟩ := h
  exact ⟨t, (getElem?_on_of_ne _ hne).trans ht, h⟩

theorem Filled.submit (h : Filled out endpoint p u) {rc : Rc} (hrc : ¬ rc.val < 0) :
    Sent out endpoint p (u.submit out rc) := by
  obtain ⟨t, ht, hendpoint, hbuffer, hcb, hnot⟩ := h
  have hzero : rc.val = 0 := not_not.1 fun hne => hrc ((rc_neg_iff rc).2 hne)
  have hget : (u.submit out rc).transfers[out]? = some (t.submitted true) := by
    rw [Usb.submit, hzero]
    exact getElem?_on_self ht
  exact ⟨_, hget, hendpoint, hbuffer, hcb, hnot, rfl⟩

theorem cmdSubmit_returned {inT : Nat} (hne : inT ≠ out) (h : Filled out endpoint p w.now)
    {env : CallEnv} (hret : (cmdSubmit errorName w inT out env).2 = .returned) :
    ∃ c, firstCompletion out env.rounds = some c ∧ c.status = .completed ∧
      Ended out endpoint p c (cmdSubmit errorName w inT out env).1.now := by
  unfold cmdSubmit at hret ⊢
  simp only at hret ⊢
  split at hret
  · cases hret
  · rename_i hin
    rw [if_neg hin]
    split at hret
    · cases hret
    · rename_i hout
      rw [if_neg hout]
      exact cmdWait_returned errorName ((h.submit_of_ne hne _).submit hout) hret

/-- A command that returns: both transfers are there, and the packet's has been completed. -/
theorem cmd_returned {bytes : List UInt8} {env : CallEnv}
    (hret : (cmd errorName dev w bytes env).2 = .returned) :
    ∃ c, firstCompletion (w.now.transfers.length + 1) env.rounds = some c ∧
      c.status = .completed ∧
      Ended (w.now.transfers.length + 1) epCmd bytes c (cmd errorName dev w bytes env).1.now := by
  unfold cmd at hret ⊢
  split at hret
  · cases hret
  · rename_i hopen
    rw [if_neg hopen]
    cases halloc : env.alloc 0 with
    | false =>
      simp only [halloc, allocTransfer, Bool.false_eq_true, if_false] at hret
      cases hret
    | true =>
      cases halloc' : env.alloc 1 with
      | false =>
        simp only [halloc, halloc', allocTransfer, Bool.false_eq_true, if_false, if_true] at hret
        cases hret
      | true =>
        simp only [halloc, halloc', allocTransfer, if_true] at hret ⊢
        have hlen : (w.step Usb.alloc).now.transfers.length = w.now.transfers.length + 1 :=
          List.length_append
        have hnew : ((w.step Usb.alloc).step Usb.alloc).now.transfers[
            (w.step Usb.alloc).now.transfers.length]? = some (.fresh {}) :=
          (getElem?_alloc _ _).trans (if_pos rfl)
        have hne : w.now.transfers.length ≠ (w.step Usb.alloc).now.transfers.length := by omega
        rw [← hlen]
        refine cmdSubmit_returned errorName hne ?_ hret
        exact filled_fill ((getElem?_on_of_ne _ hne).trans hnew) dev.handle epCmd bytes

theorem ledAsync_returned {data : List UInt8} {env : CallEnv}
    (hret : (ledAsync errorName dev w data env).2 = .returned) :
    ∃ c, firstCompletion w.now.transfers.length env.rounds = some c ∧ c.status = .completed ∧
      Ended w.now.transfers.length epLed data c (ledAsync errorName dev w data env).1.now := by
  unfold ledAsync at hret ⊢
  cases halloc : env.alloc 0 with
  | false =>
    simp only [halloc, allocTransfer, Bool.false_eq_true, if_false] at hret
    cases hret
  | true =>
    simp only [halloc, allocTransfer, if_true] at hret ⊢
    split at hret
    · cases hret
    · rename_i hrc
      rw [if_neg hrc]
      have hnew : (w.step Usb.alloc).now.transfers[w.now.transfers.length]? = some (.fresh {}) :=
        (getElem?_alloc _ _).trans (if_pos rfl)
      have hfilled := filled_fill hnew dev.handle epLed data
      exact ledWait_returned (hfilled.submit hrc) hret

/-! ## Steps -/

theorem Ended.packetAt (h : Ended out endpoint p c u) (hep : endpoint = epCmd ∨ endpoint = epLed) :
    packetAt u out = if (p.length : Int) ≤ c.actualLength then some p else none := by
  obtain ⟨t, ht, rfl, rfl, -, hstate, -⟩ := h
  rw [Startup.packetAt, ht, Option.bind_some, fullPacket, hstate]
  simp [IsPacket, hep]

/-- After a call whose packet was ended. -/
theorem Sending.ended (h : Sending n before out p u) (hb : Settled n packets before)
    (hout : before.transfers.length ≤ out) (hend : Ended out endpoint p c u)
    (hep : endpoint = epCmd ∨ endpoint = epLed) :
    Settled n (packets ++ if (p.length : Int) ≤ c.actualLength then [p] else []) u := by
  refine ⟨Nat.le_trans hb.length h.length, fun id hid t ht => ?_, ?_⟩
  · by_cases hne : id = out
    · subst hne
      obtain ⟨t', ht', -, -, hcb, -, hf⟩ := hend
      obtain rfl := Option.some.inj (ht.symm.trans ht')
      exact fun _ => ⟨hcb, hf⟩
    · exact h.idle id hid hne t ht
  · rw [h.delivered hb.length hout, hend.packetAt hep, hb.delivered]
    split <;> rfl

/-- A completion of transfer `id` with status COMPLETED tells that all of `p` was transferred. -/
def arrivesWhole (id : Nat) (p : List UInt8) (rounds : List Round) : Bool :=
  (firstCompletion id rounds).all fun c =>
    decide (c.status ≠ .completed) || decide ((p.length : Int) ≤ c.actualLength)

/-- The packet of a step is not completed short. -/
def stepFull (u : Usb) : InitStep → CallEnv → Bool
  | .cmd bytes, env => arrivesWhole (u.transfers.length + 1) bytes env.rounds
  | .led packet, env => arrivesWhole u.transfers.length packet env.rounds
  | _, _ => true

/-- No packet of the steps that are reached is completed short. -/
def stepsFull : History Usb → List (InitStep × CallEnv) → Bool
  | _, [] => true
  | w, (step, env) :: rest =>
    stepFull w.now step env &&
      match execStep errorName dev w step env with
      | (w, .returned) => stepsFull w rest
      | _ => true

theorem stepFull_of_none {step : InitStep} {env : CallEnv} (h : step.packet? = none) :
    stepFull u step env = true := by
  cases step with
  | cmd bytes => cases h
  | led packet => cases h
  | startDrain => rfl
  | stopDrain => rfl

theorem arrivesWhole_completed {rounds : List Round} (hfirst : firstCompletion id rounds = some c)
    (hstatus : c.status = .completed) (p : List UInt8) :
    arrivesWhole id p rounds = decide ((p.length : Int) ≤ c.actualLength) := by
  rw [arrivesWhole, hfirst, Option.all_some, hstatus]
  rfl

variable {P : Usb → Prop}

theorem startDrain84_settled (hw : w.Always P) (hb : Settled n packets w.now) (env : CallEnv)
    (himp : ∀ u, Settled n packets u → P u) :
    (startDrain84 dev w env).1.Holds P (Settled n packets) := by
  have hstart : Sending n w.now (w.now.transfers.length + 1) [] w.now :=
    .start hb.idle (Nat.le_succ _) []
  unfold startDrain84
  split
  · have hfill : Sending n w.now (w.now.transfers.length + 1) [] (fillDrain dev w.now) :=
      (hstart.alloc.fillOther (Nat.le_refl _) (Nat.ne_of_lt (Nat.lt_succ_self _)) dev.handle
        epData_ne.1 epData_ne.2 drainBuf .drain84Cb).of_transfers rfl
    have hsubmit : Sending n w.now (w.now.transfers.length + 1) []
        (submitDrain w.now.transfers.length (env.submit 0) (fillDrain dev w.now)) :=
      (hfill.submit (Nat.le_refl _) (env.submit 0)).of_transfers rfl
    have hlen : (fillDrain dev w.now).transfers.length = w.now.transfers.length + 1 := by
      rw [fillDrain, Usb.fill, length_on]
      exact List.length_append
    have hfilled := hfill.settled hb (Nat.le_succ _) (Nat.le_of_eq hlen)
    have hsubmitted := hsubmit.settled hb (Nat.le_succ _)
      (Nat.le_of_eq ((length_on _).trans hlen))
    exact ⟨(hw.step (himp _ hfilled)).step (himp _ hsubmitted), hsubmitted⟩
  · have hnone : Settled n packets (noDrain dev w.now) := hb.of_transfers rfl
    exact ⟨hw.step (himp _ hnone), hnone⟩

theorem stopDrain84_settled (hw : w.Always P) (hb : Settled n packets w.now) (env : CallEnv)
    (himp : ∀ u, Settled n packets u → P u) :
    (stopDrain84 w env).1.Holds P (Settled n packets) := by
  have hrule := settledRule himp
  have hnow : w.Holds P (Settled n packets) := ⟨hw, hb⟩
  have hfree : ∀ {w : History Usb} (id : Nat), w.Holds P (Settled n packets) →
      (w.step (freeDrain id)).Holds P (Settled n packets) := fun id h =>
    hrule.step h ((h.now.free id).of_transfers rfl)
  unfold stopDrain84
  split
  · exact hnow
  · rename_i id _
    have hloop := hrule.stopLoop (hrule.stepCancel hnow id) env.rounds
    simp only
    split
    · split
      · exact hloop
      · exact hfree id hloop
    · split
      · exact hnow
      · exact hfree id hnow

/-- What a step has done: at every moment `P` holds, and where it returns its packet has been
delivered unless it was completed short. -/
structure StepSends (P : Usb → Prop) (n : Nat) (packets : List (List UInt8)) (full : Bool)
    (packet : Option (List UInt8)) (result : History Usb × Outcome) : Prop where
  always : result.1.Always P
  settled : result.2 = .returned →
    Settled n (packets ++ if full then packet.toList else []) result.1.now

theorem execStep_sends (hw : w.Always P) (hb : Settled n packets w.now) (step : InitStep)
    (env : CallEnv)
    (himp : ∀ u, deliveredSince n u = packets ∨
      deliveredSince n u = packets ++ step.packet?.toList → P u) :
    StepSends P n packets (stepFull w.now step env) step.packet?
      (execStep errorName dev w step env) := by
  have hsettled : ∀ u, Settled n packets u → P u := fun u hu => himp u (.inl hu.delivered)
  cases step with
  | cmd bytes =>
    have hsending : ∀ u, Sending n w.now (w.now.transfers.length + 1) bytes u → P u :=
      fun u hu => himp u (hb.delivered ▸ hu.delivered_cases hb.length (Nat.le_succ _))
    have hcall := (sendingRule hsending).cmd errorName dev ⟨hw, .start hb.idle (Nat.le_succ _) bytes⟩ (Nat.le_refl _)
      (fun u hu => hu.fillOther (Nat.le_refl _) (Nat.ne_of_lt (Nat.lt_succ_self _)) dev.handle
        (by decide : epResp ≠ epCmd) (by decide) inBuf .xferCb)
      (fun u hu => hu.fillOut dev.handle epCmd) env
    refine ⟨hcall.always, fun hret => ?_⟩
    obtain ⟨c, hfirst, hstatus, hend⟩ := cmd_returned errorName dev hret
    rw [stepFull, arrivesWhole_completed hfirst hstatus]
    simp only [decide_eq_true_eq]
    exact hcall.now.ended hb (Nat.le_succ _) hend (.inl rfl)
  | led packet =>
    have hsending : ∀ u, Sending n w.now w.now.transfers.length packet u → P u :=
      fun u hu => himp u (hb.delivered ▸ hu.delivered_cases hb.length (Nat.le_refl _))
    have hcall := (sendingRule hsending).ledAsync errorName dev ⟨hw, .start hb.idle (Nat.le_refl _) packet⟩
      (Nat.le_refl _) (fun u hu => hu.fillOut dev.handle epLed) env
    refine ⟨hcall.always, fun hret => ?_⟩
    obtain ⟨c, hfirst, hstatus, hend⟩ := ledAsync_returned errorName dev hret
    rw [stepFull, arrivesWhole_completed hfirst hstatus]
    simp only [decide_eq_true_eq]
    exact hcall.now.ended hb (Nat.le_refl _) hend (.inr rfl)
  | startDrain =>
    have hstart := startDrain84_settled dev hw hb env hsettled
    exact ⟨hstart.always, fun _ => (List.append_nil packets).symm ▸ hstart.now⟩
  | stopDrain =>
    have hstop := stopDrain84_settled hw hb env hsettled
    exact ⟨hstop.always, fun _ => (List.append_nil packets).symm ▸ hstop.now⟩

/-! ## The sequence -/

/-- The packets of a sequence of steps. -/
def packetsOf (steps : List (InitStep × CallEnv)) : List (List UInt8) :=
  (steps.map Prod.fst).filterMap InitStep.packet?

theorem packetsOf_cons (step : InitStep) (env : CallEnv) (steps : List (InitStep × CallEnv)) :
    packetsOf ((step, env) :: steps) = step.packet?.toList ++ packetsOf steps := by
  rw [packetsOf, List.map_cons, List.filterMap_cons]
  cases step.packet? <;> rfl

/-- While no packet is completed short, those delivered are the first ones of the sequence, and all
of them if every step returns. -/
theorem runSteps_full {steps : List (InitStep × CallEnv)} {sequence : List (List UInt8)}
    (hw : w.Always fun u => deliveredSince n u <+: sequence) (hb : Settled n packets w.now)
    (hseq : packets ++ packetsOf steps = sequence)
    (hfull : stepsFull errorName dev w steps = true) :
    ((runSteps errorName dev w steps).1.Always fun u => deliveredSince n u <+: sequence) ∧
      ((runSteps errorName dev w steps).2 = .returned →
        deliveredSince n (runSteps errorName dev w steps).1.now = sequence) := by
  induction steps generalizing w packets with
  | nil =>
    refine ⟨hw, fun _ => ?_⟩
    rw [← hseq]
    exact hb.delivered.trans (List.append_nil _).symm
  | cons s steps ih =>
    obtain ⟨step, env⟩ := s
    rw [stepsFull, Bool.and_eq_true] at hfull
    obtain ⟨hstep, hrest⟩ := hfull
    rw [packetsOf_cons, ← List.append_assoc] at hseq
    obtain ⟨halways, hsettled⟩ := execStep_sends errorName dev hw hb step env fun u hu => by
      rw [← hseq]
      rcases hu with hu | hu
      · rw [hu, List.append_assoc]
        exact List.prefix_append _ _
      · rw [hu]
        exact List.prefix_append _ _
    rw [hstep, if_pos rfl] at hsettled
    rw [runSteps]
    generalize execStep errorName dev w step env = result at *
    obtain ⟨w1, outcome⟩ := result
    cases outcome with
    | returned => exact ih halways (hsettled rfl) hseq hrest
    | threw what => exact ⟨halways, fun h => (by cases h)⟩
    | running => exact ⟨halways, fun h => (by cases h)⟩

/-- Where every step returns, the packets delivered are those not completed short. -/
theorem runSteps_returned {steps : List (InitStep × CallEnv)} (hb : Settled n packets w.now)
    (hret : (runSteps errorName dev w steps).2 = .returned) :
    ∃ sent, deliveredSince n (runSteps errorName dev w steps).1.now = packets ++ sent ∧
      sent.Sublist (packetsOf steps) ∧
      (sent = packetsOf steps → stepsFull errorName dev w steps = true) := by
  induction steps generalizing w packets with
  | nil => exact ⟨[], hb.delivered.trans (List.append_nil _).symm, .slnil, fun _ => rfl⟩
  | cons s steps ih =>
    obtain ⟨step, env⟩ := s
    have hsettled := (execStep_sends (P := fun _ => True) errorName dev
      (⟨trivial, fun _ _ => trivial⟩ : w.Always _) hb step env fun _ _ => trivial).settled
    rw [runSteps] at hret ⊢
    rw [stepsFull, packetsOf_cons]
    generalize execStep errorName dev w step env = result at *
    obtain ⟨w1, outcome⟩ := result
    cases outcome with
    | threw what => cases hret
    | running => cases hret
    | returned =>
      obtain ⟨sent, hdelivered, hsub, hiff⟩ := ih (hsettled rfl) hret
      simp only at hdelivered ⊢
      cases hstep : stepFull w.now step env with
      | true =>
        rw [hstep, if_pos rfl, List.append_assoc] at hdelivered
        refine ⟨_, hdelivered, hsub.append_left _, fun heq => ?_⟩
        exact hiff (List.append_cancel_left heq)
      | false =>
        rw [hstep, if_neg (by decide), List.append_nil] at hdelivered
        refine ⟨_, hdelivered, hsub.trans (List.sublist_append_right _ _), fun heq => ?_⟩
        have hlen := hsub.length_le
        rw [heq, List.length_append] at hlen
        cases hpacket : step.packet? with
        | none =>
          rw [stepFull_of_none hpacket] at hstep
          cases hstep
        | some p =>
          rw [hpacket, Option.toList_some, List.length_singleton] at hlen
          omega

theorem packetsOf_withEnv (env : Nat → CallEnv) : packetsOf (withEnv env) = initPackets := by
  rw [packetsOf, map_fst_withEnv, initPackets]

/-- **Delivery**: a start-up that returns has transferred every packet of phases 1 to 7 in full, each
once and in order, exactly if no packet was completed short; and as long as none is, the packets
transferred in full are at every moment the first ones of the sequence, also where it throws. -/
theorem delivery_iff (u : Usb) (env : Nat → CallEnv) :
    let result := s4Mk1Init errorName dev (.start u) env
    let delivered := deliveredSince u.transfers.length
    (stepsFull errorName dev (.start u) (withEnv env) = true →
      (result.2 = .returned → delivered result.1.now = initPackets) ∧
      (∀ what, result.2 = .threw what → delivered result.1.now <+: initPackets) ∧
      result.1.Always fun u => delivered u <+: initPackets) ∧
    (result.2 = .returned → delivered result.1.now = initPackets →
      stepsFull errorName dev (.start u) (withEnv env) = true) := by
  intro result delivered
  have hnone : deliveredSince u.transfers.length u = [] := by
    rw [deliveredSince, List.drop_length]
    rfl
  have hb : Settled u.transfers.length [] (History.start u).now := by
    refine ⟨Nat.le_refl _, fun id hid t ht => ?_, hnone⟩
    have hout : u.transfers[id]? = none := List.getElem?_eq_none hid
    cases hout.symm.trans ht
  have hseq : [] ++ packetsOf (withEnv env) = initPackets := packetsOf_withEnv env
  refine ⟨fun hfull => ?_, fun hret heq => ?_⟩
  · have hw : (History.start u).Always fun u' =>
        deliveredSince u.transfers.length u' <+: initPackets := by
      refine ⟨?_, fun s hs => (by cases hs)⟩
      show deliveredSince u.transfers.length u <+: initPackets
      rw [hnone]
      exact List.nil_prefix
    obtain ⟨halways, hall⟩ := runSteps_full errorName dev hw hb hseq hfull
    exact ⟨hall, fun _ _ => halways.1, halways⟩
  · obtain ⟨sent, hdelivered, -, hfull⟩ := runSteps_returned errorName dev hb hret
    refine hfull (Eq.trans ?_ hseq.symm)
    exact (hdelivered.symm.trans heq)

/-- Call `k` of an attempt in which every call succeeds and every packet is transferred in full. -/
def wholeCall (k : Nat) : CallEnv :=
  let length := ((initSteps[k]?.bind InitStep.packet?).getD []).length
  let whole (c : Completion) : Completion := { c with actualLength := length }
  { smoothCall k with
    rounds := (smoothCall k).rounds.map fun round =>
      { round with completions := round.completions.map whole } }

/-- Everything goes well. -/
theorem delivery_iff_whole :
    let result := s4Mk1Init (fun _ => "") ⟨some 0, some 0⟩ (.start {}) wholeCall
    result.2 = .returned ∧ deliveredSince 0 result.1.now = initPackets ∧
      initPackets.length = 40 := by
  intro result
  have hreturned : result.2 = .returned := by decide +kernel
  refine ⟨hreturned, ?_, by decide +kernel⟩
  exact ((delivery_iff (fun _ => "") ⟨some 0, some 0⟩ {} wholeCall).1 (by decide +kernel)).1 hreturned

/-- No byte of the first command is transferred, and the start-up returns. -/
theorem not_delivery_short :
    ¬ ∀ (errorName : Int → String) (dev : Device) (u : Usb) (env : Nat → CallEnv),
      (s4Mk1Init errorName dev (.start u) env).2 = .returned →
        deliveredSince u.transfers.length (s4Mk1Init errorName dev (.start u) env).1.now =
          initPackets := by
  intro h
  let env (k : Nat) : CallEnv := if k = 0 then smoothCall 0 else wholeCall k
  have hshort := h (fun _ => "") ⟨some 0, some 0⟩ {} env (by decide +kernel)
  exact absurd hshort (by decide +kernel)

end Startup
