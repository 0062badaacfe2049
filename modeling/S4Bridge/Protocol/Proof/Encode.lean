import S4Bridge.Protocol.Generic

/-!
# The payloads `encodeOutput` can be made to return

`encodeOutput` accepts exactly the messages `F0 7D 53 34 payload F7` (`encodeOutput_eq_some`) and
takes the payload verbatim, whatever the object was called with before (`encodeOutput_envelope`). A
MIDI SysEx message carries only data bytes below 0x80, so exactly the payloads of such bytes can be
injected (`injectable_iff`).
-/

namespace Protocol

/-- The SysEx envelope of a payload. -/
def wrapOutput (payload : List UInt8) : List UInt8 := [0xF0, 0x7D, 0x53, 0x34] ++ payload ++ [0xF7]

/-- A legal SysEx message: data bytes between F0 and F7. -/
def LegalSysEx (m : List UInt8) : Prop :=
  ∃ data : List UInt8, (∀ b ∈ data, b < 0x80) ∧ m = 0xF0 :: data ++ [0xF7]

theorem wrapOutput_of_accepted {m : List UInt8} (hlen : m.length ≥ 5) (h0 : m.head? = some 0xF0)
    (hl : m.getLast? = some 0xF7) (h1 : m.getD 1 0 = 0x7D) (h2 : m.getD 2 0 = 0x53)
    (h3 : m.getD 3 0 = 0x34) : m = wrapOutput ((m.drop 4).take (m.length - 5)) := by
  match m with
  | a :: b :: c :: d :: e :: rest =>
    simp only [List.head?_cons, Option.some.injEq, List.getD_cons_succ, List.getD_cons_zero] at h0 h1 h2 h3
    subst h0 h1 h2 h3
    have hlast : (e :: rest).getLast? = some 0xF7 := by simpa using hl
    obtain ⟨init, hinit⟩ := List.getLast?_eq_some_iff.1 hlast
    simp [wrapOutput, hinit]

/-- **`encodeOutput` accepts exactly its envelope.** -/
theorem encodeOutput_eq_some (p : S4GenericProtocol) (m payload : List UInt8) :
    (encodeOutput p m).2 = some payload ↔ m = wrapOutput payload := by
  constructor
  · intro h
    unfold encodeOutput at h
    split at h
    · rename_i hframe
      split at h
      · rename_i hmark
        obtain ⟨hlen, h0, hl⟩ := hframe
        obtain ⟨h1, h2, h3⟩ := hmark
        simp only [Option.some.injEq] at h
        rw [← h]
        exact wrapOutput_of_accepted hlen h0 hl h1 h2 h3
      · cases h
    · cases h
  · rintro rfl
    have hlast : (wrapOutput payload).getLast? = some 0xF7 := List.getLast?_concat
    simp only [encodeOutput, hlast]
    simp [wrapOutput]

/-- What is found in a message does not depend on the protocol object. -/
theorem encodeOutput_payload (p p' : S4GenericProtocol) (m : List UInt8) :
    (encodeOutput p m).2 = (encodeOutput p' m).2 := by
  apply Option.ext
  intro payload
  rw [encodeOutput_eq_some, encodeOutput_eq_some]

theorem encodeOutput_previousReport (p : S4GenericProtocol) (m : List UInt8) :
    (encodeOutput p m).1.previousReport = p.previousReport := by
  unfold encodeOutput
  split
  · split <;> rfl
  · rfl

/-! ## Accesses -/

/-- The bytes between two iterators into a message, if they are in order and inside of it. -/
def slice? (m : List UInt8) (first last : Nat) : Option (List UInt8) :=
  if first ≤ last ∧ last ≤ m.length then some ((m.drop first).take (last - first)) else none

/-- `encode_output` with every access looked at: nothing where one leaves the message. -/
def encodeOutputChecked (p : S4GenericProtocol) (m : List UInt8) :
    Option (S4GenericProtocol × Option (List UInt8)) := do
  let ignored := ({ p with warnedAboutLedProtocol := true }, none)
  if m.length ≥ 5 then
    let front ← m[0]?
    if front = 0xF0 then
      let back ← m[m.length - 1]?
      if back = 0xF7 then
        let b1 ← m[1]?
        if b1 = 0x7D then
          let b2 ← m[2]?
          if b2 = 0x53 then
            let b3 ← m[3]?
            if b3 = 0x34 then
              let payload ← slice? m 4 (m.length - 1)
              return (p, some payload)
  return ignored

theorem exists_back {m : List UInt8} (h : m ≠ []) :
    ∃ back, m.getLast? = some back ∧ m[m.length - 1]? = some back := by
  have hlast := List.getLast?_eq_some_getLast h
  refine ⟨_, hlast, ?_⟩
  rw [← List.getLast?_eq_getElem?, hlast]

/-- No access leaves the message. -/
theorem encodeOutputChecked_eq (p : S4GenericProtocol) (m : List UInt8) :
    encodeOutputChecked p m = some (encodeOutput p m) := by
  unfold encodeOutputChecked encodeOutput
  by_cases hlen : m.length ≥ 5
  · obtain ⟨back, hlast, hback⟩ := exists_back (m := m) (by rintro rfl; cases hlen)
    have hpayload : slice? m 4 (m.length - 1) = some ((m.drop 4).take (m.length - 5)) := by
      rw [slice?, if_pos (by omega), Nat.sub_sub]
    match m, hlast, hback, hpayload, hlen with
    | a :: b :: c :: d :: e :: rest, hlast, hback, hpayload, hlen =>
      rw [if_pos hlen, hlast, hback, hpayload]
      by_cases h0 : a = 0xF0
      · by_cases hl : back = 0xF7
        · by_cases h1 : b = 0x7D <;> by_cases h2 : c = 0x53 <;> by_cases h3 : d = 0x34 <;>
            simp [h0, hl, h1, h2, h3]
        · simp [h0, hl]
      · simp [h0]
  · simp [hlen]

/-! ## Histories -/

/-- A call of one of the object's functions. -/
inductive Call
  | decodeInput (report : List UInt8)
  | encodeOutput (midiMessage : List UInt8)
  deriving DecidableEq, Repr

/-- What a call returns. -/
inductive Returned
  | messages (messages : List MidiMessage)
  | payload (payload : Option (List UInt8))
  deriving DecidableEq, Repr

/-- The protocol object under any calls. -/
def object (T : Tables) : Machine S4GenericProtocol Call Returned where
  step
    | p, .decodeInput report => ((decodeInput T p report).1, .messages (decodeInput T p report).2)
    | p, .encodeOutput m => ((encodeOutput p m).1, .payload (encodeOutput p m).2)

/-- **The envelope**: after any calls, exactly `F0 7D 53 34 payload F7` is accepted, with its
payload; earlier calls do not show, no access leaves the message, and the report is kept. -/
theorem encodeOutput_envelope (T : Tables) (start : S4GenericProtocol) (calls : List Call)
    (m : List UInt8) :
    let p := (object T).final start calls
    (∀ payload, (encodeOutput p m).2 = some payload ↔ m = wrapOutput payload) ∧
    (∀ payload, (encodeOutput p (wrapOutput payload)).2 = some payload) ∧
    (∀ m' payload, (encodeOutput p m).2 = some payload → (encodeOutput p m').2 = some payload →
      m = m') ∧
    (∀ start' calls', (encodeOutput p m).2 =
      (encodeOutput ((object T).final start' calls') m).2) ∧
    encodeOutputChecked p m = some (encodeOutput p m) ∧
    (encodeOutput p m).1.previousReport = p.previousReport := by
  intro p
  refine ⟨encodeOutput_eq_some p m, fun payload => ?_, fun m' payload h h' => ?_,
    fun start' calls' => encodeOutput_payload _ _ m, encodeOutputChecked_eq p m,
    encodeOutput_previousReport p m⟩
  · exact (encodeOutput_eq_some p _ payload).2 rfl
  · rw [(encodeOutput_eq_some p m payload).1 h, (encodeOutput_eq_some p m' payload).1 h']

theorem legalSysEx_wrapOutput {payload : List UInt8} :
    LegalSysEx (wrapOutput payload) ↔ ∀ b ∈ payload, b < 0x80 := by
  constructor
  · rintro ⟨data, hdata, h⟩ b hb
    have hd : data = [0x7D, 0x53, 0x34] ++ payload := by
      have h' : [0x7D, 0x53, 0x34] ++ payload ++ [0xF7] = data ++ [0xF7] := (List.cons.inj h).2
      exact (List.append_cancel_right h').symm
    exact hdata b (hd ▸ List.mem_append_right _ hb)
  · intro h
    refine ⟨[0x7D, 0x53, 0x34] ++ payload, fun b hb => ?_, by simp [wrapOutput]⟩
    rcases List.mem_append.1 hb with hb | hb
    · simp only [List.mem_cons, List.not_mem_nil, or_false] at hb
      rcases hb with rfl | rfl | rfl <;> decide
    · exact h b hb

/-- **The payloads that can be injected over MIDI** are those of 7-bit bytes. -/
theorem injectable_iff (p : S4GenericProtocol) (payload : List UInt8) :
    (∃ m, LegalSysEx m ∧ (encodeOutput p m).2 = some payload) ↔ ∀ b ∈ payload, b < 0x80 := by
  rw [← legalSysEx_wrapOutput]
  constructor
  · rintro ⟨m, hm, h⟩
    rwa [(encodeOutput_eq_some p m payload).1 h] at hm
  · intro h
    exact ⟨_, h, (encodeOutput_eq_some p _ payload).2 rfl⟩

/-- The padding of an LED packet cannot be injected. -/
theorem not_injectable_padding :
    ¬ ∃ m, LegalSysEx m ∧ (encodeOutput (.new 0 0 .byte) m).2 = some [0xFF, 0xAA] := by
  rintro ⟨m, hm, h⟩
  rw [(encodeOutput_eq_some _ m _).1 h, legalSysEx_wrapOutput] at hm
  exact absurd (hm 0xFF (.head _)) (by decide)

end Protocol
