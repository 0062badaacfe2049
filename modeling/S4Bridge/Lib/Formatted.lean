import S4Bridge.Lib.Numerals

/-!
# Formatted output

The part of a C++ output stream that formats. The base and the fill character stay until they are
set again; the width is that of the next item only, which is filled up to it on its left. A number
written in a base up to 16, filled up with zeros or not at all, is read back by `scan`
(`scan_leftpad`).
-/

namespace Formatted

open Numerals

structure Stream where
  text : List Char := []
  base : Nat := 10
  fill : Char := ' '
  width : Nat := 0
  deriving DecidableEq, Repr

namespace Stream

def hex (s : Stream) : Stream := { s with base := 16 }

def dec (s : Stream) : Stream := { s with base := 10 }

def setfill (s : Stream) (c : Char) : Stream := { s with fill := c }

def setw (s : Stream) (n : Nat) : Stream := { s with width := n }

/-- `<<`, of an item with the given characters. -/
def put (s : Stream) (item : List Char) : Stream :=
  { s with text := s.text ++ item.leftpad s.width s.fill, width := 0 }

def putChar (s : Stream) (c : Char) : Stream := s.put [c]

def putNat (s : Stream) (n : Nat) : Stream := s.put (Nat.toDigits s.base n)

def putText (s : Stream) (text : String) : Stream := s.put text.toList

/-- `<< endl`, which is no item: it neither fills nor ends the width. -/
def endl (s : Stream) : Stream := { s with text := s.text ++ ['\n'] }

@[simp] theorem base_setw (s : Stream) (n : Nat) : (s.setw n).base = s.base := rfl

@[simp] theorem fill_setw (s : Stream) (n : Nat) : (s.setw n).fill = s.fill := rfl

@[simp] theorem base_putChar (s : Stream) (c : Char) : (s.putChar c).base = s.base := rfl

@[simp] theorem fill_putChar (s : Stream) (c : Char) : (s.putChar c).fill = s.fill := rfl

@[simp] theorem text_putChar {s : Stream} (h : s.width = 0) (c : Char) :
    (s.putChar c).text = s.text ++ [c] := by
  simp [putChar, put, h, List.leftpad]

@[simp] theorem base_putNat (s : Stream) (n : Nat) : (s.putNat n).base = s.base := rfl

@[simp] theorem fill_putNat (s : Stream) (n : Nat) : (s.putNat n).fill = s.fill := rfl

@[simp] theorem width_putNat (s : Stream) (n : Nat) : (s.putNat n).width = 0 := rfl

@[simp] theorem text_setw_putNat (s : Stream) (width n : Nat) :
    ((s.setw width).putNat n).text = s.text ++ (Nat.toDigits s.base n).leftpad width s.fill := rfl

/-- The stream as a program finds and leaves it: the base is ten and no width is set. -/
structure Plain (s : Stream) : Prop where
  base : s.base = 10
  width : s.width = 0

@[simp] theorem width_put (s : Stream) (item : List Char) : (s.put item).width = 0 := by
  simp only [put]

@[simp] theorem base_put (s : Stream) (item : List Char) : (s.put item).base = s.base := rfl

@[simp] theorem fill_put (s : Stream) (item : List Char) : (s.put item).fill = s.fill := rfl

@[simp] theorem text_put {s : Stream} (h : s.width = 0) (item : List Char) :
    (s.put item).text = s.text ++ item := by
  simp [put, h, List.leftpad]

@[simp] theorem hex_fields (s : Stream) :
    s.hex.text = s.text ∧ s.hex.base = 16 ∧ s.hex.fill = s.fill ∧ s.hex.width = s.width :=
  ⟨rfl, rfl, rfl, rfl⟩

@[simp] theorem dec_fields (s : Stream) :
    s.dec.text = s.text ∧ s.dec.base = 10 ∧ s.dec.fill = s.fill ∧ s.dec.width = s.width :=
  ⟨rfl, rfl, rfl, rfl⟩

theorem Plain.endl {s : Stream} (h : s.Plain) : s.endl.Plain := ⟨h.base, h.width⟩

@[simp] theorem text_endl (s : Stream) : s.endl.text = s.text ++ ['\n'] := rfl

/-- The operation adds the text to a plain stream, and leaves it plain. -/
def Writes (op : Stream → Stream) (text : List Char) : Prop :=
  ∀ s, s.Plain → (op s).Plain ∧ (op s).text = s.text ++ text

theorem Writes.comp {f g : Stream → Stream} {s t : List Char} (hg : Writes g t) (hf : Writes f s) :
    Writes (g ∘ f) (s ++ t) := by
  intro cout hcout
  obtain ⟨hfirst, hfirstText⟩ := hf cout hcout
  obtain ⟨hsecond, hsecondText⟩ := hg (f cout) hfirst
  refine ⟨hsecond, ?_⟩
  rw [Function.comp_apply, hsecondText, hfirstText, List.append_assoc]

/-- A loop adds the texts of its rounds. -/
theorem Writes.foldl {α : Type*} {op : Stream → α → Stream} {text : α → List Char}
    (h : ∀ a, Writes (op · a) (text a)) (as : List α) :
    Writes (as.foldl op) (as.flatMap text) := by
  intro cout hcout
  induction as generalizing cout with
  | nil => exact ⟨hcout, (List.append_nil _).symm⟩
  | cons a as ih =>
    obtain ⟨hfirst, hfirstText⟩ := h a cout hcout
    obtain ⟨hrest, hrestText⟩ := ih (op cout a) hfirst
    refine ⟨hrest, ?_⟩
    rw [List.flatMap_cons, ← List.append_assoc, ← hfirstText]
    exact hrestText

end Stream

/-! ## Numbers read back -/

theorem digitValue_digitChar {d : Nat} (h : d < 16) : digitValue d.digitChar = d :=
  (by decide : ∀ d < 16, digitValue (Nat.digitChar d) = d) d h

theorem ofDigits_concat (base : Nat) (ds : List Char) (d : Char) :
    ofDigits base (ds ++ [d]) = ofDigits base ds * base + digitValue d := by
  simp [ofDigits]

/-- The digits of a number are digits, and stand for the number. -/
theorem toDigits_read {base : Nat} (hlow : 2 ≤ base) (hhigh : base ≤ 16) (n : Nat) :
    Digits base (Nat.toDigits base n) ∧ ofDigits base (Nat.toDigits base n) = n := by
  induction n using Nat.strongRecOn with
  | ind n ih =>
    rcases Nat.lt_or_ge n base with hlt | hge
    · have hdigit := digitValue_digitChar (Nat.lt_of_lt_of_le hlt hhigh)
      rw [Nat.toDigits_of_lt_base hlt]
      refine ⟨⟨by simp, fun d hd => ?_⟩, ?_⟩
      · rw [List.mem_singleton.1 hd, hdigit]
        exact hlt
      · simp [ofDigits, hdigit]
    · -- the last digit is the rest of the division, those before it are the digits of the quotient
      have hrest : n % base < base := Nat.mod_lt n (by omega)
      have hdigit := digitValue_digitChar (Nat.lt_of_lt_of_le hrest hhigh)
      obtain ⟨⟨hne, hdigits⟩, hvalue⟩ := ih (n / base) (Nat.div_lt_self (by omega) hlow)
      rw [Nat.toDigits_of_base_le hlow hge]
      refine ⟨⟨by simp, fun d hd => ?_⟩, ?_⟩
      · rcases List.mem_append.1 hd with hd | hd
        · exact hdigits d hd
        · rw [List.mem_singleton.1 hd, hdigit]
          exact hrest
      · rw [ofDigits_concat, hvalue, hdigit, Nat.div_add_mod']

theorem toDigits_inj {base : Nat} (hlow : 2 ≤ base) (hhigh : base ≤ 16) {m n : Nat}
    (h : Nat.toDigits base m = Nat.toDigits base n) : m = n := by
  rw [← (toDigits_read hlow hhigh m).2, h, (toDigits_read hlow hhigh n).2]

/-- Zeros in front change nothing. -/
theorem ofDigits_leftpad (base width : Nat) (ds : List Char) :
    ofDigits base (ds.leftpad width '0') = ofDigits base ds := by
  have hzeros : ∀ k, (List.replicate k '0').foldl (fun n d => n * base + digitValue d) 0 = 0 := by
    intro k
    induction k with
    | zero => rfl
    | succ k ih =>
      have hzero : 0 * base + digitValue '0' = 0 := by simp [digitValue]
      rw [List.replicate_succ, List.foldl_cons, hzero, ih]
  rw [ofDigits, List.leftpad, List.foldl_append, hzeros, ofDigits]

theorem digits_leftpad {base : Nat} (hbase : 0 < base) (width : Nat) {ds : List Char}
    (h : Digits base ds) : Digits base (ds.leftpad width '0') := by
  obtain ⟨hne, hdigits⟩ := h
  refine ⟨by simp [List.leftpad, hne], fun d hd => ?_⟩
  rcases List.mem_append.1 hd with hd | hd
  · rw [List.eq_of_mem_replicate hd]
    exact hbase
  · exact hdigits d hd

/-- **A number written is read back**, as a whole. -/
theorem scan_leftpad {base : Nat} (hlow : 2 ≤ base) (hhigh : base ≤ 16) (width n : Nat) :
    scan base ((Nat.toDigits base n).leftpad width '0') = some ⟨false, n, []⟩ := by
  obtain ⟨hdigits, hvalue⟩ := toDigits_read hlow hhigh n
  have hunsigned : Unsigned base ((Nat.toDigits base n).leftpad width '0') n := by
    have hread := Unsigned.based (by omega) (digits_leftpad (by omega) width hdigits)
    rwa [ofDigits_leftpad, hvalue] at hread
  exact @scan_unsigned base _ n (by omega) [] [] (by simp) hunsigned false (.inl ⟨.inl rfl, rfl⟩)

end Formatted
