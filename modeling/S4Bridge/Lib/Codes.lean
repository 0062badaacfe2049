import S4Bridge.Lib.Formatted

/-!
# Texts that can be read back

A `Code` writes values as texts and says what may follow such a text (`ends`) for it to be read back:
of one text and what follows it, only one value was written, and the rest is what follows. So codes
are put together without a parser: one after the other (`seq`), with a fixed text before (`lit`) or a
text that depends on the value behind (`tail`), and any number of them (`many`). `number` and `hex2`
are the numbers of formatted output, `line` any text that ends with its line.
-/

/-- Texts for the values of `α`, each readable before what satisfies `ends`. -/
structure Code (α : Type*) where
  text : α → List Char
  ends : List Char → Prop
  read : ∀ {a b : α} {s t : List Char}, ends s → ends t → text a ++ s = text b ++ t → a = b ∧ s = t

namespace Code

open Numerals Formatted

variable {α β : Type*}

/-- Two values with the same text are one. -/
theorem inj (c : Code α) (hend : c.ends []) {a b : α} (h : c.text a = c.text b) : a = b :=
  (c.read hend hend (congrArg (· ++ []) h)).1

/-! ## Putting codes together -/

/-- A fixed text before. -/
def lit (cs : List Char) (c : Code α) : Code α where
  text a := cs ++ c.text a
  ends := c.ends
  read hs ht h := by
    rw [List.append_assoc, List.append_assoc] at h
    exact c.read hs ht (List.append_cancel_left h)

/-- A text behind that depends on the value. -/
def tail (c : Code α) (rest : α → List Char) (hrest : ∀ a s, c.ends (rest a ++ s)) : Code α where
  text a := c.text a ++ rest a
  ends _ := True
  read {a b s t} _ _ h := by
    rw [List.append_assoc, List.append_assoc] at h
    obtain ⟨rfl, hst⟩ := c.read (hrest a s) (hrest b t) h
    exact ⟨rfl, List.append_cancel_left hst⟩

/-- One value behind the other. -/
def seq (c : Code α) (d : Code β) (h : ∀ b s, d.ends s → c.ends (d.text b ++ s)) :
    Code (α × β) where
  text p := c.text p.1 ++ d.text p.2
  ends := d.ends
  read {p q s t} hs ht heq := by
    rw [List.append_assoc, List.append_assoc] at heq
    obtain ⟨hfst, hrest⟩ := c.read (h p.2 s hs) (h q.2 t ht) heq
    obtain ⟨hsnd, hst⟩ := d.read hs ht hrest
    exact ⟨Prod.ext hfst hsnd, hst⟩

/-- Values that are known by others. -/
def map (c : Code β) (f : α → β) (hf : Function.Injective f) : Code α where
  text a := c.text (f a)
  ends := c.ends
  read hs ht h := by
    obtain ⟨hab, hst⟩ := c.read hs ht h
    exact ⟨hf hab, hst⟩

theorem read_many (c : Code α) {stop : List Char → Prop}
    (hitem : ∀ a s, ¬ stop (c.text a ++ s)) (hstop : ∀ s, stop s → c.ends s)
    (hnext : ∀ a s, c.ends (c.text a ++ s)) {as bs : List α} {s t : List Char} (hs : stop s)
    (ht : stop t) (h : as.flatMap c.text ++ s = bs.flatMap c.text ++ t) : as = bs ∧ s = t := by
  have hends : ∀ {cs : List α} {s : List Char}, stop s → c.ends (cs.flatMap c.text ++ s) := by
    intro cs s hs
    cases cs with
    | nil => exact hstop s hs
    | cons a cs =>
      rw [List.flatMap_cons, List.append_assoc]
      exact hnext a _
  induction as generalizing bs with
  | nil =>
    cases bs with
    | nil => exact ⟨rfl, h⟩
    | cons b bs =>
      rw [List.flatMap_nil, List.nil_append, List.flatMap_cons, List.append_assoc] at h
      exact absurd (h ▸ hs) (hitem b _)
  | cons a as ih =>
    rw [List.flatMap_cons, List.append_assoc] at h
    cases bs with
    | nil =>
      rw [List.flatMap_nil, List.nil_append] at h
      exact absurd (h ▸ ht) (hitem a _)
    | cons b bs =>
      rw [List.flatMap_cons, List.append_assoc] at h
      obtain ⟨rfl, hrest⟩ := c.read (hends hs) (hends ht) h
      obtain ⟨rfl, hst⟩ := ih hrest
      exact ⟨rfl, hst⟩

/-- Any number of values, up to a text that satisfies `stop` and is none of them. -/
def many (c : Code α) (stop : List Char → Prop) (hitem : ∀ a s, ¬ stop (c.text a ++ s))
    (hstop : ∀ s, stop s → c.ends s) (hnext : ∀ a s, c.ends (c.text a ++ s)) : Code (List α) where
  text as := as.flatMap c.text
  ends := stop
  read hs ht h := c.read_many hitem hstop hnext hs ht h

/-- Nothing but values. -/
theorem flatMap_inj (c : Code α) (hends : ∀ s, c.ends s) (hne : ∀ a, c.text a ≠ []) {as bs : List α}
    (h : as.flatMap c.text = bs.flatMap c.text) : as = bs := by
  have hread := @read_many α c (· = []) (fun a s hnil => hne a (List.append_eq_nil_iff.1 hnil).1)
    (fun s _ => hends s) (fun _ _ => hends _) as bs [] [] rfl rfl
  exact (hread (congrArg (· ++ []) h)).1

/-! ## Numbers -/

/-- No digit of the base comes first. -/
def NoDigit (base : Nat) (s : List Char) : Prop :=
  ∀ d ∈ s.head?, ¬ digitValue d < base

instance (base : Nat) (s : List Char) : Decidable (NoDigit base s) :=
  inferInstanceAs (Decidable (∀ d ∈ s.head?, _))

theorem noDigit_cons {base : Nat} {c : Char} (h : ¬ digitValue c < base) (s : List Char) :
    NoDigit base (c :: s) := fun d hd => by
  rw [← Option.some.inj hd]
  exact h

/-- The digits before what is no digit. -/
theorem takeWhile_digits {base : Nat} {ds s : List Char} (hds : Digits base ds)
    (hs : NoDigit base s) :
    (ds ++ s).takeWhile (fun c => decide (digitValue c < base)) = ds := by
  have hall : ∀ d ∈ ds, decide (digitValue d < base) = true := fun d hd =>
    decide_eq_true (hds.2 d hd)
  have hnone : s.takeWhile (fun c => decide (digitValue c < base)) = [] := by
    cases s with
    | nil => rfl
    | cons c s => exact List.takeWhile_cons_of_neg (by simpa using hs c rfl)
  rw [List.takeWhile_append_of_pos hall, hnone, List.append_nil]

/-- A number as `<<` writes it, without a width. -/
def number (base : Nat) (hlow : 2 ≤ base) (hhigh : base ≤ 16) : Code Nat where
  text n := Nat.toDigits base n
  ends := NoDigit base
  read {m n s t} hs ht h := by
    have hdigits : Nat.toDigits base m = Nat.toDigits base n := by
      rw [← takeWhile_digits (toDigits_read hlow hhigh m).1 hs, h,
        takeWhile_digits (toDigits_read hlow hhigh n).1 ht]
    refine ⟨toDigits_inj hlow hhigh hdigits, ?_⟩
    rw [hdigits] at h
    exact List.append_cancel_left h

def decimal : Code Nat := number 10 (by decide) (by decide)

def hexadecimal : Code Nat := number 16 (by decide) (by decide)

/-- Texts of one length, each of one value. -/
def fixed (text : α → List Char) (n : Nat) (hlength : ∀ a, (text a).length = n)
    (hinj : Function.Injective text) : Code α where
  text := text
  ends _ := True
  read {a b _ _} _ _ h := by
    obtain ⟨htext, hst⟩ := List.append_inj h ((hlength a).trans (hlength b).symm)
    exact ⟨hinj htext, hst⟩

/-- Texts without a newline, each of one value, with a newline behind. -/
def line (text : α → List Char) (hnewline : ∀ a, '\n' ∉ text a) (hinj : Function.Injective text) :
    Code α where
  text a := text a ++ ['\n']
  ends _ := True
  read {a b s t} _ _ h := by
    rw [List.append_assoc, List.append_assoc] at h
    have htake : ∀ c u, (text c ++ (['\n'] ++ u)).takeWhile (· ≠ '\n') = text c := by
      intro c u
      rw [List.takeWhile_append_of_pos, List.singleton_append,
        List.takeWhile_cons_of_neg (by simp), List.append_nil]
      intro d hd
      exact decide_eq_true fun heq => hnewline c (heq ▸ hd)
    have htext : text a = text b := by rw [← htake a s, h, htake b t]
    refine ⟨hinj htext, ?_⟩
    rw [htext] at h
    exact List.append_cancel_left (List.append_cancel_left h)

/-- The two digits of a byte. -/
def hexDigits (b : UInt8) : List Char := (Nat.toDigits 16 b.toNat).leftpad 2 '0'

theorem length_hexDigits (b : UInt8) : (hexDigits b).length = 2 := by
  have hle : (Nat.toDigits 16 b.toNat).length ≤ 2 := by
    rw [Nat.length_toDigits_le_iff (by decide) (by decide)]
    exact b.toNat_lt
  rw [hexDigits, List.leftpad, List.length_append, List.length_replicate]
  omega

theorem hexDigits_injective : Function.Injective hexDigits := by
  intro a b h
  have ha := @scan_leftpad 16 (by decide) (by decide) 2 a.toNat
  have hb := @scan_leftpad 16 (by decide) (by decide) 2 b.toNat
  rw [show (Nat.toDigits 16 a.toNat).leftpad 2 '0' = hexDigits a from rfl, h] at ha
  rw [show (Nat.toDigits 16 b.toNat).leftpad 2 '0' = hexDigits b from rfl, ha] at hb
  exact UInt8.toNat_inj.1 (congrArg Numeral.magnitude (Option.some.inj hb))

/-- A byte with `setw(2)`, `setfill('0')` and `hex`. -/
def hex2 : Code UInt8 := fixed hexDigits 2 length_hexDigits hexDigits_injective

end Code
