import Mathlib.Data.List.TakeWhile

/-!
# Numerals in text

`scan base` reads the numeral a text begins with, as the C functions `strtol` and `strtoul` do in the
C locale: white space, a sign, a prefix where the base allows one, digits; what follows is left. Base
0 is that of C source texts, in which a prefix chooses the base. `Denotes base text v` says without a
scanner that the text, all of it, is such a numeral for `v`; `denotes_iff` connects the two.
-/

namespace Numerals

/-- White space of the C locale. -/
def isSpace (c : Char) : Bool := c.toNat = 0x20 || (9 ≤ c.toNat && c.toNat ≤ 13)

/-- The value of a digit or letter, and 36 for any other character. -/
def digitValue (c : Char) : Nat :=
  let n := c.toNat
  if 0x30 ≤ n ∧ n ≤ 0x39 then n - 0x30
  else if 0x61 ≤ n ∧ n ≤ 0x7A then n - 0x61 + 10
  else if 0x41 ≤ n ∧ n ≤ 0x5A then n - 0x41 + 10
  else 36

/-! ## The scanner -/

def ofDigits (base : Nat) (ds : List Char) : Nat :=
  ds.foldl (fun n d => n * base + digitValue d) 0

/-- A numeral and the text behind it. -/
structure Numeral where
  negative : Bool
  magnitude : Nat
  rest : List Char
  deriving DecidableEq, Repr

def Numeral.value (m : Numeral) : Int := if m.negative then -m.magnitude else m.magnitude

def takeSign : List Char → Bool × List Char
  | '-' :: cs => (true, cs)
  | '+' :: cs => (false, cs)
  | cs => (false, cs)

/-- The text behind `0x`, if a hexadecimal digit follows. -/
def dropHex : List Char → Option (List Char)
  | '0' :: x :: d :: cs =>
    if (x = 'x' ∨ x = 'X') ∧ digitValue d < 16 then some (d :: cs) else none
  | _ => none

/-- The base of the digits, and the text from them on. -/
def takeBase (base : Nat) (cs : List Char) : Nat × List Char :=
  if base = 0 ∨ base = 16 then
    match dropHex cs with
    | some ds => (16, ds)
    | none => (if base = 16 then 16 else if cs.head? = some '0' then 8 else 10, cs)
  else (base, cs)

def scan (base : Nat) (text : List Char) : Option Numeral :=
  let (negative, cs) := takeSign (text.dropWhile isSpace)
  let (base, cs) := takeBase base cs
  let ds := cs.takeWhile fun c => digitValue c < base
  if ds.isEmpty then none
  else some ⟨negative, ofDigits base ds, cs.dropWhile fun c => digitValue c < base⟩

/-! ## The grammar -/

def Digits (base : Nat) (ds : List Char) : Prop := ds ≠ [] ∧ ∀ d ∈ ds, digitValue d < base

/-- A numeral without its sign, and what it stands for. -/
inductive Unsigned (base : Nat) : List Char → Nat → Prop
  | based {ds : List Char} : base ≠ 0 → Digits base ds → Unsigned base ds (ofDigits base ds)
  | decimal {ds : List Char} : base = 0 → ds.head? ≠ some '0' → Digits 10 ds →
      Unsigned base ds (ofDigits 10 ds)
  | octal {ds : List Char} : base = 0 → ds.head? = some '0' → Digits 8 ds →
      Unsigned base ds (ofDigits 8 ds)
  | hex {x : Char} {ds : List Char} : base = 0 ∨ base = 16 → x = 'x' ∨ x = 'X' → Digits 16 ds →
      Unsigned base ('0' :: x :: ds) (ofDigits 16 ds)

/-- The whole text is a numeral for `v`. -/
def Denotes (base : Nat) (text : List Char) (v : Int) : Prop :=
  ∃ spaces sign cs n, text = spaces ++ (sign ++ cs) ∧ (∀ c ∈ spaces, isSpace c = true) ∧
    Unsigned base cs n ∧
    ((sign = [] ∨ sign = ['+']) ∧ v = n ∨ sign = ['-'] ∧ v = -(n : Int))

/-! ## Characters -/

theorem digitValue_of_isSpace {c : Char} (h : isSpace c = true) : digitValue c = 36 := by
  simp only [isSpace, Bool.or_eq_true, Bool.and_eq_true, decide_eq_true_eq] at h
  unfold digitValue
  simp only
  rw [if_neg (by omega), if_neg (by omega), if_neg (by omega)]

theorem takeSign_digit {c : Char} (h : digitValue c < 36) (cs : List Char) :
    takeSign (c :: cs) = (false, c :: cs) := by
  unfold takeSign
  split
  · rename_i heq
    obtain ⟨rfl, -⟩ := List.cons.inj heq
    exact absurd h (by decide)
  · rename_i heq
    obtain ⟨rfl, -⟩ := List.cons.inj heq
    exact absurd h (by decide)
  · rfl

/-- What `takeSign` takes. -/
theorem takeSign_cases (cs : List Char) :
    ∃ sign, cs = sign ++ (takeSign cs).2 ∧
      ((sign = [] ∨ sign = ['+']) ∧ (takeSign cs).1 = false ∨
        sign = ['-'] ∧ (takeSign cs).1 = true) := by
  unfold takeSign
  split
  · exact ⟨['-'], rfl, .inr ⟨rfl, rfl⟩⟩
  · exact ⟨['+'], rfl, .inl ⟨.inr rfl, rfl⟩⟩
  · exact ⟨[], rfl, .inl ⟨.inl rfl, rfl⟩⟩

/-- No prefix is taken from digits of a smaller base. -/
theorem dropHex_digits {base : Nat} (hbase : base ≤ 16) {ds : List Char} (h : Digits base ds) :
    dropHex ds = none := by
  unfold dropHex
  split
  · rename_i x d cs
    refine if_neg fun hx => ?_
    have hdigit := h.2 x (by simp)
    rcases hx.1 with rfl | rfl
    · have : digitValue 'x' = 33 := by decide
      omega
    · have : digitValue 'X' = 33 := by decide
      omega
  · rfl

theorem dropHex_some {cs ds : List Char} (h : dropHex cs = some ds) :
    ∃ x, (x = 'x' ∨ x = 'X') ∧ cs = '0' :: x :: ds := by
  unfold dropHex at h
  split at h
  · rename_i x d cs
    split at h
    · rename_i hx
      exact ⟨x, hx.1, by rw [Option.some.inj h]⟩
    · cases h
  · cases h

/-! ## The scanner reads the grammar -/

variable {base : Nat} {cs text : List Char} {n : Nat}

theorem takeBase_unsigned (h : Unsigned base cs n) :
    ∃ b ds, takeBase base cs = (b, ds) ∧ Digits b ds ∧ ofDigits b ds = n := by
  cases h with
  | based hbase hds =>
    by_cases hhex : base = 16
    · subst hhex
      refine ⟨16, cs, ?_, hds, rfl⟩
      rw [takeBase, dropHex_digits (Nat.le_refl 16) hds]
      rfl
    · refine ⟨base, cs, ?_, hds, rfl⟩
      rw [takeBase, if_neg (not_or_intro hbase hhex)]
  | decimal hbase hzero hds =>
    refine ⟨10, cs, ?_, hds, rfl⟩
    rw [takeBase, if_pos (.inl hbase), dropHex_digits (by decide) hds, hbase]
    simp [hzero]
  | octal hbase hzero hds =>
    refine ⟨8, cs, ?_, hds, rfl⟩
    rw [takeBase, if_pos (.inl hbase), dropHex_digits (by decide) hds, hbase]
    simp [hzero]
  | @hex x ds hbase hx hds =>
    refine ⟨16, ds, ?_, hds, rfl⟩
    obtain ⟨hne, hdigits⟩ := hds
    obtain ⟨d, ds, rfl⟩ := List.exists_cons_of_ne_nil hne
    rw [takeBase, if_pos hbase, dropHex, if_pos ⟨hx, hdigits d (by simp)⟩]

theorem unsigned_takeBase {b : Nat} {ds : List Char} (h : takeBase base cs = (b, ds))
    (hds : Digits b ds) : Unsigned base cs (ofDigits b ds) := by
  unfold takeBase at h
  split at h
  · rename_i hbase
    cases hhex : dropHex cs with
    | some tail =>
      rw [hhex] at h
      obtain ⟨rfl, rfl⟩ := Prod.mk.inj h
      obtain ⟨x, hx, rfl⟩ := dropHex_some hhex
      exact .hex hbase hx hds
    | none =>
      rw [hhex] at h
      obtain ⟨rfl, rfl⟩ := Prod.mk.inj h
      rcases hbase with rfl | rfl
      · by_cases hzero : cs.head? = some '0'
        · rw [if_neg (by decide), if_pos hzero] at hds ⊢
          exact .octal rfl hzero hds
        · rw [if_neg (by decide), if_neg hzero] at hds ⊢
          exact .decimal rfl hzero hds
      · exact .based (by decide) hds
  · rename_i hbase
    obtain ⟨rfl, rfl⟩ := Prod.mk.inj h
    exact .based (fun hzero => hbase (.inl hzero)) hds

/-- A numeral begins with a digit. -/
theorem unsigned_head (hbase : base ≤ 36) (h : Unsigned base cs n) :
    ∃ c tail, cs = c :: tail ∧ digitValue c < 36 := by
  have hfirst : ∀ {b : Nat} {ds : List Char}, b ≤ 36 → Digits b ds →
      ∃ c tail, ds = c :: tail ∧ digitValue c < 36 := by
    intro b ds hb hds
    obtain ⟨c, tail, rfl⟩ := List.exists_cons_of_ne_nil hds.1
    exact ⟨c, tail, rfl, Nat.lt_of_lt_of_le (hds.2 c (by simp)) hb⟩
  cases h with
  | based _ hds => exact hfirst hbase hds
  | decimal _ _ hds => exact hfirst (by decide) hds
  | octal _ _ hds => exact hfirst (by decide) hds
  | hex _ _ _ => exact ⟨'0', _, rfl, by decide⟩

/-- The scanner on white space, a sign and a numeral. -/
theorem scan_unsigned (hbase : base ≤ 36) {spaces sign : List Char}
    (hspaces : ∀ c ∈ spaces, isSpace c = true) (h : Unsigned base cs n) {negative : Bool}
    (hsign : (sign = [] ∨ sign = ['+']) ∧ negative = false ∨ sign = ['-'] ∧ negative = true) :
    scan base (spaces ++ (sign ++ cs)) = some ⟨negative, n, []⟩ := by
  obtain ⟨c, tail, hcs, hdigit⟩ := unsigned_head hbase h
  obtain ⟨b, ds, htake, ⟨hne, hdigits⟩, hn⟩ := takeBase_unsigned h
  have hstart : (sign ++ cs).dropWhile isSpace = sign ++ cs ∧
      takeSign (sign ++ cs) = (negative, cs) := by
    have hnot : isSpace c = false := by
      rw [Bool.eq_false_iff]
      intro hspace
      rw [digitValue_of_isSpace hspace] at hdigit
      omega
    rcases hsign with ⟨rfl | rfl, rfl⟩ | ⟨rfl, rfl⟩
    · rw [hcs]
      exact ⟨List.dropWhile_cons_of_neg (by simp [hnot]), takeSign_digit hdigit tail⟩
    · exact ⟨rfl, rfl⟩
    · exact ⟨rfl, rfl⟩
  have hall : ∀ d ∈ ds, (fun c => decide (digitValue c < b)) d = true := fun d hd =>
    decide_eq_true (hdigits d hd)
  have htaken : ds.takeWhile (fun c => decide (digitValue c < b)) = ds :=
    List.takeWhile_eq_self_iff.2 hall
  have hdropped : ds.dropWhile (fun c => decide (digitValue c < b)) = [] :=
    List.dropWhile_eq_nil_iff.2 hall
  have hempty : ds.isEmpty = false := by simpa using hne
  rw [scan, List.dropWhile_append_of_pos hspaces, hstart.1, hstart.2]
  simp only [htake, htaken, hdropped, hempty, hn, Bool.false_eq_true, if_false]

/-- What the scanner has read when it leaves nothing. -/
theorem scan_whole {m : Numeral} (h : scan base text = some m) (hrest : m.rest = []) :
    Denotes base text m.value := by
  unfold scan at h
  obtain ⟨sign, hsign, hneg⟩ := takeSign_cases (text.dropWhile isSpace)
  generalize hcs : takeSign (text.dropWhile isSpace) = signed at h hsign hneg
  obtain ⟨negative, cs⟩ := signed
  simp only at h hsign hneg
  cases htake : takeBase base cs with
  | mk b ds =>
    rw [htake] at h
    simp only at h
    split at h
    · cases h
    · rename_i hne
      obtain rfl := Option.some.inj h
      have hall := List.dropWhile_eq_nil_iff.1 hrest
      have htaken := List.takeWhile_eq_self_iff.2 hall
      rw [htaken] at hne ⊢
      have hds : Digits b ds :=
        ⟨fun hnil => hne (by rw [hnil]; rfl), fun d hd => of_decide_eq_true (hall d hd)⟩
      refine ⟨text.takeWhile isSpace, sign, cs, ofDigits b ds, ?_, fun c hc => ?_,
        unsigned_takeBase htake hds, ?_⟩
      · rw [← hsign, List.takeWhile_append_dropWhile]
      · exact List.mem_takeWhile_imp hc
      · rcases hneg with ⟨hsign, rfl⟩ | ⟨hsign, rfl⟩
        · exact .inl ⟨hsign, rfl⟩
        · exact .inr ⟨hsign, rfl⟩

/-- **The scanner reads the grammar**: a text is a numeral exactly if the scanner reads it and
leaves nothing. -/
theorem denotes_iff (hbase : base ≤ 36) {v : Int} :
    Denotes base text v ↔ ∃ m, scan base text = some m ∧ m.rest = [] ∧ m.value = v := by
  constructor
  · rintro ⟨spaces, sign, cs, n, rfl, hspaces, hunsigned, ⟨hsign, rfl⟩ | ⟨hsign, rfl⟩⟩
    · exact ⟨_, scan_unsigned hbase hspaces hunsigned (.inl ⟨hsign, rfl⟩), rfl, rfl⟩
    · exact ⟨_, scan_unsigned hbase hspaces hunsigned (.inr ⟨hsign, rfl⟩), rfl, rfl⟩
  · rintro ⟨m, hscan, hrest, rfl⟩
    exact scan_whole hscan hrest

/-- Where the scanner reads a numeral, it is the only one the text can be. -/
theorem denotes_scan (hbase : base ≤ 36) {m : Numeral} (h : scan base text = some m) {v : Int} :
    Denotes base text v ↔ m.rest = [] ∧ m.value = v := by
  rw [denotes_iff hbase, h]
  simp

end Numerals
