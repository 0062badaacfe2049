import Mathlib.Algebra.Order.Ring.Nat

/-!
# Doubles

`Rounding.round p` rounds a natural number to `p` significant bits, to the nearest of the numbers that
have no more (`Fits`) and to the even one of two. It leaves these as they are (`round_of_fits`), gives
one of them (`fits_round`) and is monotone (`round_mono`), so that a comparison with one of them is
hardly changed by rounding: `lt_of_round_lt`.

`Binary64` is the type of the finite doubles that are not negative. A double is a multiple of `2 ^ -1074`
with at most 53 significant bits, and so is kept as a natural number; differences are rounded
(`Binary64.sub`), and what a comparison of one with a third double says of the
exact difference is `lt_of_sub_lt` and `sub_lt_of_le`.
-/

namespace Rounding

/-- `n` has at most `p` significant bits. -/
def Fits (p n : Nat) : Prop := ∃ m e, m < 2 ^ p ∧ n = m * 2 ^ e

/-- The bits of `n` behind the first `p`. -/
def excess (p n : Nat) : Nat := n.log2 + 1 - p

/-- `n / d`, rounded to the nearest number and halves to an even one. -/
def nearestEven (n d : Nat) : Nat :=
  if d < 2 * (n % d) ∨ 2 * (n % d) = d ∧ n / d % 2 = 1 then n / d + 1 else n / d

/-- `n`, rounded to `p` significant bits. -/
def round (p n : Nat) : Nat := nearestEven n (2 ^ excess p n) * 2 ^ excess p n

/-! ## Quotients -/

section
variable {n n' d k : Nat}

theorem le_nearestEven (hd : 0 < d) (h : k * d ≤ n) : k ≤ nearestEven n d := by
  have hquotient : k ≤ n / d := (Nat.le_div_iff_mul_le hd).2 h
  unfold nearestEven
  split
  · exact Nat.le_succ_of_le hquotient
  · exact hquotient

theorem nearestEven_le (hd : 0 < d) (h : n ≤ k * d) : nearestEven n d ≤ k := by
  have hquotient : n / d ≤ k := Nat.div_le_of_le_mul (Nat.mul_comm k d ▸ h)
  unfold nearestEven
  split
  · -- a number that is rounded up is no multiple of `d`
    rename_i hup
    have hrest : n % d ≠ 0 := by
      intro hzero
      rw [hzero] at hup
      omega
    refine Nat.lt_of_le_of_ne hquotient fun hk => hrest ?_
    have hdiv := Nat.div_add_mod n d
    rw [hk, Nat.mul_comm] at hdiv
    omega
  · exact hquotient

theorem nearestEven_of_eq_mul (hd : 0 < d) (h : n = k * d) : nearestEven n d = k :=
  Nat.le_antisymm (nearestEven_le hd h.le) (le_nearestEven hd h.ge)

theorem nearestEven_mono (hd : 0 < d) (h : n ≤ n') : nearestEven n d ≤ nearestEven n' d := by
  rcases Nat.lt_or_ge (n / d) (n' / d) with hlt | hge
  · have hup : n ≤ (n / d + 1) * d := by
      rw [Nat.add_mul, Nat.one_mul]
      exact (Nat.lt_div_mul_add hd).le
    calc nearestEven n d ≤ n / d + 1 := nearestEven_le hd hup
      _ ≤ n' / d := hlt
      _ ≤ nearestEven n' d := le_nearestEven hd (Nat.div_mul_le_self n' d)
  · have hquotient : n / d = n' / d := Nat.le_antisymm (Nat.div_le_div_right h) hge
    have hrest : n % d ≤ n' % d := by
      have hdiv := Nat.div_add_mod n d
      have hdiv' := Nat.div_add_mod n' d
      rw [hquotient] at hdiv
      omega
    unfold nearestEven
    rw [hquotient]
    split
    · rw [if_pos]
      omega
    · split <;> omega

end

/-! ## Significant bits -/

section
variable {p n n' : Nat}

theorem lt_two_pow_excess (p n : Nat) : n < 2 ^ p * 2 ^ excess p n := by
  have hbits : n.log2 + 1 ≤ p + excess p n := by
    unfold excess
    omega
  rw [← Nat.pow_add]
  exact Nat.lt_of_lt_of_le Nat.lt_log2_self (Nat.pow_le_pow_right (by decide) hbits)

/-- What is rounded fits. -/
theorem fits_round (hp : 0 < p) (n : Nat) : Fits p (round p n) := by
  have hle : nearestEven n (2 ^ excess p n) ≤ 2 ^ p :=
    nearestEven_le (Nat.two_pow_pos _) (lt_two_pow_excess p n).le
  rcases Nat.lt_or_eq_of_le hle with hlt | heq
  · exact ⟨_, _, hlt, rfl⟩
  · refine ⟨1, p + excess p n, Nat.one_lt_two_pow (by omega), ?_⟩
    rw [round, heq, Nat.one_mul, Nat.pow_add]

/-- What fits stays as it is. -/
theorem round_of_fits (hp : 0 < p) (h : Fits p n) : round p n = n := by
  obtain ⟨m, e, hm, rfl⟩ := h
  have hexcess : excess p (m * 2 ^ e) ≤ e := by
    unfold excess
    rcases Nat.eq_zero_or_pos (m * 2 ^ e) with hzero | hpos
    · rw [hzero, Nat.log2_zero]
      omega
    · have hlt : m * 2 ^ e < 2 ^ (p + e) := by
        rw [Nat.pow_add]
        exact Nat.mul_lt_mul_of_pos_right hm (Nat.two_pow_pos e)
      have hlog := (Nat.log2_lt (Nat.ne_of_gt hpos)).2 hlt
      omega
  have hmultiple : m * 2 ^ e = m * 2 ^ (e - excess p (m * 2 ^ e)) * 2 ^ excess p (m * 2 ^ e) := by
    rw [Nat.mul_assoc, ← Nat.pow_add, Nat.sub_add_cancel hexcess]
  rw [round, nearestEven_of_eq_mul (Nat.two_pow_pos _) hmultiple, ← hmultiple]

/-- A larger number is not rounded to a smaller one. -/
theorem round_mono (hp : 0 < p) (h : n ≤ n') : round p n ≤ round p n' := by
  rcases Nat.eq_zero_or_pos n with rfl | hpos
  · have hzero : round p 0 = 0 := round_of_fits hp ⟨0, 0, Nat.two_pow_pos p, rfl⟩
    rw [hzero]
    exact Nat.zero_le _
  · have hlog : 2 ^ n.log2 ≤ n' := (Nat.log2_self_le (Nat.ne_of_gt hpos)).trans h
    have hle : n.log2 ≤ n'.log2 := (Nat.le_log2 (by omega)).2 hlog
    rcases Nat.eq_or_lt_of_le (show excess p n ≤ excess p n' by unfold excess; omega) with heq | hlt
    · unfold round
      rw [heq]
      exact Nat.mul_le_mul_right _ (nearestEven_mono (Nat.two_pow_pos _) h)
    · -- a power of two lies between them
      have hn : excess p n ≤ n'.log2 := by unfold excess at hlt ⊢; omega
      have hn' : excess p n' ≤ n'.log2 := by unfold excess; omega
      have hbetween : n ≤ 2 ^ n'.log2 := by
        refine Nat.lt_log2_self.le.trans (Nat.pow_le_pow_right (by decide) ?_)
        unfold excess at hlt
        omega
      calc round p n ≤ 2 ^ (n'.log2 - excess p n) * 2 ^ excess p n := by
            refine Nat.mul_le_mul_right _ (nearestEven_le (Nat.two_pow_pos _) ?_)
            rwa [← Nat.pow_add, Nat.sub_add_cancel hn]
        _ = 2 ^ (n'.log2 - excess p n') * 2 ^ excess p n' := by
            rw [← Nat.pow_add, ← Nat.pow_add, Nat.sub_add_cancel hn, Nat.sub_add_cancel hn']
        _ ≤ round p n' := by
            refine Nat.mul_le_mul_right _ (le_nearestEven (Nat.two_pow_pos _) ?_)
            rw [← Nat.pow_add, Nat.sub_add_cancel hn']
            exact Nat.log2_self_le (by omega)

/-- What is rounded to less than a number that fits was less. -/
theorem lt_of_round_lt (hp : 0 < p) (hfits : Fits p n') (h : round p n < n') : n < n' := by
  by_contra hge
  have hle := round_mono hp (Nat.le_of_not_lt hge)
  rw [round_of_fits hp hfits] at hle
  omega

end

end Rounding

open Rounding

/-- A finite double that is not negative, in units of `2 ^ -1074`. -/
@[ext]
structure Binary64 where
  units : Nat
  fits : Fits 53 units
  finite : units < 2 ^ 2098
  deriving DecidableEq, Repr

namespace Binary64

instance : LinearOrder Binary64 := LinearOrder.lift' units fun _ _ => Binary64.ext

variable {a b c : Binary64}

theorem lt_iff : a < b ↔ a.units < b.units := Iff.rfl

/-- `m / 2 ^ k` -/
def dyadic (m k : Nat) (hm : m < 2 ^ 53) (hk : k ≤ 1074) : Binary64 where
  units := m * 2 ^ (1074 - k)
  fits := ⟨m, 1074 - k, hm, rfl⟩
  finite := by
    have hbits : m * 2 ^ (1074 - k) < 2 ^ (53 + (1074 - k)) := by
      rw [Nat.pow_add]
      exact Nat.mul_lt_mul_of_pos_right hm (Nat.two_pow_pos _)
    exact Nat.lt_of_lt_of_le hbits (pow_le_pow_right₀ (by decide) (by omega))

/-- `a - b`, where `b` is not the greater one. -/
def sub (a b : Binary64) : Binary64 where
  units := round 53 (a.units - b.units)
  fits := fits_round (by decide) _
  finite := by
    have hle : round 53 (a.units - b.units) ≤ round 53 a.units :=
      round_mono (by decide) (Nat.sub_le ..)
    rw [round_of_fits (by decide) a.fits] at hle
    exact Nat.lt_of_le_of_lt hle a.finite

instance : Sub Binary64 := ⟨sub⟩

theorem units_sub (a b : Binary64) : (a - b).units = round 53 (a.units - b.units) := rfl

/-- A difference that is rounded to less than a double was less. -/
theorem lt_of_sub_lt (h : a - b < c) : a.units < b.units + c.units := by
  have hexact : a.units - b.units < c.units := lt_of_round_lt (by decide) c.fits h
  omega

/-- A difference of at most `n` units is less than a double that `n` is rounded below. -/
theorem sub_lt_of_le {n : Nat} (hn : round 53 n < c.units) (h : a.units ≤ b.units + n) :
    a - b < c := by
  have hle : round 53 (a.units - b.units) ≤ round 53 n := round_mono (by decide) (by omega)
  rw [lt_iff, units_sub]
  omega

end Binary64
