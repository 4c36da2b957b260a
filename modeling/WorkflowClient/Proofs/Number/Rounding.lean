import Mathlib.Algebra.Order.Floor.Semifield
import Mathlib.Data.Int.Log
import Mathlib.Data.Rat.Floor
import Mathlib.Tactic.FieldSimp
import Mathlib.Tactic.Linarith
import Mathlib.Tactic.Ring
import WorkflowClient.Number.Double

/-! The double nearest to a quotient depends on the quotient alone, not on how it is written. -/
namespace WorkflowClient.Number.Double

variable {a b m n d : Nat} {e x : Int} {s : Bool} {q : ℚ}

/-- The natural nearest to a number, a half to the even one. -/
def nearestNat (q : ℚ) : Nat :=
  if 2 * (q - ⌊q⌋₊) < 1 then ⌊q⌋₊
  else if 1 < 2 * (q - ⌊q⌋₊) then ⌊q⌋₊ + 1
  else ⌊q⌋₊ + ⌊q⌋₊ % 2

/-- The power of two whose multiples a number is rounded to. -/
def gridOf (q : ℚ) : Int := max (-1074) (Int.log 2 q - 52)

/-- The double nearest to a number that is not negative, with a sign. -/
def nearest (s : Bool) (q : ℚ) : Double :=
  if q = 0 then zero s
  else
    let e := gridOf q
    let m := nearestNat (q * 2 ^ (-e))
    if m = 2 ^ 53 then ofScaled s (2 ^ 52) (e + 1) else ofScaled s m e

theorem fract_div (hb : 0 < b) : (a : ℚ) / b - (a / b : Nat) = (a % b : Nat) / b := by
  have hb' : (b : ℚ) ≠ 0 := by exact_mod_cast hb.ne'
  have h : (b : ℚ) * (a / b : Nat) + (a % b : Nat) = a := by exact_mod_cast Nat.div_add_mod a b
  field_simp
  linarith

theorem divideHalfEven_eq (hb : 0 < b) : divideHalfEven a b = nearestNat (a / b) := by
  have hb' : (0 : ℚ) < b := by exact_mod_cast hb
  have hlow : 2 * ((a : ℚ) / b - (a / b : Nat)) < 1 ↔ 2 * (a % b) < b := by
    rw [fract_div hb, ← mul_div_assoc, div_lt_one hb']
    exact_mod_cast Iff.rfl
  have hhigh : 1 < 2 * ((a : ℚ) / b - (a / b : Nat)) ↔ b < 2 * (a % b) := by
    rw [fract_div hb, ← mul_div_assoc, one_lt_div hb']
    exact_mod_cast Iff.rfl
  simp only [divideHalfEven, nearestNat, Nat.floor_div_eq_div, hlow, hhigh]

/-- A power with an integer for its exponent as a quotient of powers with naturals. -/
theorem zpow_eq_div {r : ℚ} (hr : r ≠ 0) (e : Int) : r ^ e = r ^ e.toNat / r ^ (-e).toNat := by
  rw [eq_div_iff (pow_ne_zero _ hr), ← zpow_natCast, ← zpow_natCast, ← zpow_add₀ hr]
  congr 1
  omega

theorem le_log (hq : 0 < q) : 2 ^ e ≤ q ↔ e ≤ Int.log 2 q := by
  rw [← Int.zpow_le_iff_le_log (b := 2) (by decide) hq, Nat.cast_ofNat]

theorem log_lt (hq : 0 < q) : q < 2 ^ e ↔ Int.log 2 q < e := by
  rw [← Int.lt_zpow_iff_log_lt (b := 2) (by decide) hq, Nat.cast_ofNat]

theorem log_eq (hq : 0 < q) (hl : 2 ^ e ≤ q) (hh : q < 2 ^ (e + 1)) : Int.log 2 q = e := by
  have h₁ := (le_log hq).mp hl
  have h₂ := (log_lt hq).mp hh
  omega

theorem exponentFor_eq (ha : 0 < a) (hb : 0 < b) : exponentFor a b = gridOf (a / b) := by
  have ha' : (0 : ℚ) < a := by exact_mod_cast ha
  have hb' : (0 : ℚ) < b := by exact_mod_cast hb
  have hq : (0 : ℚ) < a / b := div_pos ha' hb'
  have hpos (j : Int) : (0 : ℚ) ≤ 2 ^ j := (zpow_pos two_pos j).le
  have hal : (2 : ℚ) ^ (a.log2 : Int) ≤ a := by exact_mod_cast Nat.log2_self_le ha.ne'
  have hah : (a : ℚ) < 2 ^ (a.log2 + 1 : Int) := by exact_mod_cast Nat.lt_log2_self
  have hbl : (2 : ℚ) ^ (b.log2 : Int) ≤ b := by exact_mod_cast Nat.log2_self_le hb.ne'
  have hbh : (b : ℚ) < 2 ^ (b.log2 + 1 : Int) := by exact_mod_cast Nat.lt_log2_self
  unfold exponentFor gridOf
  dsimp only
  generalize hk : (a.log2 : Int) - b.log2 - 52 = k
  have hlow : (2 : ℚ) ^ (k + 51) ≤ a / b := by
    rw [le_div_iff₀ hb']
    calc (2 : ℚ) ^ (k + 51) * b ≤ 2 ^ (k + 51) * 2 ^ (b.log2 + 1 : Int) :=
          mul_le_mul_of_nonneg_left hbh.le (hpos _)
      _ = 2 ^ (a.log2 : Int) := by
          rw [← zpow_add₀ two_ne_zero]
          congr 1
          omega
      _ ≤ a := hal
  have hhigh : (a : ℚ) / b < 2 ^ (k + 53) := by
    rw [div_lt_iff₀ hb']
    calc (a : ℚ) < 2 ^ (a.log2 + 1 : Int) := hah
      _ = 2 ^ (k + 53) * 2 ^ (b.log2 : Int) := by
          rw [← zpow_add₀ two_ne_zero]
          congr 1
          omega
      _ ≤ 2 ^ (k + 53) * b := mul_le_mul_of_nonneg_left hbl (hpos _)
  have hgreat : a * Nat.pow 2 (-k).toNat < b * Nat.pow 2 (52 + k.toNat) ↔
      (a : ℚ) / b < 2 ^ (k + 52) := by
    have hpow : (2 : ℚ) ^ (k + 52) = 2 ^ (52 + k.toNat) / 2 ^ (-k).toNat := by
      rw [zpow_add₀ two_ne_zero, zpow_eq_div two_ne_zero, pow_add]
      norm_num
      ring
    rw [hpow, div_lt_div_iff₀ hb' (by positivity), mul_comm (2 ^ (52 + k.toNat) : ℚ)]
    exact_mod_cast Iff.rfl
  by_cases hg : (a : ℚ) / b < 2 ^ (k + 52)
  · have hlog : Int.log 2 ((a : ℚ) / b) = k + 51 := log_eq hq hlow (by convert hg using 2; ring)
    simp only [hgreat, hg, if_true, hlog]
    congr 1
    ring
  · have hlog : Int.log 2 ((a : ℚ) / b) = k + 52 :=
      log_eq hq (not_lt.mp hg) (by convert hhigh using 2; ring)
    simp only [hgreat, hg, hlog]
    congr 1
    simp

theorem ofRatio_eq_nearest (hb : 0 < b) : ofRatio s a b = nearest s (a / b) := by
  have hb' : (b : ℚ) ≠ 0 := by exact_mod_cast hb.ne'
  by_cases ha : a = 0
  · simp [ofRatio, nearest, ha]
  have ha' : (a : ℚ) / b ≠ 0 := div_ne_zero (by exact_mod_cast ha) hb'
  unfold ofRatio nearest
  rw [if_neg ha, if_neg ha', exponentFor_eq (Nat.pos_of_ne_zero ha) hb]
  dsimp only
  generalize gridOf ((a : ℚ) / b) = e
  have hscaled : ((a * Nat.pow 2 (-e).toNat : Nat) : ℚ) / (b * Nat.pow 2 e.toNat : Nat) =
      a / b * 2 ^ (-e) := by
    rw [zpow_eq_div two_ne_zero (-e), neg_neg, div_mul_div_comm]
    push_cast
    norm_num
  have hdiv : divideHalfEven (a * Nat.pow 2 (-e).toNat) (b * Nat.pow 2 e.toNat) =
      nearestNat (a / b * 2 ^ (-e)) := by
    have hden : 0 < b * Nat.pow 2 e.toNat := Nat.mul_pos hb (Nat.pow_pos two_pos)
    rw [divideHalfEven_eq hden, hscaled]
  rw [hdiv]
  rfl

theorem nearestNat_natCast (n : Nat) : nearestNat n = n := by
  simp [nearestNat]

theorem gridOf_of_canonical (hc : Canonical m e) (hm : m ≠ 0) : gridOf (m * 2 ^ e) = e := by
  obtain ⟨hlt, hmin, hmax, htop⟩ := hc
  have hm' : (0 : ℚ) < m := by exact_mod_cast Nat.pos_of_ne_zero hm
  have hq : (0 : ℚ) < m * 2 ^ e := mul_pos hm' (zpow_pos two_pos e)
  have hpos : (0 : ℚ) < 2 ^ e := zpow_pos two_pos e
  have hlt' : (m : ℚ) < 2 ^ (53 : Int) := by exact_mod_cast hlt
  have hhigh : (m : ℚ) * 2 ^ e < 2 ^ (e + 53) := by
    rw [add_comm, zpow_add₀ two_ne_zero]
    exact mul_lt_mul_of_pos_right hlt' hpos
  have hle : Int.log 2 ((m : ℚ) * 2 ^ e) < e + 53 := (log_lt hq).mp hhigh
  unfold gridOf
  rcases htop with htop | rfl
  · have hlow : (2 : ℚ) ^ (e + 52) ≤ m * 2 ^ e := by
      have htop' : (2 : ℚ) ^ (52 : Int) ≤ m := by exact_mod_cast htop
      rw [add_comm, zpow_add₀ two_ne_zero]
      exact mul_le_mul_of_nonneg_right htop' hpos.le
    have hge := (le_log hq).mp hlow
    omega
  · omega

/-- A double is the nearest one to itself. -/
theorem nearest_of_canonical (hc : Canonical m e) (hm : m ≠ 0) :
    nearest s (m * 2 ^ e) = .finite s m e hc := by
  have hm' : (m : ℚ) ≠ 0 := by exact_mod_cast hm
  have htwo : (2 : ℚ) ^ e ≠ 0 := zpow_ne_zero e two_ne_zero
  have hlt : m ≠ 2 ^ 53 := hc.1.ne
  unfold nearest
  rw [if_neg (mul_ne_zero hm' htwo), gridOf_of_canonical hc hm]
  dsimp only
  rw [mul_assoc, ← zpow_add₀ two_ne_zero, add_neg_cancel, zpow_zero, mul_one, nearestNat_natCast,
    if_neg hlt]
  exact dif_pos hc

/-- The sign has no part in the rounding. -/
theorem nearest_signed {c : Canonical m e} (h : nearest false q = .finite false m e c) (s : Bool) :
    nearest s q = .finite s m e c := by
  have hscaled {n : Nat} {x : Int} (hx : ofScaled false n x = .finite false m e c) :
      ofScaled s n x = .finite s m e c := by
    by_cases hc : Canonical n x
    · rw [ofScaled, dif_pos hc] at hx ⊢
      cases hx
      rfl
    · rw [ofScaled, dif_neg hc] at hx
      split at hx <;> cases hx
  unfold nearest at h ⊢
  split
  · rename_i hq
    rw [if_pos hq] at h
    cases h
    rfl
  · rename_i hq
    rw [if_neg hq] at h
    dsimp only at h ⊢
    split
    · rename_i hm
      rw [if_pos hm] at h
      exact hscaled h
    · rename_i hm
      rw [if_neg hm] at h
      exact hscaled h

/-- From `2 ^ 1024` on there is only infinity. -/
theorem nearest_of_great (hq : 2 ^ (1024 : Int) ≤ q) : nearest s q = .infinite s := by
  have hpos : (0 : ℚ) < q := lt_of_lt_of_le (zpow_pos two_pos _) hq
  have hlog := (le_log hpos).mp hq
  have hgrid : 971 < gridOf q := by
    unfold gridOf
    omega
  have hscaled (n : Nat) (x : Int) (hx : 971 < x) : ofScaled s n x = .infinite s := by
    have hc : ¬ Canonical n x := fun h => absurd h.2.2.1 (by omega)
    rw [ofScaled, dif_neg hc, if_pos hx]
  unfold nearest
  rw [if_neg hpos.ne']
  dsimp only
  split
  · exact hscaled _ _ (by omega)
  · exact hscaled _ _ hgrid

/-- Below half of the least double there is only zero. -/
theorem nearest_of_small (hpos : 0 < q) (hq : q < 2 ^ (-1075 : Int)) : nearest s q = zero s := by
  have hlog := (log_lt hpos).mp hq
  have hgrid : gridOf q = -1074 := by
    unfold gridOf
    omega
  have hscaled : q * 2 ^ (1074 : Int) < 1 / 2 := by
    calc q * 2 ^ (1074 : Int) < 2 ^ (-1075 : Int) * 2 ^ (1074 : Int) :=
          mul_lt_mul_of_pos_right hq (zpow_pos two_pos _)
      _ = 1 / 2 := by
          rw [← zpow_add₀ two_ne_zero]
          norm_num
  have hnat : nearestNat (q * 2 ^ (1074 : Int)) = 0 := by
    generalize q * 2 ^ (1074 : Int) = r at hscaled
    have hfloor : ⌊r⌋₊ = 0 := Nat.floor_eq_zero.mpr (by linarith)
    have hlow : 2 * (r - (0 : Nat)) < 1 := by
      rw [Nat.cast_zero]
      linarith
    rw [nearestNat, hfloor, if_pos hlow]
  unfold nearest
  rw [if_neg hpos.ne', hgrid]
  dsimp only
  rw [neg_neg, hnat]
  rfl

theorem two_pow_le_ten_pow {j k : Nat} (h : 2 ^ j ≤ 10 ^ k) :
    (2 : ℚ) ^ (j : Int) ≤ 10 ^ (k : Int) := by
  have hcast : ((2 ^ j : Nat) : ℚ) ≤ (10 ^ k : Nat) := Nat.cast_le.mpr h
  rwa [Nat.cast_pow, Nat.cast_pow, Nat.cast_ofNat, Nat.cast_ofNat, ← zpow_natCast,
    ← zpow_natCast] at hcast

theorem lt_ten_pow (d : Nat) : d < 10 ^ (d.log2 / 3 + 1) := by
  calc d < 2 ^ (d.log2 + 1) := Nat.lt_log2_self
    _ ≤ 2 ^ (3 * (d.log2 / 3 + 1)) := Nat.pow_le_pow_right (by decide) (by omega)
    _ = 8 ^ (d.log2 / 3 + 1) := by rw [Nat.pow_mul]
    _ ≤ 10 ^ (d.log2 / 3 + 1) := Nat.pow_le_pow_left (by decide) _

/-- The double of a decimal is the one nearest to it, also where it is settled without its power of
ten. -/
theorem ofDecimal_eq_nearest (s : Bool) (d : Nat) (x : Int) :
    ofDecimal s d x = nearest s (d * 10 ^ x) := by
  by_cases hd : d = 0
  · simp [ofDecimal, nearest, hd]
  have hten : (10 : ℚ) ≠ 0 := by norm_num
  have hd' : (1 : ℚ) ≤ d := by exact_mod_cast Nat.one_le_iff_ne_zero.mpr hd
  have hpow (j : Int) : (0 : ℚ) < 10 ^ j := zpow_pos (by norm_num) j
  have hq : (0 : ℚ) < d * 10 ^ x := mul_pos (by linarith) (hpow x)
  unfold ofDecimal
  rw [if_neg hd]
  split
  · rename_i hgreat
    refine (nearest_of_great ?_).symm
    have hmono : (10 : ℚ) ^ (310 : Int) ≤ 10 ^ x := zpow_le_zpow_right₀ (by norm_num) hgreat.le
    have hnum : (2 : ℚ) ^ (1024 : Int) ≤ 10 ^ (310 : Int) :=
      two_pow_le_ten_pow (j := 1024) (k := 310) (by decide +kernel)
    calc (2 : ℚ) ^ (1024 : Int) ≤ 10 ^ x := hnum.trans hmono
      _ ≤ d * 10 ^ x := le_mul_of_one_le_left (hpow x).le hd'
  · split
    · rename_i hsmall
      refine (nearest_of_small hq ?_).symm
      have hlt : (d : ℚ) < 10 ^ ((d.log2 / 3 + 1 : Nat) : Int) := by
        rw [zpow_natCast]
        exact_mod_cast lt_ten_pow d
      have hnum : (10 : ℚ) ^ (-330 : Int) ≤ 2 ^ (-1075 : Int) := by
        rw [zpow_neg, zpow_neg]
        exact inv_anti₀ (zpow_pos two_pos _)
          (two_pow_le_ten_pow (j := 1075) (k := 330) (by decide +kernel))
      calc (d : ℚ) * 10 ^ x < 10 ^ ((d.log2 / 3 + 1 : Nat) : Int) * 10 ^ x :=
            mul_lt_mul_of_pos_right hlt (hpow x)
        _ = 10 ^ (x + (d.log2 / 3 + 1 : Nat)) := by rw [← zpow_add₀ hten, add_comm]
        _ ≤ 10 ^ (-330 : Int) := zpow_le_zpow_right₀ (by norm_num) hsmall.le
        _ ≤ 2 ^ (-1075 : Int) := hnum
    · have hratio := zpow_eq_div hten x
      split
      · rename_i hx
        have hneg : (-x).toNat = 0 := by omega
        rw [hneg, pow_zero, div_one] at hratio
        rw [ofRatio_eq_nearest Nat.one_pos, hratio]
        push_cast
        norm_num
      · rename_i hx
        have hzero : x.toNat = 0 := by omega
        rw [hzero, pow_zero, one_div] at hratio
        have hden : 0 < Nat.pow 10 (-x).toNat := Nat.pow_pos (by decide)
        rw [ofRatio_eq_nearest hden, hratio, div_eq_mul_inv]
        norm_num

end WorkflowClient.Number.Double
