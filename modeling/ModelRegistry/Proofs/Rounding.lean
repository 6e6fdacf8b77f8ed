import Mathlib.Tactic.Ring
import ModelRegistry.Binary64

namespace ModelRegistry.Binary64

def IsExact (c : Nat) : Prop := c ≤ wordMax ∧ ∃ k j, k ≤ 2 ^ 53 ∧ c = k * 2 ^ j

theorem isExact_of_le {c : Nat} (h : c ≤ 2 ^ 53) : IsExact c := by
  refine ⟨?_, c, 0, h, by omega⟩
  simp only [wordMax, Nat.pow_eq]
  omega

theorem scaled_eq (num den : Nat) (exponent : Int) :
    scaled num den exponent = (num * 2 ^ (-exponent).toNat, den * 2 ^ exponent.toNat) := rfl

theorem div_le_nearest (num den : Nat) : num / den ≤ nearest num den := by
  unfold nearest
  simp only
  split <;> omega

theorem le_scaled_of_log2 {num den : Nat} (hnum : num ≠ 0) {g : Int}
    (hg : g = (num.log2 : Int) - (den.log2 : Int) - 53) :
    2 ^ 52 * (den * 2 ^ g.toNat) ≤ num * 2 ^ (-g).toNat := by
  have hlow : 2 ^ num.log2 ≤ num := Nat.log2_self_le hnum
  have hhigh : den < 2 ^ (den.log2 + 1) := Nat.lt_log2_self
  have hexp : 52 + (den.log2 + 1) + g.toNat = num.log2 + (-g).toNat := by omega
  calc 2 ^ 52 * (den * 2 ^ g.toNat) ≤ 2 ^ 52 * (2 ^ (den.log2 + 1) * 2 ^ g.toNat) :=
        Nat.mul_le_mul_left _ (Nat.mul_le_mul_right _ (Nat.le_of_lt hhigh))
    _ = 2 ^ num.log2 * 2 ^ (-g).toNat := by
        rw [← Nat.mul_assoc, ← Nat.pow_add, ← Nat.pow_add, ← Nat.pow_add, hexp]
    _ ≤ num * 2 ^ (-g).toNat := Nat.mul_le_mul_right _ hlow

theorem exponentFor_eq (num den : Nat) {g : Int}
    (hg : g = (num.log2 : Int) - (den.log2 : Int) - 52) : exponentFor num den =
      max (if num * 2 ^ (-g).toNat / (den * 2 ^ g.toNat) < 2 ^ 52 then g - 1 else g)
        minExponent := by
  rw [hg]
  rfl

theorem full_of_exponentFor {num den : Nat} (hnum : num ≠ 0) (hden : 0 < den)
    (he : minExponent < exponentFor num den) :
    2 ^ 52 * (den * 2 ^ (exponentFor num den).toNat) ≤ num * 2 ^ (-exponentFor num den).toNat := by
  obtain ⟨g, hg⟩ : ∃ g, g = (num.log2 : Int) - (den.log2 : Int) - 52 := ⟨_, rfl⟩
  rw [exponentFor_eq num den hg] at he ⊢
  by_cases hlt : num * 2 ^ (-g).toNat / (den * 2 ^ g.toNat) < 2 ^ 52
  · rw [if_pos hlt] at he ⊢
    rw [max_eq_left (by omega)]
    exact le_scaled_of_log2 hnum (by omega)
  · rw [if_neg hlt] at he ⊢
    rw [max_eq_left (by omega)]
    have hpos : 0 < den * 2 ^ g.toNat := Nat.mul_pos hden (Nat.two_pow_pos _)
    rw [← Nat.le_div_iff_mul_le hpos]
    omega

theorem le_nearest_up {num den k j e : Nat} (hden : 0 < den) (hk : k ≤ 2 ^ 53)
    (hle : k * 2 ^ j * den ≤ num) (hfull : 2 ^ 52 * (den * 2 ^ e) ≤ num) :
    k * 2 ^ j ≤ nearest num (den * 2 ^ e) * 2 ^ e := by
  have hpos : 0 < den * 2 ^ e := Nat.mul_pos hden (Nat.two_pow_pos _)
  have hdiv := div_le_nearest num (den * 2 ^ e)
  rcases Nat.lt_or_ge j e with hj | hj
  · have hsignificand : 2 ^ 52 ≤ nearest num (den * 2 ^ e) :=
      le_trans ((Nat.le_div_iff_mul_le hpos).mpr hfull) hdiv
    calc k * 2 ^ j ≤ 2 ^ 53 * 2 ^ j := Nat.mul_le_mul_right _ hk
      _ = 2 ^ 52 * 2 ^ (j + 1) := by ring
      _ ≤ 2 ^ 52 * 2 ^ e := Nat.mul_le_mul_left _ (Nat.pow_le_pow_right (by omega) hj)
      _ ≤ nearest num (den * 2 ^ e) * 2 ^ e := Nat.mul_le_mul_right _ hsignificand
  · obtain ⟨i, rfl⟩ := Nat.exists_eq_add_of_le hj
    have hunits : k * 2 ^ i * (den * 2 ^ e) ≤ num := by
      calc k * 2 ^ i * (den * 2 ^ e) = k * 2 ^ (e + i) * den := by ring
        _ ≤ num := hle
    have hsignificand : k * 2 ^ i ≤ nearest num (den * 2 ^ e) :=
      le_trans ((Nat.le_div_iff_mul_le hpos).mpr hunits) hdiv
    calc k * 2 ^ (e + i) = k * 2 ^ i * 2 ^ e := by ring
      _ ≤ nearest num (den * 2 ^ e) * 2 ^ e := Nat.mul_le_mul_right _ hsignificand

theorem le_nearest_down {num den c e : Nat} (hden : 0 < den) (hle : c * den ≤ num) :
    c * 2 ^ e ≤ nearest (num * 2 ^ e) den := by
  refine le_trans ?_ (div_le_nearest _ _)
  rw [Nat.le_div_iff_mul_le hden, Nat.mul_right_comm]
  exact Nat.mul_le_mul_right _ hle

theorem le_nearest_scaled {num den c : Nat} {E : Int} (hnum : num ≠ 0) (hden : 0 < den)
    (hc : IsExact c) (hle : c * den ≤ num) (hE : E = exponentFor num den) :
    c * 2 ^ (-E).toNat ≤ nearest (num * 2 ^ (-E).toNat) (den * 2 ^ E.toNat) * 2 ^ E.toNat := by
  rcases Int.lt_or_le 0 E with hup | hdown
  · have hfull := full_of_exponentFor hnum hden (by rw [← hE, minExponent]; omega)
    have hneg : (-E).toNat = 0 := by omega
    obtain ⟨-, k, j, hk, rfl⟩ := hc
    simp only [← hE, hneg, Nat.pow_zero, Nat.mul_one] at hfull ⊢
    exact le_nearest_up hden hk hle hfull
  · have hpos : E.toNat = 0 := by omega
    simp only [hpos, Nat.pow_zero, Nat.mul_one]
    exact le_nearest_down hden hle

theorem le_toWord_finite {c significand : Nat} {E : Int} (hc : c ≤ wordMax)
    (h : c * 2 ^ (-E).toNat ≤ significand * 2 ^ E.toNat) :
    c ≤ (finite false significand E).toWord := by
  simp only [toWord, scaled_eq, Int.neg_neg, Nat.one_mul]
  exact le_min ((Nat.le_div_iff_mul_le (Nat.two_pow_pos _)).mpr h) hc

theorem finite_of_le_toWord {c significand : Nat} {E : Int}
    (h : c ≤ (finite false significand E).toWord) :
    c * 2 ^ (-E).toNat ≤ significand * 2 ^ E.toNat := by
  simp only [toWord, scaled_eq, Int.neg_neg, Nat.one_mul] at h
  exact (Nat.le_div_iff_mul_le (Nat.two_pow_pos _)).mp (le_trans h (min_le_left _ _))

theorem carry {c : Nat} {E : Int} (h : c * 2 ^ (-E).toNat ≤ 2 ^ 53 * 2 ^ E.toNat) :
    c * 2 ^ (-(E + 1)).toNat ≤ 2 ^ 52 * 2 ^ (E + 1).toNat := by
  rcases Int.lt_or_le E 0 with hneg | hpos
  · have hE : (-E).toNat = (-(E + 1)).toNat + 1 := by omega
    have hzero : E.toNat = 0 ∧ (E + 1).toNat = 0 := by omega
    rw [hE, hzero.1, Nat.pow_succ, ← Nat.mul_assoc] at h
    rw [hzero.2]
    omega
  · have hE : (E + 1).toNat = E.toNat + 1 := by omega
    have hzero : (-E).toNat = 0 ∧ (-(E + 1)).toNat = 0 := by omega
    rw [hzero.1] at h
    rw [hE, hzero.2, Nat.pow_succ]
    omega

theorem round_eq {num den significand : Nat} {E : Int} (hnum : num ≠ 0)
    (hE : E = exponentFor num den)
    (hs : significand = nearest (num * 2 ^ (-E).toNat) (den * 2 ^ E.toNat)) :
    round false num den =
      if significand = 2 ^ 53 then
        if maxExponent < E + 1 then infinite false else finite false (2 ^ 52) (E + 1)
      else if maxExponent < E then infinite false else finite false significand E := by
  have hround : round false num den =
      let r := if significand = 2 ^ 53 then (2 ^ 52, E + 1) else (significand, E)
      if maxExponent < r.2 then infinite false else finite false r.1 r.2 := by
    rw [round, if_neg hnum, hs, hE]
    rfl
  rw [hround]
  split <;> rfl

theorem le_toWord_round {num den c : Nat} (hden : 0 < den) (hc : IsExact c) (hle : c * den ≤ num) :
    c ≤ (round false num den).toWord := by
  by_cases hnum : num = 0
  · have hzero : c = 0 := by
      rw [hnum, Nat.le_zero, Nat.mul_eq_zero] at hle
      omega
    rw [hzero]
    exact Nat.zero_le _
  · have hbound := le_nearest_scaled hnum hden hc hle rfl
    rw [round_eq hnum rfl rfl]
    generalize nearest _ _ = significand at hbound ⊢
    by_cases hcarry : significand = 2 ^ 53
    · rw [if_pos hcarry]
      split
      · exact hc.1
      · exact le_toWord_finite hc.1 (carry (hcarry ▸ hbound))
    · rw [if_neg hcarry]
      split
      · exact hc.1
      · exact le_toWord_finite hc.1 hbound

theorem le_toWord_ofNat {c n : Nat} (hc : IsExact c) (hle : c ≤ n) : c ≤ (ofNat n).toWord :=
  le_toWord_round Nat.one_pos hc (by omega)

theorem mul_scaled {c m n : Nat} {e f : Int} (hx : c * 2 ^ (-e).toNat ≤ m * 2 ^ e.toNat)
    (hy : 2 ^ (-f).toNat ≤ n * 2 ^ f.toNat) :
    c * 2 ^ (-(e + f)).toNat ≤ m * n * 2 ^ (e + f).toNat := by
  obtain ⟨t, hup, hdown⟩ : ∃ t, e.toNat + f.toNat = (e + f).toNat + t ∧
      (-e).toNat + (-f).toNat = (-(e + f)).toNat + t :=
    ⟨e.toNat + f.toNat - (e + f).toNat, by omega, by omega⟩
  have hmul := Nat.mul_le_mul hx hy
  apply Nat.le_of_mul_le_mul_right _ (Nat.two_pow_pos t)
  calc c * 2 ^ (-(e + f)).toNat * 2 ^ t = c * 2 ^ (-e).toNat * 2 ^ (-f).toNat := by
        rw [Nat.mul_assoc, ← Nat.pow_add, ← hdown, Nat.pow_add, Nat.mul_assoc]
    _ ≤ m * 2 ^ e.toNat * (n * 2 ^ f.toNat) := hmul
    _ = m * n * 2 ^ (e + f).toNat * 2 ^ t := by
        rw [Nat.mul_assoc (m * n), ← Nat.pow_add, ← hup, Nat.pow_add]
        ring

theorem not_isBelowOne_finite {negative : Bool} {n : Nat} {f : Int}
    (h : (finite negative n f).isBelowOne = false) :
    negative = false ∧ 2 ^ (-f).toNat ≤ n * 2 ^ f.toNat := by
  cases negative with
  | true => cases h
  | false =>
    refine ⟨rfl, ?_⟩
    simpa only [isBelowOne, scaled_eq, Int.neg_neg, Nat.one_mul, decide_eq_false_iff_not,
      Nat.not_lt] using h

theorem infinite_of_not_isBelowOne {negative : Bool}
    (h : (infinite negative).isBelowOne = false) : negative = false := by
  cases negative with
  | true => cases h
  | false => rfl

theorem le_toWord_mul {x y : Binary64} {c : Nat} (hc : IsExact c) (hx : c ≤ x.toWord)
    (hy : y ≠ nan) (hone : y.isBelowOne = false) : c ≤ (x.mul y).toWord := by
  rcases Nat.eq_zero_or_pos c with rfl | hpos
  · exact Nat.zero_le _
  cases x with
  | nan => exact absurd hx (Nat.not_le.mpr hpos)
  | infinite s =>
    cases s with
    | true => exact absurd hx (Nat.not_le.mpr hpos)
    | false =>
      cases y with
      | nan => exact absurd rfl hy
      | infinite t =>
        rw [infinite_of_not_isBelowOne hone]
        exact hc.1
      | finite t n f =>
        obtain ⟨rfl, hn⟩ := not_isBelowOne_finite hone
        have hnonzero : n ≠ 0 := by
          rintro rfl
          have hlt := Nat.two_pow_pos (-f).toNat
          omega
        simp only [mul, if_neg hnonzero]
        exact hc.1
  | finite s m e =>
    cases s with
    | true => exact absurd hx (Nat.not_le.mpr hpos)
    | false =>
      have hm := finite_of_le_toWord hx
      have hnonzero : m ≠ 0 := by
        rintro rfl
        have hlt := Nat.mul_pos hpos (Nat.two_pow_pos (-e).toNat)
        omega
      cases y with
      | nan => exact absurd rfl hy
      | infinite t =>
        rw [infinite_of_not_isBelowOne hone]
        simp only [mul, if_neg hnonzero]
        exact hc.1
      | finite t n f =>
        obtain ⟨rfl, hn⟩ := not_isBelowOne_finite hone
        have hproduct := mul_scaled hm hn
        simp only [mul, scaled_eq, Int.neg_neg, Nat.one_mul]
        exact le_toWord_round (Nat.two_pow_pos _) hc hproduct

end ModelRegistry.Binary64
