import Depthwise.Proofs.Binary.Values

namespace Depthwise.Binary

theorem nearestEven_nearest (x : Rat) (n : Int) : |(nearestEven x : Rat) - x| ≤ |n - x| := by
  rcases eq_or_ne n (nearestEven x) with rfl | hne
  · exact le_rfl
  have hapart : (1 : Rat) ≤ |(n : Rat) - nearestEven x| := by
    exact_mod_cast Int.one_le_abs (sub_ne_zero.2 hne)
  have htriangle := abs_sub_le (n : Rat) x (nearestEven x)
  have hhalf := abs_nearestEven_sub_le x
  rw [abs_sub_comm x] at htriangle
  linarith

/-- Where another integer is as near as the chosen one, the two are neighbours and the chosen one is
even. -/
theorem nearestEven_of_tie {x : Rat} {n : Int} (hne : n ≠ nearestEven x)
    (h : |(n : Rat) - x| ≤ |nearestEven x - x|) :
    nearestEven x % 2 = 0 ∧ |n - nearestEven x| = 1 := by
  have hapart := Int.one_le_abs (sub_ne_zero.2 hne)
  have hapart' : (1 : Rat) ≤ |(n : Rat) - nearestEven x| := by exact_mod_cast hapart
  have htriangle := abs_sub_le (n : Rat) x (nearestEven x)
  have hhalf := abs_nearestEven_sub_le x
  rw [abs_sub_comm x] at htriangle
  refine ⟨?_, le_antisymm ?_ hapart⟩
  · have hlow := Int.floor_le x
    have hhigh := Int.lt_floor_add_one x
    have hhalf' : 1 / 2 ≤ |(nearestEven x : Rat) - x| := by linarith
    change (x.floor : Rat) ≤ x at hlow
    change x < x.floor + 1 at hhigh
    unfold nearestEven at hhalf' ⊢
    dsimp only at hhalf' ⊢
    split_ifs at hhalf' ⊢ with hbelow habove heven
    · rw [abs_sub_comm, abs_of_nonneg (by linarith)] at hhalf'
      linarith
    · push_cast at hhalf'
      rw [abs_of_nonneg (by linarith)] at hhalf'
      linarith
    · exact heven
    · omega
  · have hnear : |(n : Rat) - nearestEven x| ≤ 1 := by linarith
    exact_mod_cast hnear

theorem le_nearestEven_iff_of_even {x : Rat} {n : Int} (hn : n % 2 = 0) :
    n ≤ nearestEven x ↔ (n : Rat) - 1 / 2 ≤ x := by
  have hhalf := abs_le.1 (abs_nearestEven_sub_le x)
  constructor
  · intro h
    have : (n : Rat) ≤ nearestEven x := by exact_mod_cast h
    linarith
  · intro h
    by_contra hlt
    have hle : (nearestEven x : Rat) ≤ n - 1 := by
      exact_mod_cast (by omega : nearestEven x ≤ n - 1)
    -- only halfway between the two could the lower one be chosen, and there it is odd
    have hnear : |(n : Rat) - x| ≤ |nearestEven x - x| := by
      rw [abs_of_nonneg (by linarith), abs_of_nonpos (by linarith)]
      linarith
    obtain ⟨heven, hnext⟩ := nearestEven_of_tie (by omega) hnear
    rw [abs_of_pos (by omega)] at hnext
    omega

variable {F G : Format}

theorem Format.abs_mul_unit_sub (F : Format) (x : Rat) (n : Int) :
    |n * 2 ^ F.placeOf x - x| = |n - x / 2 ^ F.placeOf x| * 2 ^ F.placeOf x := by
  have hunit : (0 : Rat) < 2 ^ F.placeOf x := zpow_pos two_pos _
  have hscaled : n * 2 ^ F.placeOf x - x = (n - x / 2 ^ F.placeOf x) * 2 ^ F.placeOf x := by
    rw [sub_mul, div_mul_cancel₀ _ hunit.ne']
  rw [hscaled, abs_mul, abs_of_pos hunit]

theorem Format.abs_nearest_sub_le_abs (F : Format) (x : Rat) (n : Int) :
    |F.nearest x - x| ≤ |n * 2 ^ F.placeOf x - x| := by
  rw [Format.nearest, F.abs_mul_unit_sub, F.abs_mul_unit_sub]
  exact mul_le_mul_of_nonneg_right (nearestEven_nearest _ n) (zpow_nonneg two_pos.le _)

section Competitor

variable {x : Rat} {s : Bool} {m : Nat} {e : Int} (hc : F.Canonical m e)

theorem toRat_finite_false : (finite false m e hc).toRat = m * 2 ^ e := by
  rw [toRat_finite, sign, if_neg (by simp), one_mul]

/-- Values with a finer last place are too small to compete. -/
theorem abs_nearest_sub_lt_of_lt_placeOf (hx : 0 < x) (he : e < F.placeOf x) :
    |F.nearest x - x| < |(finite s m e hc).toRat - x| := by
  have hunit : (0 : Rat) < 2 ^ F.placeOf x := zpow_pos two_pos _
  have hne : F.placeOf x ≠ F.minExponent := by
    have := hc.2.1
    omega
  have hfull := (le_div_iff₀ hunit).1 (F.fractions_le_of_place_ne hx hne)
  have hnear := F.abs_nearest_sub_le_abs x F.fractions
  rw [Int.cast_natCast, abs_of_nonpos (sub_nonpos.2 hfull)] at hnear
  have hsmall : |(finite s m e hc).toRat| < F.fractions * 2 ^ F.placeOf x := by
    rw [abs_toRat_finite]
    have hm : (m : Rat) < 2 * F.fractions := by exact_mod_cast hc.1
    calc (m : Rat) * 2 ^ e < 2 * F.fractions * 2 ^ e :=
          mul_lt_mul_of_pos_right hm (zpow_pos two_pos _)
      _ = F.fractions * 2 ^ (e + 1) := by rw [zpow_add_one₀ two_ne_zero]; ring
      _ ≤ F.fractions * 2 ^ F.placeOf x := by
          gcongr
          · exact one_le_two
          · omega
  have htriangle := abs_sub_abs_le_abs_sub x (finite s m e hc).toRat
  rw [abs_of_pos hx, abs_sub_comm] at htriangle
  linarith

variable (hx : 0 ≤ x)

include hx

theorem abs_nearest_sub_le_finite :
    |F.nearest x - x| ≤ |(finite s m e hc).toRat - x| := by
  rcases hx.eq_or_lt with rfl | hx
  · rw [F.nearest_zero, sub_zero, abs_zero]
    exact abs_nonneg _
  rcases lt_or_ge e (F.placeOf x) with he | he
  · exact (abs_nearest_sub_lt_of_lt_placeOf hc hx he).le
  · obtain ⟨n, hn⟩ := exists_eq_mul_zpow_of_le s hc he
    rw [hn]
    exact F.abs_nearest_sub_le_abs x n

/-- A competitor that is as near is a neighbour on the same grid. -/
theorem exists_tie_of_abs_sub_le (hne : (finite s m e hc).toRat ≠ F.nearest x)
    (h : |(finite s m e hc).toRat - x| ≤ |F.nearest x - x|) :
    F.placeOf x ≤ e ∧ nearestEven (x / 2 ^ F.placeOf x) % 2 = 0 ∧
      ∃ n : Int, (finite s m e hc).toRat = n * 2 ^ F.placeOf x ∧
        |n - nearestEven (x / 2 ^ F.placeOf x)| = 1 := by
  rcases hx.eq_or_lt with rfl | hx
  · rw [F.nearest_zero, sub_zero, sub_zero, abs_zero, abs_nonpos_iff] at h
    exact absurd (h.trans F.nearest_zero.symm) hne
  have he : F.placeOf x ≤ e := by
    by_contra hlt
    exact absurd h (abs_nearest_sub_lt_of_lt_placeOf hc hx (not_le.1 hlt)).not_ge
  obtain ⟨n, hn⟩ := exists_eq_mul_zpow_of_le s hc he
  rw [hn] at hne h
  rw [Format.nearest, F.abs_mul_unit_sub, F.abs_mul_unit_sub] at h
  obtain ⟨heven, hnext⟩ := nearestEven_of_tie (n := n) (fun heq ↦ hne (by rw [heq]; rfl))
    (le_of_mul_le_mul_right h (zpow_pos two_pos _))
  exact ⟨he, heven, n, hn, hnext⟩

/-- Neighbours on a grid are not both even, so an even significand leaves one nearest value. -/
theorem toRat_eq_nearest (h : |(finite false m e hc).toRat - x| ≤ |F.nearest x - x|)
    (heven : (finite false m e hc).toRat ≠ F.nearest x → m % 2 = 0) :
    (finite false m e hc).toRat = F.nearest x := by
  by_contra hne
  obtain ⟨hplace, heven', j, hj, hnext⟩ := exists_tie_of_abs_sub_le hc hx hne h
  obtain ⟨d, hplace⟩ := Int.le.dest hplace
  have hgrid : j = m * 2 ^ d := by
    rw [toRat_finite_false, ← hplace, zpow_add₀ two_ne_zero, mul_comm (2 ^ _), ← mul_assoc,
      zpow_natCast] at hj
    exact_mod_cast (mul_right_cancel₀ (zpow_pos two_pos _).ne' hj).symm
  have hm : (m : Int) % 2 = 0 := by exact_mod_cast heven hne
  have hjeven : j % 2 = 0 := by rw [hgrid, Int.mul_emod, hm, zero_mul, Int.zero_emod]
  rw [abs_eq one_pos.le] at hnext
  omega

end Competitor

def Format.overflow (F : Format) : Rat := (2 * F.fractions - 1 / 2) * 2 ^ F.maxExponent

theorem Format.overflow_pos (F : Format) : 0 < F.overflow := by
  have hfr : (1 : Rat) ≤ F.fractions := by exact_mod_cast F.fractions_pos
  exact mul_pos (by linarith) (zpow_pos two_pos _)

theorem le_maxExponent_iff [F.Proper] {x : Rat} (hx : 0 < x) {m : Nat} {e : Int}
    (hm : m < 2 * F.fractions)
    (hparts : nearestEven (x / 2 ^ F.placeOf x) = m ∧ e = F.placeOf x ∨
      nearestEven (x / 2 ^ F.placeOf x) = ((2 * F.fractions : Nat) : Int) ∧
        m = F.fractions ∧ e = F.placeOf x + 1) :
    e ≤ F.maxExponent ↔ x < F.overflow := by
  have hfr : (1 : Rat) ≤ F.fractions := by exact_mod_cast F.fractions_pos
  have hmin := Format.Proper.exponent_lt (F := F)
  have hunit : (0 : Rat) < 2 ^ F.maxExponent := zpow_pos two_pos _
  rcases lt_trichotomy (F.placeOf x) F.maxExponent with hlt | heq | hgt
  · have hx' : x < 2 * F.fractions * 2 ^ F.placeOf x :=
      (div_lt_iff₀ (zpow_pos two_pos _)).1 (F.lt_placeOf hx)
    have hpow : (2 : Rat) * 2 ^ F.placeOf x ≤ 2 ^ F.maxExponent := by
      rw [← zpow_one_add₀ two_ne_zero]
      exact zpow_le_zpow_right₀ one_le_two (by omega)
    have hbelow : x < F.overflow := by
      unfold Format.overflow
      nlinarith
    exact iff_of_true (by omega) hbelow
  · have hcarry : x < F.overflow ↔
        ¬ ((2 * F.fractions : Nat) : Int) ≤ nearestEven (x / 2 ^ F.placeOf x) := by
      rw [le_nearestEven_iff_of_even (by omega), heq, not_le, div_lt_iff₀ hunit, Format.overflow]
      push_cast
      rfl
    rw [hcarry]
    omega
  · have hfull := (le_div_iff₀ (zpow_pos two_pos _)).1
      (F.fractions_le_of_place_ne hx (by omega))
    have hpow : (2 : Rat) * 2 ^ F.maxExponent ≤ 2 ^ F.placeOf x := by
      rw [← zpow_one_add₀ two_ne_zero]
      exact zpow_le_zpow_right₀ one_le_two (by omega)
    have habove : F.overflow ≤ x := by
      unfold Format.overflow
      nlinarith
    exact iff_of_false (by omega) (not_lt.2 habove)

theorem roundMagnitude_of_overflow [F.Proper] {x : Rat} (h : F.overflow ≤ x) (s : Bool) :
    (roundMagnitude s x : Binary F) = .infinite s := by
  have hx := F.overflow_pos.trans_le h
  obtain ⟨m, e, hround, ⟨hlt, -, -⟩, -, hparts⟩ := roundMagnitude_parts (F := F) hx s
  have he := mt (le_maxExponent_iff hx hlt hparts).1 (not_lt.2 h)
  rw [hround]
  exact dif_neg fun hcan ↦ he hcan.2.2.1

theorem roundMagnitude_of_lt_overflow [F.Proper] (hprec : 1 < F.precision) {x : Rat} (hx : 0 ≤ x)
    (h : x < F.overflow) (s : Bool) :
    ∃ m e, ∃ hc : F.Canonical m e, (roundMagnitude s x : Binary F) = finite s m e hc ∧
      (m : Rat) * 2 ^ e = F.nearest x ∧
      (nearestEven (x / 2 ^ F.placeOf x) % 2 = 0 → m % 2 = 0) := by
  have hmin := Format.Proper.exponent_lt (F := F)
  have hfr := F.fractions_pos
  rcases hx.eq_or_lt with rfl | hx
  · refine ⟨0, F.minExponent, ⟨by omega, le_rfl, hmin.le, .inr rfl⟩, ?_, ?_, fun _ ↦ rfl⟩
    · rw [roundMagnitude, if_pos rfl]
      exact dif_pos _
    · rw [F.nearest_zero, Nat.cast_zero, zero_mul]
  obtain ⟨m, e, hround, ⟨hlt, hmine, hfull⟩, hvalue, hparts⟩ := roundMagnitude_parts (F := F) hx s
  have he := (le_maxExponent_iff hx hlt hparts).2 h
  refine ⟨m, e, ⟨hlt, hmine, he, hfull⟩, hround.trans (dif_pos _), hvalue, fun heven ↦ ?_⟩
  rcases hparts with ⟨hm, -⟩ | ⟨-, rfl, -⟩
  · omega
  · obtain ⟨d, hd⟩ : ∃ d, F.precision - 1 = d + 1 := ⟨F.precision - 2, by omega⟩
    rw [F.fractions_eq, hd, Nat.pow_succ]
    exact Nat.mul_mod_left _ _

/-- The correct rounding of a value to another format. An infinity stays one and so does what is not
a number. A finite value goes to the infinity of its sign from the overflow on, and before to a
value of its sign that no finite one is nearer to, with an even significand where another is as
near. -/
inductive Rounded : Binary G → Binary F → Prop
  | nan : Rounded .nan .nan
  | infinite (s : Bool) : Rounded (.infinite s) (.infinite s)
  | overflow {x : Binary G} (hx : x.isFinite = true) (h : F.overflow ≤ |x.toRat|) :
      Rounded x (.infinite x.isNegative)
  | finite {x : Binary G} {m : Nat} {e : Int} {hc : F.Canonical m e} (hx : x.isFinite = true)
      (h : |x.toRat| < F.overflow)
      (nearest : ∀ z : Binary F, z.isFinite = true →
        |(finite x.isNegative m e hc).toRat - x.toRat| ≤ |z.toRat - x.toRat|)
      (even : ∀ z : Binary F, z.isFinite = true → z.toRat ≠ (finite x.isNegative m e hc).toRat →
        |z.toRat - x.toRat| = |(finite x.isNegative m e hc).toRat - x.toRat| → m % 2 = 0) :
      Rounded x (finite x.isNegative m e hc)

section Sides

variable (s t : Bool) {m n : Nat} {e k : Int} (hc : F.Canonical m e) (hd : G.Canonical n k)

theorem abs_toRat_sub_toRat : |(finite t m e hc).toRat - (finite s n k hd).toRat| =
    |(finite (s != t) m e hc).toRat - n * 2 ^ k| := by
  rw [toRat_finite, toRat_finite, toRat_finite]
  cases s
  · simp [sign]
  · rw [← abs_neg]
    cases t <;> simp [sign] <;> ring_nf

theorem toRat_eq_toRat_iff : (finite t m e hc).toRat = (finite s n k hd).toRat ↔
    (finite (s != t) m e hc).toRat = n * 2 ^ k := by
  rw [toRat_finite, toRat_finite, toRat_finite]
  cases s <;> cases t <;> simp [sign, neg_eq_iff_eq_neg]

end Sides

theorem Format.Canonical.le_of_eq {m n : Nat} {e k : Int} (h : F.Canonical m e)
    (h' : F.Canonical n k) (heq : (m : Rat) * 2 ^ e = n * 2 ^ k) : k ≤ e := by
  by_contra hlt
  have hm : (m : Rat) < 2 * F.fractions := by exact_mod_cast h.1
  have hn : (F.fractions : Rat) ≤ n := by
    have hfull := h'.2.2.2.resolve_right (by have := h.2.1; omega)
    exact_mod_cast hfull
  refine absurd heq (ne_of_lt ?_)
  calc (m : Rat) * 2 ^ e < 2 * F.fractions * 2 ^ e :=
        mul_lt_mul_of_pos_right hm (zpow_pos two_pos _)
    _ = F.fractions * 2 ^ (e + 1) := by rw [zpow_add_one₀ two_ne_zero]; ring
    _ ≤ n * 2 ^ k := by
        gcongr
        · exact one_le_two
        · omega

theorem Format.Canonical.eq_of_eq {m n : Nat} {e k : Int} (h : F.Canonical m e)
    (h' : F.Canonical n k) (heq : (m : Rat) * 2 ^ e = n * 2 ^ k) : m = n ∧ e = k := by
  obtain rfl := le_antisymm (h'.le_of_eq h heq.symm) (h.le_of_eq h' heq)
  exact ⟨by exact_mod_cast mul_right_cancel₀ (zpow_pos two_pos _).ne' heq, rfl⟩

theorem rounded_convert [F.Proper] (hprec : 1 < F.precision) (x : Binary G) :
    Rounded x (x.convert : Binary F) := by
  rcases x with _ | s | ⟨s, n, k, hd⟩
  · exact .nan
  · exact .infinite s
  change Rounded _ (roundMagnitude s ((n : Rat) * 2 ^ k))
  have habs := abs_toRat_finite s n k hd
  have hmag : (0 : Rat) ≤ n * 2 ^ k := by positivity
  rcases lt_or_ge ((n : Rat) * 2 ^ k) F.overflow with hlt | hge
  · obtain ⟨m, e, hc, hround, hvalue, heven⟩ := roundMagnitude_of_lt_overflow hprec hmag hlt s
    have hdist : |(finite s m e hc).toRat - (finite s n k hd).toRat| =
        |F.nearest (n * 2 ^ k) - n * 2 ^ k| := by
      rw [abs_toRat_sub_toRat, bne_self_eq_false, toRat_finite_false, hvalue]
    rw [hround]
    refine .finite (x := finite s n k hd) rfl (habs.trans_lt hlt) ?_ ?_
    · intro z hz
      obtain ⟨t, m', e', hc', rfl⟩ := exists_of_isFinite hz
      rw [abs_toRat_sub_toRat s t]
      exact hdist.trans_le (abs_nearest_sub_le_finite hc' hmag)
    · intro z hz hne htie
      obtain ⟨t, m', e', hc', rfl⟩ := exists_of_isFinite hz
      rw [Ne, toRat_eq_toRat_iff, hvalue] at hne
      rw [abs_toRat_sub_toRat s t] at htie
      exact heven (exists_tie_of_abs_sub_le hc' hmag hne (htie.trans hdist).le).2.1
  · rw [roundMagnitude_of_overflow hge]
    exact .overflow (x := finite s n k hd) rfl (hge.trans_eq habs.symm)

theorem eq_convert_of_rounded [F.Proper] (hprec : 1 < F.precision) {x : Binary G} {y : Binary F}
    (h : Rounded x y) : y = x.convert := by
  cases h with
  | nan => rfl
  | infinite s => rfl
  | overflow hx h =>
    obtain ⟨s, n, k, hd, rfl⟩ := exists_of_isFinite hx
    rw [abs_toRat_finite] at h
    exact (roundMagnitude_of_overflow h s).symm
  | @finite _ m e hc hx h nearest even =>
    obtain ⟨s, n, k, hd, rfl⟩ := exists_of_isFinite hx
    rw [abs_toRat_finite] at h
    have hmag : (0 : Rat) ≤ n * 2 ^ k := by positivity
    obtain ⟨m', e', hc', hround, hvalue, -⟩ := roundMagnitude_of_lt_overflow hprec hmag h s
    change finite s m e hc = roundMagnitude s ((n : Rat) * 2 ^ k)
    have hdist : ∀ {m : Nat} {e : Int} (hc : F.Canonical m e),
        |(finite s m e hc).toRat - (finite s n k hd).toRat| =
          |(finite false m e hc).toRat - n * 2 ^ k| := fun hc ↦ by
      rw [abs_toRat_sub_toRat, bne_self_eq_false]
    have hle := nearest (finite s m' e' hc') rfl
    change |(finite s m e hc).toRat - _| ≤ _ at hle
    rw [hdist, hdist, toRat_finite_false hc', hvalue] at hle
    have heq : (finite false m e hc).toRat = F.nearest (n * 2 ^ k) := by
      refine toRat_eq_nearest hc hmag hle fun hne ↦ even (finite s m' e' hc') rfl ?_ ?_
      · intro hsame
        change (finite s m' e' hc').toRat = (finite s m e hc).toRat at hsame
        refine hne ?_
        rwa [eq_comm, toRat_eq_toRat_iff, bne_self_eq_false, hvalue] at hsame
      · change |_ - _| = |(finite s m e hc).toRat - _|
        rw [hdist, hdist, toRat_finite_false hc', hvalue]
        exact le_antisymm (abs_nearest_sub_le_finite hc hmag) hle
    rw [toRat_finite_false, ← hvalue] at heq
    obtain ⟨rfl, rfl⟩ := hc.eq_of_eq hc' heq
    exact hround.symm

theorem rounded_iff_eq_convert [F.Proper] (hprec : 1 < F.precision) {x : Binary G}
    {y : Binary F} : Rounded x y ↔ y = x.convert := by
  constructor
  · exact eq_convert_of_rounded hprec
  · rintro rfl
    exact rounded_convert hprec x

end Depthwise.Binary
