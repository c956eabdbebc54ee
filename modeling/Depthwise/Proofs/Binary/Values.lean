import Depthwise.Binary.Arithmetic
import Depthwise.Proofs.Binary.Rounding

namespace Depthwise.Binary

variable {F G : Format}

theorem exists_of_isFinite {x : Binary F} (h : x.isFinite = true) :
    ∃ s m e, ∃ hc : F.Canonical m e, x = .finite s m e hc := by
  cases x with
  | nan => simp [isFinite] at h
  | infinite s => simp [isFinite] at h
  | finite s m e hc => exact ⟨s, m, e, hc, rfl⟩

theorem toRat_finite (s : Bool) (m : Nat) (e : Int) (h : F.Canonical m e) :
    (finite s m e h).toRat = sign s * (m * 2 ^ e) := by
  cases s <;> simp [toRat, sign]

theorem abs_toRat_finite (s : Bool) (m : Nat) (e : Int) (h : F.Canonical m e) :
    |(finite s m e h).toRat| = m * 2 ^ e := by
  rw [toRat_finite, abs_mul, abs_sign, one_mul, abs_of_nonneg (by positivity)]

theorem toRat_finite_eq_zero_iff {s : Bool} {m : Nat} {e : Int} {h : F.Canonical m e} :
    (finite s m e h).toRat = 0 ↔ m = 0 := by
  rw [← abs_eq_zero, abs_toRat_finite, mul_eq_zero, Nat.cast_eq_zero]
  exact or_iff_left (zpow_pos two_pos _).ne'

theorem sign_mul_nearest (s : Bool) {x y : Rat} (hy : 0 ≤ y) (h : x = sign s * y) :
    sign s * F.nearest y = F.round x := by
  have habs : |x| = y := by rw [h, abs_mul, abs_sign, one_mul, abs_of_nonneg hy]
  rcases hy.eq_or_lt with rfl | hpos
  · rw [F.nearest_zero, mul_zero, h, mul_zero, F.round_zero]
  · rw [Format.round, habs]
    congr 1
    cases s <;> simp [sign] at h ⊢ <;> subst h <;> simp [hpos, hpos.le]

theorem rat_abs_eq (x : Rat) : x.abs = |x| := by
  rcases le_total 0 x with h | h
  · rw [Rat.abs_of_nonneg h, abs_of_nonneg h]
  · rw [Rat.abs_of_nonpos h, abs_of_nonpos h]

theorem ofRat_spec [F.Proper] {x : Rat} (h : |x| < F.limit) :
    (ofRat x : Binary F).isFinite = true ∧ (ofRat x : Binary F).toRat = F.round x := by
  rw [ofRat, rat_abs_eq]
  exact roundMagnitude_spec (abs_nonneg x) h _

theorem ofInt_spec [F.Proper] {n : Int} (h : |(n : Rat)| < F.limit) :
    (ofInt n : Binary F).isFinite = true ∧ (ofInt n : Binary F).toRat = F.round n :=
  ofRat_spec h

theorem Format.placeOf_le [F.Proper] {x : Rat} {e : Int} (hx : 0 < x)
    (h : x < 2 ^ ((F.precision : Int) + e)) (he : F.minExponent ≤ e) : F.placeOf x ≤ e := by
  have hlead := (zpow_lt_zpow_iff_right₀ (by norm_num)).1 ((leadingExponent_spec hx).1.trans_lt h)
  have hprec := Format.Proper.precision_pos (F := F)
  unfold Format.placeOf
  omega

theorem Format.round_of_bits [F.Proper] {x : Rat} {m : Nat} {e : Int} (hx : |x| = m * 2 ^ e)
    (hm : m < 2 ^ F.precision) (he : F.minExponent ≤ e) : F.round x = x := by
  rcases (abs_nonneg x).eq_or_lt with h | h
  · rw [abs_eq_zero.1 h.symm, F.round_zero]
  · refine F.round_of_grid (n := m) (by exact_mod_cast hx) (Format.placeOf_le h ?_ he)
    rw [hx, zpow_add₀ two_ne_zero, zpow_natCast]
    gcongr
    exact_mod_cast hm

theorem round_intCast [F.Proper] (hmin : F.minExponent ≤ 0) {n : Int}
    (h : n.natAbs < 2 ^ F.precision) : F.round n = n :=
  Format.round_of_bits (m := n.natAbs) (e := 0)
    (by rw [zpow_zero, mul_one, ← Int.cast_abs, Nat.cast_natAbs]) h hmin

theorem lt_limit_of_bits [F.Proper] {x : Rat} (h : x < 2 ^ (F.precision : Int))
    (hmax : 0 < F.maxExponent) : x < F.limit := by
  refine h.trans_le (zpow_le_zpow_right₀ (by norm_num) ?_)
  omega

theorem toRat_ofInt [F.Proper] (hmin : F.minExponent ≤ 0) (hmax : 0 < F.maxExponent) {n : Int}
    (h : n.natAbs < 2 ^ F.precision) :
    (ofInt n : Binary F).isFinite = true ∧ (ofInt n : Binary F).toRat = n := by
  have hlimit : |(n : Rat)| < F.limit := by
    apply lt_limit_of_bits _ hmax
    rw [← Int.cast_abs, ← Nat.cast_natAbs, zpow_natCast]
    exact_mod_cast h
  obtain ⟨hfin, hval⟩ := ofInt_spec hlimit
  exact ⟨hfin, by rw [hval, round_intCast hmin h]⟩

theorem toRat_ofInt_double (n : Int) (h : n.natAbs < 2 ^ 53) :
    (ofInt n : Double).isFinite = true ∧ (ofInt n : Double).toRat = n :=
  toRat_ofInt (by decide) (by decide) h

theorem round_half [F.Proper] (hmin : F.minExponent ≤ -1) (hmax : 0 < F.maxExponent) {n : Int}
    (h : n.natAbs < 2 ^ F.precision) :
    |(n : Rat) / 2| < F.limit ∧ F.round ((n : Rat) / 2) = (n : Rat) / 2 := by
  have hlt : (n.natAbs : Rat) < 2 ^ (F.precision : Int) := by
    rw [zpow_natCast]
    exact_mod_cast h
  have habs : |(n : Rat) / 2| = n.natAbs * 2 ^ (-1 : Int) := by
    rw [abs_div, abs_two, Nat.cast_natAbs, Int.cast_abs, zpow_neg_one, div_eq_mul_inv]
  refine ⟨lt_limit_of_bits ?_ hmax, Format.round_of_bits habs h hmin⟩
  have hnonneg : (0 : Rat) ≤ n.natAbs := Nat.cast_nonneg _
  rw [habs, zpow_neg_one]
  linarith

theorem neg_spec {x : Binary F} (h : x.isFinite = true) :
    x.neg.isFinite = true ∧ x.neg.toRat = -x.toRat := by
  obtain ⟨s, m, e, hc, rfl⟩ := exists_of_isFinite h
  refine ⟨rfl, ?_⟩
  rw [neg, toRat_finite, toRat_finite]
  cases s <;> simp [sign]

theorem abs_spec {x : Binary F} (h : x.isFinite = true) :
    x.abs.isFinite = true ∧ x.abs.toRat = |x.toRat| := by
  obtain ⟨s, m, e, hc, rfl⟩ := exists_of_isFinite h
  refine ⟨rfl, ?_⟩
  rw [abs, abs_toRat_finite, toRat_finite]
  simp [sign]

theorem add_spec [F.Proper] {x y : Binary F} (hx : x.isFinite = true) (hy : y.isFinite = true)
    (h : |x.toRat + y.toRat| < F.limit) :
    (x + y).isFinite = true ∧ (x + y).toRat = F.round (x.toRat + y.toRat) := by
  obtain ⟨s, m, e, hc, rfl⟩ := exists_of_isFinite hx
  obtain ⟨t, n, f, hd, rfl⟩ := exists_of_isFinite hy
  change (add _ _).isFinite = true ∧ (add _ _).toRat = _
  unfold add
  dsimp only
  by_cases hsum : (finite s m e hc).toRat + (finite t n f hd).toRat = 0
  · rw [if_pos hsum, hsum, F.round_zero]
    exact ⟨isFinite_zero _, toRat_zero _⟩
  · rw [if_neg hsum]
    exact ofRat_spec h

theorem sub_spec [F.Proper] {x y : Binary F} (hx : x.isFinite = true) (hy : y.isFinite = true)
    (h : |x.toRat - y.toRat| < F.limit) :
    (x - y).isFinite = true ∧ (x - y).toRat = F.round (x.toRat - y.toRat) := by
  obtain ⟨hneg, hval⟩ := neg_spec hy
  rw [sub_eq_add_neg, ← hval] at h ⊢
  exact add_spec hx hneg h

theorem roundMagnitude_of_sign [F.Proper] {s : Bool} {x : Rat} (hx : x = sign s * |x|)
    (h : |x| < F.limit) : (roundMagnitude s |x| : Binary F).isFinite = true ∧
      (roundMagnitude s |x| : Binary F).toRat = F.round x := by
  obtain ⟨hfin, hval⟩ := roundMagnitude_spec (F := F) (abs_nonneg x) h s
  exact ⟨hfin, hval.trans (sign_mul_nearest s (abs_nonneg x) hx)⟩

theorem mul_spec [F.Proper] {x y : Binary F} (hx : x.isFinite = true) (hy : y.isFinite = true)
    (h : |x.toRat * y.toRat| < F.limit) :
    (x * y).isFinite = true ∧ (x * y).toRat = F.round (x.toRat * y.toRat) := by
  obtain ⟨s, m, e, hc, rfl⟩ := exists_of_isFinite hx
  obtain ⟨t, n, f, hd, rfl⟩ := exists_of_isFinite hy
  change (mul _ _).isFinite = true ∧ (mul _ _).toRat = _
  unfold mul
  dsimp only
  rw [rat_abs_eq]
  refine roundMagnitude_of_sign ?_ h
  rw [abs_mul, abs_toRat_finite, abs_toRat_finite, toRat_finite, toRat_finite]
  cases s <;> cases t <;> simp [sign]

theorem div_spec [F.Proper] {x y : Binary F} (hx : x.isFinite = true) (hy : y.isFinite = true)
    (hne : y.toRat ≠ 0) (h : |x.toRat / y.toRat| < F.limit) :
    (x / y).isFinite = true ∧ (x / y).toRat = F.round (x.toRat / y.toRat) := by
  obtain ⟨s, m, e, hc, rfl⟩ := exists_of_isFinite hx
  obtain ⟨t, n, f, hd, rfl⟩ := exists_of_isFinite hy
  have hn : n ≠ 0 := fun hn ↦ hne (toRat_finite_eq_zero_iff.2 hn)
  change (div _ _).isFinite = true ∧ (div _ _).toRat = _
  unfold div
  dsimp only
  rw [if_neg hn, rat_abs_eq]
  refine roundMagnitude_of_sign ?_ h
  rw [abs_div, abs_toRat_finite, abs_toRat_finite, toRat_finite, toRat_finite]
  cases s <;> cases t <;> simp [sign] <;> ring

theorem convert_spec [G.Proper] {x : Binary F} (hx : x.isFinite = true)
    (h : |x.toRat| < G.limit) :
    (x.convert : Binary G).isFinite = true ∧ (x.convert : Binary G).toRat = G.round x.toRat := by
  obtain ⟨s, m, e, hc, rfl⟩ := exists_of_isFinite hx
  rw [convert, ← abs_toRat_finite s m e hc]
  refine roundMagnitude_of_sign ?_ h
  rw [abs_toRat_finite, toRat_finite]

/-- Every value of a format is one that another format with as many bits keeps. -/
theorem round_toRat [F.Proper] [G.Proper] {x : Binary F} (hx : x.isFinite = true)
    (hprec : F.precision ≤ G.precision) (hmin : G.minExponent ≤ F.minExponent) :
    G.round x.toRat = x.toRat := by
  obtain ⟨s, m, e, hc, rfl⟩ := exists_of_isFinite hx
  refine Format.round_of_bits (abs_toRat_finite s m e hc) ?_ (hmin.trans hc.2.1)
  have hbits : 2 * F.fractions = 2 ^ F.precision := by
    have := Format.Proper.precision_pos (F := F)
    rw [F.fractions_eq, ← Nat.pow_succ']
    congr 1
    omega
  exact (hc.1.trans_eq hbits).trans_le (Nat.pow_le_pow_right two_pos hprec)

theorem significand_lt [F.Proper] {m : Nat} {e : Int} (h : F.Canonical m e) :
    (m : Rat) < 2 ^ (F.precision : Int) := by
  have hprec := Format.Proper.precision_pos (F := F)
  have hm : (m : Rat) < 2 * F.fractions := by exact_mod_cast h.1
  rw [F.fractions_cast] at hm
  refine hm.trans_eq ?_
  have he : (F.precision : Int) = 1 + ((F.precision - 1 : Nat) : Int) := by omega
  rw [he, zpow_add₀ two_ne_zero, zpow_one]

theorem exists_eq_mul_zpow_of_le (s : Bool) {m : Nat} {f e : Int} (hc : F.Canonical m f)
    (h : e ≤ f) : ∃ n : Int, (finite s m f hc).toRat = n * 2 ^ e := by
  obtain ⟨d, hd⟩ := Int.le.dest h
  refine ⟨(if s then -1 else 1) * (m * 2 ^ d), ?_⟩
  rw [toRat_finite, ← hd, zpow_add₀ two_ne_zero, zpow_natCast]
  cases s <;> simp [sign] <;> ring

/-- A finite value of large enough magnitude is a multiple of a given unit. -/
theorem exists_eq_mul_zpow [F.Proper] {x : Binary F} (hx : x.isFinite = true) {e : Int}
    (h : 2 ^ ((F.precision : Int) + e - 1) ≤ |x.toRat|) : ∃ n : Int, x.toRat = n * 2 ^ e := by
  obtain ⟨s, m, f, hc, rfl⟩ := exists_of_isFinite hx
  have hm := significand_lt hc
  rw [abs_toRat_finite] at h
  have hlt : (2 : Rat) ^ ((F.precision : Int) + e - 1) < 2 ^ ((F.precision : Int) + f) := by
    rw [zpow_add₀ two_ne_zero (F.precision : Int) f]
    exact h.trans_lt (mul_lt_mul_of_pos_right hm (zpow_pos two_pos _))
  have he := (zpow_lt_zpow_iff_right₀ one_lt_two).1 hlt
  exact exists_eq_mul_zpow_of_le s hc (by omega)

theorem lt_eq {x y : Binary F} (hx : x.isFinite = true) (hy : y.isFinite = true) :
    x.lt y = decide (x.toRat < y.toRat) := by
  obtain ⟨s, m, e, hc, rfl⟩ := exists_of_isFinite hx
  obtain ⟨t, n, f, hd, rfl⟩ := exists_of_isFinite hy
  rfl

theorem isNaN_of_isFinite {x : Binary F} (h : x.isFinite = true) : x.isNaN = false := by
  obtain ⟨s, m, e, hc, rfl⟩ := exists_of_isFinite h
  rfl

theorem le_eq {x y : Binary F} (hx : x.isFinite = true) (hy : y.isFinite = true) :
    x.le y = decide (x.toRat ≤ y.toRat) := by
  rw [le, isNaN_of_isFinite hx, isNaN_of_isFinite hy, lt_eq hy hx, ← decide_not]
  simp only [Bool.not_false, Bool.true_and, not_lt]

theorem clip_spec {x low high : Binary F} (hx : x.isFinite = true) (hlow : low.isFinite = true)
    (hhigh : high.isFinite = true) :
    (x.clip low high).isFinite = true ∧
      (x.clip low high).toRat = min (max x.toRat low.toRat) high.toRat := by
  have hraised : (if x.lt low then low else x).isFinite = true ∧
      (if x.lt low then low else x).toRat = max x.toRat low.toRat := by
    rw [lt_eq hx hlow]
    by_cases h : x.toRat < low.toRat
    · simp [h, hlow, max_eq_right h.le]
    · simp [h, hx, max_eq_left (not_lt.1 h)]
  obtain ⟨hfin, hval⟩ := hraised
  rw [← hval]
  unfold clip
  dsimp only
  rw [lt_eq hhigh hfin]
  by_cases h : high.toRat < (if x.lt low then low else x).toRat
  · simp [h, hhigh, min_eq_right h.le]
  · simp [h, hfin, min_eq_left (not_lt.1 h)]

end Depthwise.Binary
