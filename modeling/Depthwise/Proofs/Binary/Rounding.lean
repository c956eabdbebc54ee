import Depthwise.Binary.Round
import Mathlib.Algebra.Order.Field.Power
import Mathlib.Data.Rat.Floor
import Mathlib.Tactic.FieldSimp
import Mathlib.Tactic.Linarith
import Mathlib.Tactic.Positivity
import Mathlib.Tactic.Ring

namespace Depthwise.Binary

theorem floor_le_nearestEven (x : Rat) : ⌊x⌋ ≤ nearestEven x := by
  change x.floor ≤ nearestEven x
  unfold nearestEven
  dsimp only
  split_ifs <;> omega

theorem nearestEven_le_floor_add_one (x : Rat) : nearestEven x ≤ ⌊x⌋ + 1 := by
  change nearestEven x ≤ x.floor + 1
  unfold nearestEven
  dsimp only
  split_ifs <;> omega

theorem abs_nearestEven_sub_le (x : Rat) : |(nearestEven x : Rat) - x| ≤ 1 / 2 := by
  have hlow := Int.floor_le x
  have hhigh := Int.lt_floor_add_one x
  change (x.floor : Rat) ≤ x at hlow
  change x < x.floor + 1 at hhigh
  rw [abs_le]
  unfold nearestEven
  dsimp only
  split_ifs <;> push_cast <;> constructor <;> linarith

theorem nearestEven_intCast (n : Int) : nearestEven (n : Rat) = n := by
  have h := abs_nearestEven_sub_le (n : Rat)
  rw [abs_le] at h
  have hlow : ((n : Rat) - 1) < nearestEven (n : Rat) := by linarith [h.1]
  have hhigh : (nearestEven (n : Rat) : Rat) < n + 1 := by linarith [h.2]
  have hlow' : n - 1 < nearestEven (n : Rat) := by exact_mod_cast hlow
  have hhigh' : nearestEven (n : Rat) < n + 1 := by exact_mod_cast hhigh
  omega

theorem nearestEven_mono {x y : Rat} (h : x ≤ y) : nearestEven x ≤ nearestEven y := by
  have hfloor : ⌊x⌋ ≤ ⌊y⌋ := Int.floor_mono h
  rcases hfloor.lt_or_eq with hlt | heq
  · have hx := nearestEven_le_floor_add_one x
    have hy := floor_le_nearestEven y
    omega
  · change x.floor = y.floor at heq
    unfold nearestEven
    simp only [heq]
    have hrest : x - y.floor ≤ y - y.floor := by linarith
    split_ifs <;> first | omega | linarith

theorem le_nearestEven {n : Int} {x : Rat} (h : (n : Rat) ≤ x) : n ≤ nearestEven x := by
  simpa only [nearestEven_intCast] using nearestEven_mono h

theorem nearestEven_le {n : Int} {x : Rat} (h : x ≤ n) : nearestEven x ≤ n := by
  simpa only [nearestEven_intCast] using nearestEven_mono h

theorem zpow_log2_le {n : Nat} (h : n ≠ 0) : (2 : Rat) ^ (n.log2 : Int) ≤ n := by
  rw [zpow_natCast]
  exact_mod_cast Nat.log2_self_le h

theorem lt_zpow_log2 (n : Nat) : (n : Rat) < 2 ^ ((n.log2 : Int) + 1) := by
  have h : n < 2 ^ (n.log2 + 1) := Nat.lt_log2_self
  have he : ((n.log2 : Int) + 1) = ((n.log2 + 1 : Nat) : Int) := by push_cast; rfl
  rw [he, zpow_natCast]
  exact_mod_cast h

theorem leadingExponent_spec {x : Rat} (hx : 0 < x) :
    (2 : Rat) ^ leadingExponent x ≤ x ∧ x < 2 ^ (leadingExponent x + 1) := by
  have hnum : x.num.toNat ≠ 0 := by
    have := Rat.num_pos.2 hx
    omega
  have hcast : ((x.num.toNat : Nat) : Rat) = x.num := by
    have := Rat.num_pos.2 hx
    exact_mod_cast Int.toNat_of_nonneg this.le
  have hden : (0 : Rat) < x.den := by exact_mod_cast x.den_pos
  have hvalue : x = x.num.toNat / x.den := by rw [hcast, Rat.num_div_den]
  have hn := zpow_log2_le hnum
  have hn' := lt_zpow_log2 x.num.toNat
  have hd := zpow_log2_le x.den_ne_zero
  have hd' := lt_zpow_log2 x.den
  -- the quotient of the two leading powers is off by less than one exponent on either side
  have hupper : x < 2 ^ ((x.num.toNat.log2 : Int) - x.den.log2 + 1) := by
    conv_lhs => rw [hvalue]
    rw [div_lt_iff₀ hden]
    calc (x.num.toNat : Rat)
        < 2 ^ ((x.num.toNat.log2 : Int) + 1) := hn'
      _ = 2 ^ ((x.num.toNat.log2 : Int) - x.den.log2 + 1) * 2 ^ (x.den.log2 : Int) := by
          rw [← zpow_add₀ two_ne_zero]
          congr 1
          ring
      _ ≤ _ := by gcongr
  have hlower : 2 ^ ((x.num.toNat.log2 : Int) - x.den.log2 - 1) ≤ x := by
    conv_rhs => rw [hvalue]
    rw [le_div_iff₀ hden]
    calc (2 : Rat) ^ ((x.num.toNat.log2 : Int) - x.den.log2 - 1) * x.den
        ≤ 2 ^ ((x.num.toNat.log2 : Int) - x.den.log2 - 1) * 2 ^ ((x.den.log2 : Int) + 1) := by
          gcongr
      _ = 2 ^ (x.num.toNat.log2 : Int) := by
          rw [← zpow_add₀ two_ne_zero]
          congr 1
          ring
      _ ≤ _ := hn
  unfold leadingExponent
  dsimp only
  split_ifs with h
  · exact ⟨h, hupper⟩
  · refine ⟨hlower, ?_⟩
    rw [Int.sub_add_cancel]
    exact not_le.1 h

variable {F : Format}

theorem Format.fractions_eq (F : Format) : F.fractions = 2 ^ (F.precision - 1) :=
  Nat.one_shiftLeft _

theorem Format.fractions_pos (F : Format) : 0 < F.fractions := by
  rw [F.fractions_eq]
  exact Nat.two_pow_pos _

theorem Format.fractions_cast (F : Format) :
    ((F.fractions : Nat) : Rat) = 2 ^ ((F.precision - 1 : Nat) : Int) := by
  rw [F.fractions_eq, zpow_natCast]
  push_cast
  rfl

theorem Format.minExponent_le_placeOf (F : Format) (x : Rat) : F.minExponent ≤ F.placeOf x :=
  le_max_left _ _

theorem Format.lt_placeOf (F : Format) {x : Rat} (hx : 0 < x) :
    x / 2 ^ F.placeOf x < 2 * F.fractions := by
  have hplace : (0 : Rat) < 2 ^ F.placeOf x := zpow_pos two_pos _
  rw [div_lt_iff₀ hplace, F.fractions_cast]
  calc x < 2 ^ (leadingExponent x + 1) := (leadingExponent_spec hx).2
    _ ≤ 2 ^ (1 + ((F.precision - 1 : Nat) : Int) + F.placeOf x) := by
        apply zpow_le_zpow_right₀ (by norm_num)
        have := le_max_right F.minExponent (leadingExponent x - (F.precision - 1 : Nat))
        unfold Format.placeOf
        omega
    _ = 2 * 2 ^ ((F.precision - 1 : Nat) : Int) * 2 ^ F.placeOf x := by
        rw [zpow_add₀ two_ne_zero, zpow_add₀ two_ne_zero, zpow_one]

theorem Format.fractions_le_of_place_ne (F : Format) {x : Rat} (hx : 0 < x)
    (h : F.placeOf x ≠ F.minExponent) : (F.fractions : Rat) ≤ x / 2 ^ F.placeOf x := by
  have hplace : (0 : Rat) < 2 ^ F.placeOf x := zpow_pos two_pos _
  have he : F.placeOf x = leadingExponent x - (F.precision - 1 : Nat) := by
    unfold Format.placeOf at h ⊢
    omega
  rw [le_div_iff₀ hplace, F.fractions_cast, ← zpow_add₀ two_ne_zero, he]
  have : ((F.precision - 1 : Nat) : Int) + (leadingExponent x - (F.precision - 1 : Nat)) =
      leadingExponent x := by ring
  rw [this]
  exact (leadingExponent_spec hx).1

theorem isFinite_ofParts {s : Bool} {m : Nat} {e : Int} (h : F.Canonical m e) :
    (ofParts s m e : Binary F).isFinite = true := by
  simp [ofParts, h, isFinite]

def sign (negative : Bool) : Rat := if negative then -1 else 1

theorem toRat_ofParts {s : Bool} {m : Nat} {e : Int} (h : F.Canonical m e) :
    (ofParts s m e : Binary F).toRat = sign s * (m * 2 ^ e) := by
  cases s <;> simp [ofParts, h, toRat, sign]

/-- What a format needs for rounding to make sense: some bits, and room above the subnormals. -/
class Format.Proper (F : Format) : Prop where
  precision_pos : 0 < F.precision
  exponent_lt : F.minExponent < F.maxExponent

instance : Format.single.Proper := ⟨by decide, by decide⟩

instance : Format.double.Proper := ⟨by decide, by decide⟩

def Format.nearest (F : Format) (x : Rat) : Rat :=
  nearestEven (x / 2 ^ F.placeOf x) * 2 ^ F.placeOf x

theorem Format.nearest_zero (F : Format) : F.nearest 0 = 0 := by
  have h := nearestEven_intCast 0
  rw [Int.cast_zero] at h
  rw [Format.nearest, zero_div, h, Int.cast_zero, zero_mul]

theorem Format.nearest_nonneg (F : Format) {x : Rat} (hx : 0 ≤ x) : 0 ≤ F.nearest x := by
  have h : 0 ≤ nearestEven (x / 2 ^ F.placeOf x) := le_nearestEven (by push_cast; positivity)
  have h' : (0 : Rat) ≤ nearestEven (x / 2 ^ F.placeOf x) := by exact_mod_cast h
  exact mul_nonneg h' (zpow_nonneg two_pos.le _)

theorem Format.nearest_of_grid (F : Format) {x : Rat} {n e : Int} (hx : x = n * 2 ^ e)
    (he : F.placeOf x ≤ e) : F.nearest x = x := by
  have hunit : (2 : Rat) ^ F.placeOf x ≠ 0 := (zpow_pos two_pos _).ne'
  obtain ⟨d, hd⟩ := Int.le.dest he
  have hgrid : x / 2 ^ F.placeOf x = ((n * 2 ^ d : Int) : Rat) := by
    rw [div_eq_iff hunit]
    conv_lhs => rw [hx, ← hd, add_comm, zpow_add₀ two_ne_zero, zpow_natCast]
    push_cast
    ring
  rw [Format.nearest, hgrid, nearestEven_intCast, ← hgrid, div_mul_cancel₀ _ hunit]

theorem Format.abs_nearest_sub_le (F : Format) (x : Rat) :
    |F.nearest x - x| ≤ 2 ^ F.placeOf x / 2 := by
  have hunit : (0 : Rat) < 2 ^ F.placeOf x := zpow_pos two_pos _
  have hscaled : F.nearest x - x =
      (nearestEven (x / 2 ^ F.placeOf x) - x / 2 ^ F.placeOf x) * 2 ^ F.placeOf x := by
    rw [sub_mul, div_mul_cancel₀ _ hunit.ne']
    rfl
  rw [hscaled, abs_mul, abs_of_pos hunit]
  calc |(nearestEven (x / 2 ^ F.placeOf x) : Rat) - x / 2 ^ F.placeOf x| * 2 ^ F.placeOf x
      ≤ 1 / 2 * 2 ^ F.placeOf x := by gcongr; exact abs_nearestEven_sub_le _
    _ = 2 ^ F.placeOf x / 2 := by ring

theorem leadingExponent_mono {x y : Rat} (hx : 0 < x) (h : x ≤ y) :
    leadingExponent x ≤ leadingExponent y := by
  have hlow := (leadingExponent_spec hx).1
  have hhigh := (leadingExponent_spec (hx.trans_le h)).2
  have hlt := (zpow_lt_zpow_iff_right₀ one_lt_two).1
    ((hlow.trans h).trans_lt hhigh)
  omega

theorem Format.placeOf_mono (F : Format) {x y : Rat} (hx : 0 < x) (h : x ≤ y) :
    F.placeOf x ≤ F.placeOf y :=
  max_le_max le_rfl (sub_le_sub_right (leadingExponent_mono hx h) _)

/-- Rounding keeps the order of magnitudes, also where their last places differ. -/
theorem Format.nearest_mono (F : Format) {x y : Rat} (hx : 0 ≤ x) (h : x ≤ y) :
    F.nearest x ≤ F.nearest y := by
  rcases hx.eq_or_lt with rfl | hx
  · rw [F.nearest_zero]
    exact F.nearest_nonneg h
  have hunit : ∀ e : Int, (0 : Rat) < 2 ^ e := fun e ↦ zpow_pos two_pos e
  rcases (F.placeOf_mono hx h).eq_or_lt with heq | hlt
  · have hdiv : x / 2 ^ F.placeOf x ≤ y / 2 ^ F.placeOf x :=
      div_le_div_of_nonneg_right h (hunit _).le
    rw [Format.nearest, Format.nearest, ← heq]
    refine mul_le_mul_of_nonneg_right ?_ (hunit _).le
    exact_mod_cast nearestEven_mono hdiv
  · -- a smaller place leaves at most the least full significand of the next one
    have hbelow : nearestEven (x / 2 ^ F.placeOf x) ≤ ((2 * F.fractions : Nat) : Int) :=
      nearestEven_le (by have := F.lt_placeOf hx; push_cast; exact this.le)
    have habove : ((F.fractions : Nat) : Int) ≤ nearestEven (y / 2 ^ F.placeOf y) := by
      have hne : F.placeOf y ≠ F.minExponent := by
        have := F.minExponent_le_placeOf x
        omega
      exact le_nearestEven (by exact_mod_cast F.fractions_le_of_place_ne (hx.trans_le h) hne)
    have hstep : (2 : Rat) * 2 ^ F.placeOf x ≤ 2 ^ F.placeOf y := by
      rw [← zpow_one_add₀ two_ne_zero]
      exact zpow_le_zpow_right₀ one_le_two (by omega)
    calc F.nearest x ≤ ((2 * F.fractions : Nat) : Int) * 2 ^ F.placeOf x :=
          mul_le_mul_of_nonneg_right (by exact_mod_cast hbelow) (hunit _).le
      _ = F.fractions * (2 * 2 ^ F.placeOf x) := by push_cast; ring
      _ ≤ F.fractions * 2 ^ F.placeOf y := mul_le_mul_of_nonneg_left hstep (Nat.cast_nonneg _)
      _ ≤ F.nearest y := mul_le_mul_of_nonneg_right (by exact_mod_cast habove) (hunit _).le

def Format.limit (F : Format) : Rat := 2 ^ (F.maxExponent + (F.precision - 1 : Nat))

def Format.leastNormal (F : Format) : Rat := 2 ^ (F.minExponent + (F.precision - 1 : Nat))

theorem Format.placeOf_lt [F.Proper] {x : Rat} (hx : 0 < x) (h : x < F.limit) :
    F.placeOf x < F.maxExponent := by
  have hlead := (zpow_lt_zpow_iff_right₀ (by norm_num)).1 ((leadingExponent_spec hx).1.trans_lt h)
  have hmin := Format.Proper.exponent_lt (F := F)
  unfold Format.placeOf
  omega

theorem Format.abs_nearest_sub_le_mul [F.Proper] {x : Rat} (h : F.leastNormal ≤ x) :
    |F.nearest x - x| ≤ x * 2 ^ (-(F.precision : Int)) := by
  have hx : 0 < x := (zpow_pos two_pos _).trans_le h
  have hlead := leadingExponent_spec hx
  have hmin : F.minExponent + (F.precision - 1 : Nat) < leadingExponent x + 1 :=
    (zpow_lt_zpow_iff_right₀ (by norm_num)).1 (h.trans_lt hlead.2)
  have hprec := Format.Proper.precision_pos (F := F)
  have hplace : F.placeOf x = leadingExponent x + -(F.precision : Int) + 1 := by
    unfold Format.placeOf
    omega
  refine (F.abs_nearest_sub_le x).trans ?_
  rw [hplace, zpow_add₀ two_ne_zero, zpow_add₀ two_ne_zero, zpow_one, mul_div_assoc,
    div_self two_ne_zero, mul_one]
  gcongr
  exact hlead.1

theorem isFinite_zero [F.Proper] (s : Bool) : (zero s : Binary F).isFinite = true := by
  have hmin := Format.Proper.exponent_lt (F := F)
  exact isFinite_ofParts ⟨by have := F.fractions_pos; omega, le_rfl, hmin.le, .inr rfl⟩

theorem toRat_zero [F.Proper] (s : Bool) : (zero s : Binary F).toRat = 0 := by
  have hmin := Format.Proper.exponent_lt (F := F)
  rw [zero, toRat_ofParts ⟨by have := F.fractions_pos; omega, le_rfl, hmin.le, .inr rfl⟩]
  simp

/-- A rounded magnitude before its exponent is checked: the nearest whole number of units, where the
next power of two moves to the next exponent. -/
theorem roundMagnitude_parts {x : Rat} (hx : 0 < x) (s : Bool) :
    ∃ m e, (roundMagnitude s x : Binary F) = ofParts s m e ∧
      (m < 2 * F.fractions ∧ F.minExponent ≤ e ∧ (F.fractions ≤ m ∨ e = F.minExponent)) ∧
      (m : Rat) * 2 ^ e = F.nearest x ∧
      (nearestEven (x / 2 ^ F.placeOf x) = m ∧ e = F.placeOf x ∨
        nearestEven (x / 2 ^ F.placeOf x) = ((2 * F.fractions : Nat) : Int) ∧
          m = F.fractions ∧ e = F.placeOf x + 1) := by
  have hmin := F.minExponent_le_placeOf x
  have hfr := F.fractions_pos
  have hnonneg : 0 ≤ nearestEven (x / 2 ^ F.placeOf x) :=
    le_nearestEven (by push_cast; positivity)
  have hle : nearestEven (x / 2 ^ F.placeOf x) ≤ 2 * F.fractions :=
    nearestEven_le (by push_cast; exact (F.lt_placeOf hx).le)
  have hge : F.placeOf x ≠ F.minExponent →
      (F.fractions : Int) ≤ nearestEven (x / 2 ^ F.placeOf x) := fun h ↦
    le_nearestEven (by push_cast; exact F.fractions_le_of_place_ne hx h)
  obtain ⟨m, hm⟩ := Int.eq_ofNat_of_zero_le hnonneg
  rw [hm] at hle hge
  have hround : (roundMagnitude s x : Binary F) = if m = 2 * F.fractions
      then ofParts s F.fractions (F.placeOf x + 1) else ofParts s m (F.placeOf x) := by
    unfold roundMagnitude
    rw [if_neg hx.ne']
    simp only [hm, Int.toNat_natCast]
  have hvalue : F.nearest x = m * 2 ^ F.placeOf x := by
    rw [Format.nearest, hm, Int.cast_natCast]
  rw [hround, hvalue, hm]
  by_cases hcarry : m = 2 * F.fractions
  · rw [if_pos hcarry]
    refine ⟨_, _, rfl, ⟨by omega, by omega, .inl le_rfl⟩, ?_, .inr ⟨by rw [hcarry], rfl, rfl⟩⟩
    rw [hcarry, zpow_add₀ two_ne_zero, zpow_one]
    push_cast
    ring
  · rw [if_neg hcarry]
    refine ⟨_, _, rfl, ⟨by omega, hmin, ?_⟩, rfl, .inl ⟨rfl, rfl⟩⟩
    by_cases h : F.placeOf x = F.minExponent
    · exact .inr h
    · have := hge h
      exact .inl (by omega)

/-- A magnitude below the limit becomes the nearest multiple of its unit, with the given sign. -/
theorem roundMagnitude_spec [F.Proper] {x : Rat} (hx : 0 ≤ x) (h : x < F.limit) (s : Bool) :
    (roundMagnitude s x : Binary F).isFinite = true ∧
      (roundMagnitude s x : Binary F).toRat = sign s * F.nearest x := by
  rcases hx.eq_or_lt with rfl | hx
  · rw [roundMagnitude, if_pos rfl, F.nearest_zero, mul_zero]
    exact ⟨isFinite_zero s, toRat_zero s⟩
  have hplace := Format.placeOf_lt hx h
  obtain ⟨m, e, hround, ⟨hlt, hmin, hfull⟩, hvalue, hparts⟩ := roundMagnitude_parts (F := F) hx s
  have hcan : F.Canonical m e := ⟨hlt, hmin, by omega, hfull⟩
  rw [hround, toRat_ofParts hcan, hvalue]
  exact ⟨isFinite_ofParts hcan, rfl⟩

def Format.round (F : Format) (x : Rat) : Rat := sign (decide (x < 0)) * F.nearest |x|

theorem sign_mul_abs (x : Rat) : sign (decide (x < 0)) * |x| = x := by
  by_cases h : x < 0
  · simp [sign, h, abs_of_neg h]
  · simp [sign, h, abs_of_nonneg (not_lt.1 h)]

theorem abs_sign (s : Bool) : |sign s| = 1 := by
  cases s <;> simp [sign]

theorem Format.round_zero (F : Format) : F.round 0 = 0 := by
  rw [Format.round, abs_zero, F.nearest_zero, mul_zero]

theorem Format.round_of_nonneg (F : Format) {x : Rat} (hx : 0 ≤ x) : F.round x = F.nearest x := by
  simp [Format.round, sign, not_lt.2 hx, abs_of_nonneg hx]

theorem Format.round_sub (F : Format) (x : Rat) :
    F.round x - x = sign (decide (x < 0)) * (F.nearest |x| - |x|) := by
  rw [mul_sub, sign_mul_abs, Format.round]

theorem Format.round_of_grid (F : Format) {x : Rat} {n e : Int} (hx : |x| = n * 2 ^ e)
    (he : F.placeOf |x| ≤ e) : F.round x = x := by
  rw [Format.round, F.nearest_of_grid hx he, sign_mul_abs]

theorem Format.abs_round_sub_le [F.Proper] {x : Rat} (h : x = 0 ∨ F.leastNormal ≤ |x|) :
    |F.round x - x| ≤ |x| * 2 ^ (-(F.precision : Int)) := by
  rcases h with rfl | h
  · rw [F.round_zero, sub_zero, abs_zero, zero_mul]
  · rw [F.round_sub, abs_mul, abs_sign, one_mul]
    exact Format.abs_nearest_sub_le_mul h

/-- Also below the normal values a rounding is off by no more than half of the least unit. -/
theorem Format.abs_round_sub_le_add [F.Proper] (x : Rat) :
    |F.round x - x| ≤ |x| * 2 ^ (-(F.precision : Int)) + 2 ^ F.minExponent / 2 := by
  have hrelative : 0 ≤ |x| * 2 ^ (-(F.precision : Int)) :=
    mul_nonneg (abs_nonneg x) (zpow_pos two_pos _).le
  have hunit : (0 : Rat) < 2 ^ F.minExponent / 2 := div_pos (zpow_pos two_pos _) two_pos
  rcases (abs_nonneg x).eq_or_lt with hzero | hpos
  · exact (Format.abs_round_sub_le (.inl (abs_eq_zero.1 hzero.symm))).trans (by linarith)
  rcases lt_or_ge |x| F.leastNormal with hsmall | hnormal
  · have hplace : F.placeOf |x| = F.minExponent := by
      have hlead := (zpow_lt_zpow_iff_right₀ one_lt_two).1
        ((leadingExponent_spec hpos).1.trans_lt hsmall)
      unfold Format.placeOf
      omega
    have hnearest := F.abs_nearest_sub_le |x|
    rw [hplace] at hnearest
    rw [F.round_sub, abs_mul, abs_sign, one_mul]
    linarith
  · exact (Format.abs_round_sub_le (.inr hnormal)).trans (by linarith)

end Depthwise.Binary
