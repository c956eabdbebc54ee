import Depthwise.Proofs.Quantization.Parameters

namespace Depthwise.Affine

open Binary

section Centre

variable {low high : Int} {scale : Double}

def midpoint (low high : Int) (scale : Double) : Rat := ((low + high : Int) : Rat) / 2 / scale.toRat

def middle (low high : Int) (scale : Double) : Double := .ofRat 0.5 * .ofInt (low + high) / scale

def centre (low high : Int) (scale : Double) : Double := .ofRat 127.5 - middle low high scale

theorem zeroPointOf_eq :
    zeroPointOf low high scale = min (max (nearestEven (centre low high scale).toRat) 0) 255 := rfl

theorem toRat_ofRat_half {x : Rat} {n : Int} (hx : x = n / 2) (hn : n.natAbs < 2 ^ 53) :
    (ofRat x : Double).isFinite = true ∧ (ofRat x : Double).toRat = x := by
  subst hx
  obtain ⟨hlimit, hround⟩ := round_half (F := .double) (by decide) (by decide) hn
  obtain ⟨hfin, hval⟩ := ofRat_spec hlimit
  exact ⟨hfin, hval.trans hround⟩

variable (hsum : |low + high| ≤ 2 ^ 32)

include hsum

theorem half_sum_spec : (.ofRat 0.5 * .ofInt (low + high) : Double).isFinite = true ∧
    (.ofRat 0.5 * .ofInt (low + high) : Double).toRat = ((low + high : Int) : Rat) / 2 := by
  have hrange := abs_le.1 hsum
  have hbits : (low + high).natAbs < 2 ^ 53 := by omega
  obtain ⟨hhalf, hhalfval⟩ := toRat_ofRat_half (x := 0.5) (n := 1) (by norm_num) (by decide)
  obtain ⟨hint, hval⟩ := toRat_ofInt_double _ hbits
  obtain ⟨hlimit, hround⟩ := round_half (F := .double) (by decide) (by decide) hbits
  have hproduct : (ofRat 0.5 : Double).toRat * (ofInt (low + high) : Double).toRat =
      ((low + high : Int) : Rat) / 2 := by
    rw [hhalfval, hval]
    ring
  obtain ⟨hfin, hmul⟩ := mul_spec hhalf hint (by rwa [hproduct])
  exact ⟨hfin, by rw [hmul, hproduct, hround]⟩

variable (hscale : Sane scale)

include hscale

theorem middle_spec : (middle low high scale).isFinite = true ∧
    |(middle low high scale).toRat - midpoint low high scale| ≤
      |midpoint low high scale| / 2 ^ 53 := by
  obtain ⟨hhalf, hval⟩ := half_sum_spec hsum
  have hmoderate := hscale.moderate_half (hsum.trans (by norm_num))
  rw [midpoint]
  rw [← hval] at hmoderate ⊢
  exact div_error hhalf hscale.1 hscale.pos.ne' hmoderate

theorem abs_midpoint_le : |midpoint low high scale| ≤ 2 ^ 32 := by
  have hmax : |((low + high : Int) : Rat)| ≤ 2 ^ 32 := by exact_mod_cast hsum
  have hlow := hscale.2.1
  rw [midpoint, abs_div, abs_div, abs_two, abs_of_pos hscale.pos, div_le_iff₀ hscale.pos]
  norm_num at hmax ⊢
  linarith

/-- Both roundings on the way to the zero point are far below a code. -/
theorem abs_centre_sub_le :
    |(centre low high scale).toRat - (255 / 2 - midpoint low high scale)| ≤
      (|midpoint low high scale| + 128) / 2 ^ 51 := by
  obtain ⟨hmiddle, herr⟩ := middle_spec hsum hscale
  obtain ⟨hstart, hstartval⟩ := toRat_ofRat_half (x := 127.5) (n := 255) (by norm_num) (by decide)
  replace hstartval : (ofRat 127.5 : Double).toRat = 255 / 2 := hstartval.trans (by norm_num)
  have hmax := abs_midpoint_le hsum hscale
  generalize midpoint low high scale = v at *
  have hle : |255 / 2 - (middle low high scale).toRat| ≤ 255 / 2 + |v| + |v| / 2 ^ 53 := by
    have htriangle := abs_sub_abs_le_abs_sub (middle low high scale).toRat v
    have hsub := abs_sub (255 / 2 : Rat) (middle low high scale).toRat
    rw [abs_of_pos (show (0 : Rat) < 255 / 2 by norm_num)] at hsub
    linarith
  have hroom : |(ofRat 127.5 : Double).toRat - (middle low high scale).toRat| ≤ 2 ^ 64 := by
    rw [hstartval]
    norm_num at hmax hle ⊢
    linarith
  obtain ⟨-, hsub⟩ := sub_error hstart hmiddle hroom
  rw [hstartval, ← centre] at hsub
  calc |(centre low high scale).toRat - (255 / 2 - v)|
      ≤ |(centre low high scale).toRat - (255 / 2 - (middle low high scale).toRat)| +
          |255 / 2 - (middle low high scale).toRat - (255 / 2 - v)| := abs_sub_le _ _ _
    _ ≤ (|v| + 128) / 2 ^ 51 := by
        rw [sub_sub_sub_cancel_left, abs_sub_comm v]
        have hnonneg := abs_nonneg v
        norm_num [Format.double] at hsub herr hle ⊢
        linarith

variable (h : |midpoint low high scale| ≤ 255 / 2 + 1 / 10 ^ 9 ∨
  0 < zeroPointOf low high scale ∧ zeroPointOf low high scale < 255)

include h

theorem nearestEven_centre_bounds : |midpoint low high scale| ≤ 2 ^ 9 ∧
    0 ≤ nearestEven (centre low high scale).toRat ∧
    nearestEven (centre low high scale).toRat ≤ 255 := by
  have hcentre := abs_centre_sub_le hsum hscale
  have hnonneg := abs_nonneg (midpoint low high scale)
  obtain ⟨hbelow, habove⟩ := abs_le.1 (abs_nearestEven_sub_le (centre low high scale).toRat)
  rw [zeroPointOf_eq] at h
  generalize midpoint low high scale = v at *
  generalize (centre low high scale).toRat = c at *
  generalize nearestEven c = z at *
  norm_num at hcentre ⊢
  rcases h with hv | hcut
  · obtain ⟨hlow, hhigh⟩ := abs_le.1 hcentre
    obtain ⟨hv', hv''⟩ := abs_le.1 hv
    norm_num at hv hv' hv''
    have hz : (-1 : Rat) < z := by linarith
    have hz' : (z : Rat) < 256 := by linarith
    exact ⟨by linarith, by exact_mod_cast hz, Int.lt_add_one_iff.1 (by exact_mod_cast hz')⟩
  · have hz : 0 < z ∧ z < 255 := by omega
    have hlow : (0 : Rat) < z := by exact_mod_cast hz.1
    have hhigh : (z : Rat) < 255 := by exact_mod_cast hz.2
    have hc : |255 / 2 - c| ≤ 128 := by
      rw [abs_le]
      constructor <;> linarith
    have hv := abs_sub_abs_le_abs_sub v (255 / 2 - c)
    rw [sub_sub_eq_add_sub, add_comm v, ← sub_sub_eq_add_sub] at hv
    exact ⟨by linarith, hz.1.le, hz.2.le⟩

theorem abs_zeroPointOf_sub_le :
    |(zeroPointOf low high scale : Rat) - (255 / 2 - midpoint low high scale)| ≤
      1 / 2 + 1 / 10 ^ 9 := by
  obtain ⟨hv, hlow, hhigh⟩ := nearestEven_centre_bounds hsum hscale h
  have hcentre := abs_centre_sub_le hsum hscale
  have hnearest := abs_nearestEven_sub_le (centre low high scale).toRat
  rw [zeroPointOf_eq, max_eq_left hlow, min_eq_left hhigh]
  calc _ ≤ _ := abs_sub_le _ (centre low high scale).toRat _
    _ ≤ 1 / 2 + 1 / 10 ^ 9 := by
      norm_num at hv hcentre ⊢
      linarith

end Centre

theorem range_div_le {range : Int} (hrange : 0 ≤ range) (h : range ≤ 2 ^ 32) :
    range / (scaleOfRange range).toRat ≤ 255 + 1 / 10 ^ 9 := by
  have hsane := scaleOfRange_sane h
  have hrange' : (0 : Rat) ≤ range := by exact_mod_cast hrange
  rw [div_le_iff₀ hsane.pos]
  rcases lt_or_ge range 256 with hsmall | hlarge
  · have hsmall' : (range : Rat) ≤ 255 := by exact_mod_cast Int.lt_add_one_iff.1 hsmall
    have hlow := hsane.2.1
    norm_num
    linarith
  · have herr := abs_le.1 (scaleOfRange_spec hlarge h).2
    norm_num at herr ⊢
    linarith

theorem abs_clamp_sub_le {u x low high slack : Rat} (hle : low ≤ high) (hslack : 0 ≤ slack)
    (hlow : low - slack ≤ x) (hhigh : x ≤ high + slack) :
    |min (max u low) high - u| ≤ slack + |u - x| := by
  have hupper := le_abs_self (u - x)
  have hlower := neg_abs_le (u - x)
  rcases le_total u low with hu | hu
  · rw [max_eq_right hu, min_eq_left hle, abs_of_nonneg (by linarith)]
    linarith
  rw [max_eq_left hu]
  rcases le_total u high with hu' | hu'
  · rw [min_eq_left hu', sub_self, abs_zero]
    linarith [abs_nonneg (u - x)]
  · rw [min_eq_right hu', abs_of_nonpos (by linarith)]
    linarith

theorem abs_midpoint_le_of_sides {low high : Int} {scale : Double} (hscale : Sane scale)
    (hlow : low ≤ 0) (hhigh : 0 ≤ high) :
    |midpoint low high scale| ≤ ((high - low : Int) : Rat) / scale.toRat / 2 := by
  have hsum : |((low + high : Int) : Rat)| ≤ ((high - low : Int) : Rat) := by
    have : |low + high| ≤ high - low := abs_le.2 ⟨by omega, by omega⟩
    exact_mod_cast this
  have hpos := hscale.pos
  rw [midpoint, div_right_comm, abs_div, abs_div, abs_two, abs_of_pos hpos]
  gcongr

theorem ofRange_covers {low high a : Int} (hlow : -2 ^ 31 ≤ low) (hhigh : high < 2 ^ 31)
    (h : low ≤ 0 ∧ 0 ≤ high ∨
      0 < (ofRange low high).zeroPoint ∧ (ofRange low high).zeroPoint < 255)
    (ha : low ≤ a) (ha' : a ≤ high) :
    -0.500001 ≤ a / (ofRange low high).scale.toRat + (ofRange low high).zeroPoint ∧
      a / (ofRange low high).scale.toRat + (ofRange low high).zeroPoint ≤ 255.500001 := by
  have hsane : Sane (ofRange low high).scale := scaleOfRange_sane (by omega)
  have hspread : ((high - low : Int) : Rat) / (ofRange low high).scale.toRat ≤ 255 + 1 / 10 ^ 9 :=
    range_div_le (by omega) (by omega)
  have hzero : |((ofRange low high).zeroPoint : Rat) -
      (255 / 2 - midpoint low high (ofRange low high).scale)| ≤ 1 / 2 + 1 / 10 ^ 9 :=
    abs_zeroPointOf_sub_le (abs_le.2 ⟨by omega, by omega⟩) hsane
      (h.imp_left fun h ↦ (abs_midpoint_le_of_sides hsane h.1 h.2).trans (by linarith))
  have hpos := hsane.pos
  obtain ⟨hbelow, habove⟩ := abs_le.1 hzero
  -- the ends of the range lie half of the spread below and above its middle
  have hstart : midpoint low high (ofRange low high).scale -
      ((high - low : Int) : Rat) / (ofRange low high).scale.toRat / 2 ≤
        a / (ofRange low high).scale.toRat := by
    calc _ = (low : Rat) / (ofRange low high).scale.toRat := by
          rw [midpoint]
          push_cast
          ring
      _ ≤ _ := div_le_div_of_nonneg_right (by exact_mod_cast ha) hpos.le
  have hend : a / (ofRange low high).scale.toRat ≤ midpoint low high (ofRange low high).scale +
      ((high - low : Int) : Rat) / (ofRange low high).scale.toRat / 2 := by
    calc _ ≤ (high : Rat) / (ofRange low high).scale.toRat :=
          div_le_div_of_nonneg_right (by exact_mod_cast ha') hpos.le
      _ = _ := by
          rw [midpoint]
          push_cast
          ring
  norm_num only at hspread hbelow habove ⊢
  constructor <;> linarith

variable {q : Affine} {accs : List Int}

theorem extremes_of_ofAccumulators (h : ofAccumulators accs = .ok q) :
    accs.min? = some q.accumulatorsMin ∧ accs.max? = some q.accumulatorsMax ∧
      q = ofRange q.accumulatorsMin q.accumulatorsMax := by
  cases accs with
  | nil => cases h
  | cons a rest =>
    cases h
    exact ⟨List.min?_cons', List.max?_cons', rfl⟩

theorem rescale_ok (hzero : 0 ≤ q.zeroPoint ∧ q.zeroPoint ≤ 255) (qmin qmax : Int) :
    q.rescale qmin qmax accs = .ok (accs.map (q.expected qmin qmax)) := by
  obtain ⟨hfin, -⟩ := toRat_ofInt_double q.zeroPoint (by omega)
  rw [rescale, ofInt?, bounded, if_pos hfin]
  rfl

/-- The codes from 0 to 255 cover accumulators on both sides of zero, and all accumulators where the
zero point is not cut: clamping moves none by much more than half a code and one rounding. -/
theorem ofAccumulators_covers (hne : accs ≠ []) (h : ∀ a ∈ accs, -2 ^ 31 ≤ a ∧ a < 2 ^ 31) :
    ∃ q, ofAccumulators accs = .ok q ∧ accs.min? = some q.accumulatorsMin ∧
      accs.max? = some q.accumulatorsMax ∧ q.scale.isFinite = true ∧
      q.rescale 0 255 accs = .ok (accs.map (q.expected 0 255)) ∧
      ((q.accumulatorsMin ≤ 0 ∧ 0 ≤ q.accumulatorsMax) ∨ (0 < q.zeroPoint ∧ q.zeroPoint < 255) →
        ∀ a ∈ accs,
          -0.500001 ≤ a / q.scale.toRat + q.zeroPoint ∧
          a / q.scale.toRat + q.zeroPoint ≤ 255.500001 ∧
          (q.quotient a).toRat = Format.double.round (a / q.scale.toRat) ∧
          |(q.quotient a).toRat - a / q.scale.toRat| ≤ |a / q.scale.toRat| / 2 ^ 53 ∧
          |(q.expected 0 255 a).toRat - (q.quotient a).toRat| ≤
            0.500001 + |(q.quotient a).toRat - a / q.scale.toRat|) := by
  have habs : ∀ a ∈ accs, |a| ≤ 2 ^ 31 := fun a ha ↦ abs_le.2 ⟨(h a ha).1, (h a ha).2.le⟩
  obtain ⟨q, hq, hsane, hzero⟩ := ofAccumulators_ok hne habs
  obtain ⟨hmin, hmax, hrange⟩ := extremes_of_ofAccumulators hq
  refine ⟨q, hq, hmin, hmax, hsane.1, rescale_ok hzero 0 255, fun hcut a ha ↦ ?_⟩
  obtain ⟨hminmem, hge⟩ := List.min?_eq_some_iff.1 hmin
  obtain ⟨hmaxmem, hle⟩ := List.max?_eq_some_iff.1 hmax
  have hacc : |a| ≤ 2 ^ 32 := (habs a ha).trans (by norm_num)
  have hcovers := ofRange_covers (h _ hminmem).1 (h _ hmaxmem).2 (hrange ▸ hcut) (hge a ha)
    (hle a ha)
  rw [← hrange] at hcovers
  obtain ⟨hlow, hhigh⟩ := hcovers
  obtain ⟨-, hround, -⟩ := quotient_eq_round hsane hacc
  obtain ⟨-, herr⟩ := quotient_spec hsane hacc
  refine ⟨hlow, hhigh, hround, herr, ?_⟩
  rw [(expected_spec hsane hacc hzero le_rfl (by decide) le_rfl).2]
  apply abs_clamp_sub_le
  · push_cast
    linarith
  · norm_num
  · push_cast
    linarith
  · push_cast
    linarith

/-- Accumulators on one side of zero whose zero point is not cut: they span less than 256 codes. -/
theorem ofAccumulators_covers_positive :
    ∃ q, ofAccumulators [1, 60, 100] = .ok q ∧ 0 < q.accumulatorsMin ∧ q.zeroPoint = 77 ∧
      ∀ a ∈ [1, 60, 100], -0.500001 ≤ (a : Int) / q.scale.toRat + q.zeroPoint ∧
        a / q.scale.toRat + q.zeroPoint ≤ 255.500001 := by
  obtain ⟨q, hq, -, -, -, -, hcovers⟩ := @ofAccumulators_covers [1, 60, 100] (by decide) (by decide)
  have hvalue : (ofRange 1 100).zeroPoint = 77 := by decide +kernel
  have hrange : q = ofRange 1 100 := (Except.ok.inj hq).symm
  have hzero : q.zeroPoint = 77 := by rw [hrange, hvalue]
  refine ⟨q, hq, by rw [hrange]; decide, hzero, fun a ha ↦ ?_⟩
  obtain ⟨hlow, hhigh, -⟩ := hcovers (.inr ⟨by omega, by omega⟩) a ha
  exact ⟨hlow, hhigh⟩

end Depthwise.Affine
