import Depthwise.Parameters
import Depthwise.Proofs.Computations
import Depthwise.Proofs.Config
import Depthwise.Proofs.Contrast
import Depthwise.Proofs.Quantization.Deviation

namespace Depthwise

namespace Affine

theorem zeroPointOf_range (low high : Int) (scale : Double) :
    0 ≤ zeroPointOf low high scale ∧ zeroPointOf low high scale ≤ 255 :=
  ⟨le_min (le_max_right _ _) (by decide), min_le_right _ _⟩

theorem ofAccumulators_ok {accs : List Int} (hne : accs ≠ []) (h : ∀ a ∈ accs, |a| ≤ 2 ^ 31) :
    ∃ q, ofAccumulators accs = .ok q ∧ Sane q.scale ∧ 0 ≤ q.zeroPoint ∧ q.zeroPoint ≤ 255 := by
  cases accs with
  | nil => exact absurd rfl hne
  | cons a rest =>
    refine ⟨_, rfl, ?_, zeroPointOf_range _ _ _⟩
    have hmin := abs_le.1 (h _ (foldl_min_spec rfl).1)
    have hmax := abs_le.1 (h _ (foldl_max_spec rfl).1)
    exact scaleOfRange_sane (by omega)

theorem zeroPoint_of_ofAccumulators {accs : List Int} {q : Affine}
    (h : ofAccumulators accs = .ok q) : 0 ≤ q.zeroPoint ∧ q.zeroPoint ≤ 255 := by
  cases accs with
  | nil => cases h
  | cons a rest =>
    cases h
    exact zeroPointOf_range _ _ _

variable {q : Affine} {qmin qmax : Int}

theorem derive_meets (path : FixedPoint.Path) (hq : Sane q.scale)
    (hzero : 0 ≤ q.zeroPoint ∧ q.zeroPoint ≤ 255) (hbounds : 0 ≤ qmin ∧ qmin ≤ qmax ∧ qmax ≤ 255) :
    ∃ p, FixedPoint.derive path q.requantizationScale q.zeroPoint qmin qmax = .ok p ∧
      q.Meets qmin qmax p := by
  obtain ⟨hfin, hval, hlow, hhigh, -⟩ := requantizationScale_spec hq
  rw [← hval] at hlow hhigh
  obtain ⟨p, hp, hsound, hscale, hz, hmin, hmax⟩ :=
    @FixedPoint.derive_ok path _ _ _ _ hzero hbounds hfin hlow hhigh
  exact ⟨p, hp, hsound, hscale.trans hval, hz, hmin, hmax⟩

end Affine

theorem FixedPoint.Path.routine_run {σ : Type} {path : FixedPoint.Path} {scale : Double}
    {zeroPoint qmin qmax : Int} {p : FixedPoint.Params}
    (h : FixedPoint.derive path scale zeroPoint qmin qmax = .ok p) (state : σ) :
    (path.routine σ scale zeroPoint qmin qmax).run.run state = (.ok p, state) := by
  rw [routine, h]
  rfl

namespace Parameters

section Routines

variable {σ : Type} {vector scalar : ParamsRoutine σ} {accs : List Int} {q : Affine}
  {qmin qmax : Int} {params other : FixedPoint.Params} {before between after : σ} {e : Error}
  (hq : Affine.ofAccumulators accs = .ok q)

include hq

omit hq in
theorem zeroPoint_of_derive {parameters : Parameters}
    (h : (derive vector scalar accs qmin qmax).run.run before = (.ok parameters, after)) :
    0 ≤ parameters.output.zeroPoint ∧ parameters.output.zeroPoint ≤ 255 := by
  obtain ⟨q, _, hq, h⟩ := exists_of_run_bind h
  obtain ⟨_, _, -, h⟩ := exists_of_run_bind h
  obtain ⟨_, _, -, h⟩ := exists_of_run_bind h
  cases h
  rcases haccs : Affine.ofAccumulators accs with e | q'
  · rw [haccs] at hq
    cases hq
  · rw [haccs] at hq
    cases hq
    exact Affine.zeroPoint_of_ofAccumulators haccs

theorem derive_ok
    (hvector : (vector q.requantizationScale q.zeroPoint qmin qmax).run.run before =
      (.ok params, between))
    (hscalar : (scalar q.requantizationScale q.zeroPoint qmin qmax).run.run between =
      (.ok other, after)) :
    (derive vector scalar accs qmin qmax).run.run before = (.ok ⟨q, params, other⟩, after) := by
  refine (run_bind_ok (run_liftM_ok (congrArg (Except.mapError Error.fault) hq) before)).trans ?_
  refine (run_bind_ok hvector).trans ?_
  exact run_bind_ok hscalar

theorem derive_vector_error
    (hvector : (vector q.requantizationScale q.zeroPoint qmin qmax).run.run before =
      (.error e, after)) :
    (derive vector scalar accs qmin qmax).run.run before = (.error e, after) := by
  refine (run_bind_ok (run_liftM_ok (congrArg (Except.mapError Error.fault) hq) before)).trans ?_
  exact run_bind_error hvector

theorem derive_scalar_error
    (hvector : (vector q.requantizationScale q.zeroPoint qmin qmax).run.run before =
      (.ok params, between))
    (hscalar : (scalar q.requantizationScale q.zeroPoint qmin qmax).run.run between =
      (.error e, after)) :
    (derive vector scalar accs qmin qmax).run.run before = (.error e, after) := by
  refine (run_bind_ok (run_liftM_ok (congrArg (Except.mapError Error.fault) hq) before)).trans ?_
  refine (run_bind_ok hvector).trans ?_
  exact run_bind_error hscalar

end Routines

/-- With the routines of the library the parameters of 32-bit accumulators are always found. -/
theorem derive_run {accs : List Int} {qmin qmax : Int} (hne : accs ≠ [])
    (h : ∀ a ∈ accs, |a| ≤ 2 ^ 31) (hbounds : 0 ≤ qmin ∧ qmin ≤ qmax ∧ qmax ≤ 255) :
    ∃ params : Parameters, Affine.ofAccumulators accs = .ok params.output ∧
      Affine.Sane params.output.scale ∧ params.output.Meets qmin qmax params.requantization ∧
      ∀ {σ : Type} (state : σ),
        (derive (FixedPoint.Path.vector.routine σ) (FixedPoint.Path.scalar.routine σ) accs qmin
          qmax).run.run state = (.ok params, state) := by
  obtain ⟨q, hq, hsane, hzero⟩ := Affine.ofAccumulators_ok hne h
  obtain ⟨p, hp, hmeets⟩ := Affine.derive_meets .vector hsane hzero hbounds
  obtain ⟨p', hp', -⟩ := Affine.derive_meets .scalar hsane hzero hbounds
  refine ⟨⟨q, p, p'⟩, hq, hsane, hmeets, fun {σ} state ↦ ?_⟩
  exact derive_ok hq (FixedPoint.Path.routine_run hp state) (FixedPoint.Path.routine_run hp' state)

/-- Whatever the accumulators and the settings, both routines accept the derived scale, which is a
32-bit value close to the reciprocal of the output scale. -/
theorem derive_accurate (config : Config) {accs : List Int} (hne : accs ≠ [])
    (h : ∀ a ∈ accs, -2 ^ 31 ≤ a ∧ a < 2 ^ 31) :
    ∃ (params : Parameters) (s : Single),
      (∀ {σ : Type} (state : σ),
        (derive (FixedPoint.Path.vector.routine σ) (FixedPoint.Path.scalar.routine σ) accs
          config.qmin config.qmax).run.run state = (.ok params, state)) ∧
      Affine.ofAccumulators accs = .ok params.output ∧
      0 ≤ params.output.zeroPoint ∧ params.output.zeroPoint ≤ 255 ∧
      params.output.scale.isFinite = true ∧ s.isFinite = true ∧
      params.output.requantizationScale = s.convert ∧
      params.output.requantizationScale.toRat = s.toRat ∧
      |s.toRat * params.output.scale.toRat - 1| ≤ 1 / 2 ^ 22 ∧ s.toRat < 1 ∧
      1 / 2 ^ 32 ≤ s.toRat := by
  have hregular := config.regular
  have habs : ∀ a ∈ accs, |a| ≤ 2 ^ 31 := by
    intro a ha
    obtain ⟨hlow, hhigh⟩ := h a ha
    exact abs_le.2 ⟨hlow, hhigh.le⟩
  obtain ⟨params, hq, hsane, hmeets, hrun⟩ :=
    derive_run hne habs ⟨hregular.qmin_nonneg, hregular.qmin_le_qmax, hregular.qmax_le⟩
  obtain ⟨s, hs, hfin, hmoderate, hlow, hhigh, herror⟩ := Affine.exists_requantizationScale_eq hsane
  obtain ⟨-, hval, -⟩ := Affine.convert_convert hfin hmoderate
  obtain ⟨hzero, hzero'⟩ := hmeets.zeroPoint_range
  exact ⟨params, s, hrun, hq, hzero, hzero', hsane.1, hfin, hs, by rw [hs, hval], herror, hhigh,
    hlow⟩

/-- The least range that is not at the scale floor. -/
theorem derive_accurate_range256 :
    ∃ (params : Parameters) (s : Single),
      (derive (FixedPoint.Path.vector.routine Unit) (FixedPoint.Path.scalar.routine Unit)
        [-128, 128] 0 255).run.run () = (.ok params, ()) ∧
      Affine.ofAccumulators [-128, 128] = .ok params.output ∧
      params.output.requantizationScale = s.convert ∧
      |s.toRat * params.output.scale.toRat - 1| ≤ 1 / 2 ^ 22 ∧ s.toRat < 1 := by
  obtain ⟨params, s, hrun, hq, -, -, -, -, hs, -, herror, hhigh, -⟩ :=
    @derive_accurate ⟨{}, by decide⟩ [-128, 128] (by decide) (by decide)
  exact ⟨params, s, hrun (), hq, hs, herror, hhigh⟩

end Parameters

end Depthwise
