import Depthwise.Proofs.Computations
import Depthwise.Proofs.Config.Acceptance
import Depthwise.Proofs.Random.Draws
import Depthwise.Scenario

namespace Depthwise

open Depthwise.Random (Yields yields_between)

/-- Settings for the same kernel: its taps and its tile width, and as many trials. -/
structure Settings.SameKernel (base s : Settings) : Prop where
  kernelHeight : s.kernelHeight = base.kernelHeight
  kernelWidth : s.kernelWidth = base.kernelWidth
  tile : s.tile = base.tile
  iterations : s.iterations = base.iterations

/-- A small shape for the same kernel. Its rows are tight or a few bytes apart, and its outputs are
clamped not at all or well inside the byte range. -/
structure Settings.Variation (base s : Settings) : Prop extends base.SameKernel s, s.Regular where
  channels_le : s.channels ≤ 32
  width_le : s.width ≤ 8
  subsampling_le : s.subsampling ≤ 2
  inputStride_eq : s.inputStride = 0 ∨
    s.channels + 1 ≤ s.inputStride ∧ s.inputStride ≤ s.channels + 7
  outputStride_eq : s.outputStride = 0 ∨
    s.channels + 1 ≤ s.outputStride ∧ s.outputStride ≤ s.channels + 7
  bounds_eq : s.qmin = 0 ∧ s.qmax = 255 ∨ s.qmin < 64 ∧ 192 ≤ s.qmax

section Draws

variable {α : Type} {P : α → Prop}

theorem succeeds_of_eq_ok {r : Except Settings.Flaw α} {a : α} (h : r = .ok a) (ha : P a) :
    Succeeds P (liftM r : Drawing α) := by
  subst h
  exact fun s ↦ ⟨a, s, rfl, ha⟩

theorem yields_chance (p : Double) : Yields (fun _ ↦ True) (Config.chance p) := fun _ ↦ trivial

theorem yields_drawStride (channels : Int) :
    Yields (fun stride ↦ stride = 0 ∨ channels + 1 ≤ stride ∧ stride ≤ channels + 7)
      (Config.drawStride channels) := by
  refine (yields_chance _).bind fun padded _ ↦ ?_
  split
  · exact (yields_between (by decide)).bind fun n hn ↦ .pure (.inr (by omega))
  · exact .pure (.inl rfl)

theorem yields_drawBounds :
    Yields (fun bounds ↦ bounds = (0, 255) ∨
      0 ≤ bounds.1 ∧ bounds.1 < 64 ∧ 192 ≤ bounds.2 ∧ bounds.2 ≤ 255) Config.drawBounds := by
  refine (yields_chance _).bind fun narrow _ ↦ ?_
  split
  · refine (yields_between (by decide)).bind fun low hlow ↦ ?_
    refine (yields_between (by decide)).bind fun high hhigh ↦ .pure (.inr ?_)
    dsimp only
    omega
  · exact .pure (.inl rfl)

end Draws

namespace Config

variable {c c' : Config} {change : Settings → Settings}

theorem exists_revise_ok (h : (change c.toSettings).Regular) : ∃ c', c.revise change = .ok c' :=
  ⟨⟨_, Settings.flaw?_of_regular h⟩, ofSettings_eq_ok_iff.2 ⟨h, rfl⟩⟩

theorem toSettings_of_revise (h : c.revise change = .ok c') :
    c'.toSettings = change c.toSettings :=
  (ofSettings_eq_ok_iff.1 h).2

theorem succeeds_drawVariation (base : Config) :
    Succeeds (fun c ↦ base.Variation c.toSettings) base.drawVariation := by
  have hs := base.regular
  refine (yields_between (by decide)).succeeds.bind fun channels hchannels ↦ ?_
  refine (yields_drawStride channels).succeeds.bind fun inputStride hinput ↦ ?_
  refine (yields_drawStride channels).succeeds.bind fun outputStride houtput ↦ ?_
  refine yields_drawBounds.succeeds.bind fun ⟨qmin, qmax⟩ hbounds ↦ ?_
  refine (yields_between (by decide)).succeeds.bind fun width hwidth ↦ ?_
  refine (yields_between (by decide)).succeeds.bind fun subsampling hsubsampling ↦ ?_
  simp only [Prod.mk.injEq] at hbounds
  have hvariation : base.Variation { base.toSettings with
      width, subsampling, channels, inputStride, outputStride, qmin, qmax } :=
    { hs with
      kernelHeight := rfl
      kernelWidth := rfl
      tile := rfl
      iterations := rfl
      width_pos := hwidth.1
      subsampling_pos := hsubsampling.1
      channels_pos := hchannels.1
      inputStride_room := by dsimp only; omega
      outputStride_room := by dsimp only; omega
      qmin_nonneg := by dsimp only; omega
      qmin_le_qmax := by dsimp only; omega
      qmax_le := by dsimp only; omega
      channels_le := Int.lt_add_one_iff.1 hchannels.2
      width_le := Int.lt_add_one_iff.1 hwidth.2
      subsampling_le := Int.lt_add_one_iff.1 hsubsampling.2
      inputStride_eq := hinput
      outputStride_eq := houtput
      bounds_eq := by dsimp only; omega }
  obtain ⟨c, hc⟩ : ∃ c, base.revise (fun s ↦
      { s with width, subsampling, channels, inputStride, outputStride, qmin, qmax }) = .ok c :=
    exists_revise_ok hvariation.toRegular
  apply succeeds_of_eq_ok hc
  rw [toSettings_of_revise hc]
  exact hvariation

theorem succeeds_drawVariations (base : Config) (count : Nat) :
    Succeeds (fun configs ↦ configs.length = count ∧ ∀ c ∈ configs, base.Variation c.toSettings)
      (base.drawVariations count) := by
  have hall : Succeeds _ (base.drawVariations count) :=
    .mapM fun _ _ ↦ base.succeeds_drawVariation
  simpa only [List.length_range] using hall

/-- However many variations are asked for, that many come, and each of them is accepted. -/
theorem exists_drawVariations (base : Config) (count : Nat) (stream : Random.Stream) :
    ∃ configs stream', (base.drawVariations count).run.run stream = (.ok configs, stream') ∧
      configs.length = count ∧ ∀ c ∈ configs, base.Variation c.toSettings :=
  base.succeeds_drawVariations count stream

end Config

end Depthwise
