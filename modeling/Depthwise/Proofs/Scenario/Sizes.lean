import Depthwise.Proofs.Scenario
import Depthwise.Proofs.Text

namespace Depthwise

namespace Settings

/-- A number that no other number in the scenarios of a base exceeds, taps and trials aside. -/
def reach (base : Settings) : Int := 3 * (base.channels + base.tile) + base.subsampling + 255

structure Within (s : Settings) (limit : Int) : Prop where
  width_le : s.width ≤ limit
  subsampling_le : s.subsampling ≤ limit
  channels_le : s.channels ≤ limit
  inputStride_le : s.inputStride ≤ limit
  outputStride_le : s.outputStride ≤ limit

variable {base s : Settings} {limit : Int}

theorem Variation.within_reach (h : base.Variation s) (hbase : base.Regular) :
    s.Within base.reach := by
  have := hbase.channels_pos
  have := hbase.tile_pos
  have := hbase.subsampling_pos
  have := h.channels_le
  have hwidth := h.width_le
  have hsubsampling := h.subsampling_le
  have hinput := h.inputStride_eq
  have houtput := h.outputStride_eq
  constructor <;> rw [reach] <;> omega

theorem Within.describable (h : s.Within limit) (hs : s.Regular)
    (hheight : Text.Short s.kernelHeight) (hwidth : Text.Short s.kernelWidth)
    (htile : Text.Short s.tile) (hlimit : Text.Short limit) : s.Describable := by
  have hshort {n : Int} (hn : 0 ≤ n) (hle : n ≤ limit) : Text.Short n :=
    hlimit.of_natAbs_le (by omega)
  have hcode {n : Int} (hn : 0 ≤ n) (hle : n ≤ 255) : Text.Short n :=
    Text.short_of_natAbs_lt 3 (by omega) (by decide)
  have hchannels : 0 ≤ s.channels := Int.le_of_lt hs.channels_pos
  have hinput : Text.Short s.effectiveInputStride := by
    have hroom := hs.inputStride_room
    rw [effectiveInputStride]
    split
    · exact hshort hchannels h.channels_le
    · exact hshort (by omega) h.inputStride_le
  have houtput : Text.Short s.effectiveOutputStride := by
    have hroom := hs.outputStride_room
    rw [effectiveOutputStride]
    split
    · exact hshort hchannels h.channels_le
    · exact hshort (by omega) h.outputStride_le
  have hcolumns := hshort (Int.le_of_lt hs.width_pos) h.width_le
  have hsubsampling := hshort (Int.le_of_lt hs.subsampling_pos) h.subsampling_le
  have hlow := hcode hs.qmin_nonneg (hs.qmin_le_qmax.trans hs.qmax_le)
  have hhigh := hcode (hs.qmin_nonneg.trans hs.qmin_le_qmax) hs.qmax_le
  simp [Describable, description, hcolumns, hheight, hwidth, hsubsampling,
    hshort hchannels h.channels_le, htile, hinput, houtput, hlow, hhigh]

end Settings

theorem eq_ok_of_run_flaw {α : Type} {r : Except Settings.Flaw α} {stream stream' : Random.Stream}
    {a : α} (h : (liftM r : Drawing α).run.run stream = (.ok a, stream')) : r = .ok a := by
  cases r with
  | error flaw => cases congrArg Prod.fst h
  | ok b =>
    cases congrArg Prod.fst h
    rfl

theorem Config.Unpadded.bounds {base : Config} (h : base.Unpadded) :
    1 ≤ base.channels ∧ 1 ≤ base.tile ∧ 1 ≤ base.subsampling ∧ base.inputStride = 0 ∧
      base.outputStride = 0 :=
  ⟨base.regular.channels_pos, base.regular.tile_pos, base.regular.subsampling_pos,
    h.inputStride, h.outputStride⟩

namespace Scenario

variable {base : Config} {count : Int} {configs : List Config}

theorem le_of_mem_unalignedCounts {tile channels : Int} (htile : 1 ≤ tile)
    (h : channels ∈ unalignedCounts tile) : channels ≤ 3 * tile := by
  rw [unalignedCounts, List.mem_eraseDups, List.mem_append] at h
  split_ifs at h <;> simp at h <;> omega

/-- A scenario that widens its base and then changes the wide one in several ways. -/
theorem within_of_widened {α : Type} {channels width limit : Int} {l : List α}
    {change : α → Settings → Settings}
    (hchange : ∀ s : Settings, s = { base.toSettings with channels, width } → ∀ a ∈ l,
      (change a s).Within limit)
    (h : (do
      let wide ← base.revise fun s ↦ { s with channels, width }
      let configs ← l.mapM fun a ↦ wide.revise (change a)
      return Buffer.front configs count) = .ok configs) :
    ∀ c ∈ configs, c.Within limit := by
  obtain ⟨wide, hwide, h⟩ := exists_of_bind_eq_ok h
  obtain ⟨changed, hchanged, hfront⟩ := exists_of_bind_eq_ok h
  cases hfront
  intro c hc
  obtain ⟨a, ha, hconfig⟩ := exists_of_mem_mapM hchanged (List.mem_of_mem_take hc)
  rw [Config.toSettings_of_revise hconfig]
  exact hchange _ (Config.toSettings_of_revise hwide) a ha

section Listed

variable (hbase : base.Unpadded)

include hbase

theorem within_of_minimalConfigs (h : minimalConfigs base count = .ok configs) :
    ∀ c ∈ configs, c.Within base.reach := by
  obtain ⟨config, hconfig, hfront⟩ := exists_of_bind_eq_ok h
  cases hfront
  intro c hc
  have hbounds := hbase.bounds
  rw [List.mem_singleton.1 (List.mem_of_mem_take hc), Config.toSettings_of_revise hconfig]
  constructor <;> rw [Settings.reach] <;> dsimp only <;> omega

theorem within_of_unalignedConfigs (h : unalignedConfigs base count = .ok configs) :
    ∀ c ∈ configs, c.Within base.reach := by
  intro c hc
  obtain ⟨channels, hmem, hconfig⟩ := exists_of_mem_mapM h hc
  have := le_of_mem_unalignedCounts base.regular.tile_pos (List.mem_of_mem_take hmem)
  have hbounds := hbase.bounds
  rw [Config.toSettings_of_revise hconfig]
  constructor <;> rw [Settings.reach] <;> dsimp only <;> omega

theorem within_of_stridedConfigs (h : stridedConfigs base count = .ok configs) :
    ∀ c ∈ configs, c.Within base.reach := by
  have hbounds := hbase.bounds
  refine within_of_widened (fun s hs change hmem ↦ ?_) h
  subst hs
  simp only [List.mem_cons, List.not_mem_nil, or_false] at hmem
  rcases hmem with rfl | rfl | rfl | rfl
  all_goals constructor <;> rw [Settings.reach] <;> dsimp only <;> omega

theorem within_of_restrictedConfigs (h : restrictedConfigs base count = .ok configs) :
    ∀ c ∈ configs, c.Within base.reach := by
  have hbounds := hbase.bounds
  refine within_of_widened (fun s hs bounds _ ↦ ?_) h
  subst hs
  constructor <;> rw [Settings.reach] <;> dsimp only <;> omega

end Listed

/-- The numbers in the configurations of a scenario do not grow past the reach of their base. -/
theorem within_of_configs (hbase : base.Unpadded) (scenario : Scenario)
    {stream stream' : Random.Stream}
    (h : (scenario.configs base count).run.run stream = (.ok configs, stream')) :
    ∀ c ∈ configs, base.SameKernel c.toSettings ∧ c.Within base.reach := by
  intro c hc
  have hends := (ends_configs scenario base count stream).family
    fun _ _ ↦ ⟨.inl hbase.inputStride, .inl hbase.outputStride⟩
  obtain ⟨configs', _, hrun, hfamily⟩ := hends
  obtain ⟨hconfigs, -⟩ := Prod.mk.inj (h.symm.trans hrun)
  cases hconfigs
  refine ⟨hfamily.sameKernel c hc, ?_⟩
  cases scenario with
  | minimal => exact within_of_minimalConfigs hbase (eq_ok_of_run_flaw h) c hc
  | unaligned => exact within_of_unalignedConfigs hbase (eq_ok_of_run_flaw h) c hc
  | strided => exact within_of_stridedConfigs hbase (eq_ok_of_run_flaw h) c hc
  | restricted => exact within_of_restrictedConfigs hbase (eq_ok_of_run_flaw h) c hc
  | random =>
    obtain ⟨_, _, hdrawn, -, hvariations⟩ := base.exists_drawVariations count.toNat stream
    cases (Prod.mk.inj (h.symm.trans hdrawn)).1
    exact (hvariations c hc).within_reach base.regular

end Scenario

end Depthwise
