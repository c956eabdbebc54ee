import Depthwise.Proofs.Buffers
import Depthwise.Proofs.Scenario.Variations

namespace Depthwise

/-- A base for scenarios: its rows have no padding of their own. -/
structure Config.Unpadded (base : Config) : Prop where
  inputStride : base.inputStride = 0
  outputStride : base.outputStride = 0

namespace Settings

theorem SameKernel.trans {base s s' : Settings} (h : base.SameKernel s) (h' : s.SameKernel s') :
    base.SameKernel s' :=
  ⟨h'.kernelHeight.trans h.kernelHeight, h'.kernelWidth.trans h.kernelWidth, h'.tile.trans h.tile,
    h'.iterations.trans h.iterations⟩

structure Takes (s : Settings) (channels : Int) : Prop where
  inputStride : s.inputStride = 0 ∨ channels ≤ s.inputStride
  outputStride : s.outputStride = 0 ∨ channels ≤ s.outputStride

/-- What is wrong with the strides, the input's first, if a number of channels is set. -/
def shortage? (s : Settings) (channels : Int) : Option Flaw :=
  if s.inputStride ≠ 0 ∧ s.inputStride < channels then
    some (.inputStride s.inputStride channels)
  else if s.outputStride ≠ 0 ∧ s.outputStride < channels then
    some (.outputStride s.outputStride channels)
  else none

variable {s : Settings} {channels width : Int}

theorem shortage?_eq_none_iff : s.shortage? channels = none ↔ s.Takes channels := by
  simp only [shortage?, ite_eq_iff, reduceCtorEq, and_false, false_or, and_true]
  constructor
  · intro ⟨hin, hout⟩
    exact ⟨by omega, by omega⟩
  · intro ⟨hin, hout⟩
    exact ⟨by omega, by omega⟩

/-- With other channels and another width, only the strides can be wrong. -/
theorem Regular.flaw?_widened (h : s.Regular) (hchannels : 1 ≤ channels) (hwidth : 1 ≤ width) :
    flaw? { s with channels, width } = s.shortage? channels := by
  have hsound := flaw?_of_regular h
  simp only [flaw?, ite_eq_iff, reduceCtorEq, and_false, false_or, and_true] at hsound
  obtain ⟨-, hsub, -, htile, hpow, hheight, hkernel, -, -, hqmin, hqmax, hempty, hiter⟩ := hsound
  simp [flaw?, shortage?, hsub, htile, hpow, hheight, hkernel, hqmin, hqmax, hempty, hiter,
    not_lt.2 hchannels, not_lt.2 hwidth]

end Settings

namespace Config

theorem settles_revise (c : Config) (change : Settings → Settings) :
    Settles ((change c.toSettings).flaw? = some ·) ((change c.toSettings).flaw? = none)
      (fun c' ↦ c'.toSettings = change c.toSettings) (c.revise change) := by
  unfold revise ofSettings
  split
  · next h => exact ⟨h, rfl⟩
  · next flaw h => exact ⟨by simp [h], h⟩

theorem settles_widened (base : Config) {channels width : Int} (hchannels : 1 ≤ channels)
    (hwidth : 1 ≤ width) :
    Settles (base.shortage? channels = some ·) (base.shortage? channels = none)
      (fun c ↦ c.toSettings = { base.toSettings with channels, width })
      (base.revise fun s ↦ { s with channels, width }) := by
  have hrevise := base.settles_revise fun s ↦ { s with channels, width }
  rwa [base.regular.flaw?_widened hchannels hwidth] at hrevise

end Config

namespace Scenario

/-- The channel counts that the strides of the base have to leave room for. One channel always has
room, and the random scenario brings strides of its own. -/
def counts (scenario : Scenario) (base : Settings) (count : Int) : List Int :=
  match scenario with
  | minimal | random => []
  | unaligned => Buffer.front (unalignedCounts base.tile) count
  | strided => [max base.channels (base.tile + 3)]
  | restricted => [max base.channels (base.tile + 1)]

def size (scenario : Scenario) (tile count : Int) : Nat :=
  match scenario with
  | minimal => Buffer.bound 1 count
  | unaligned => Buffer.bound (unalignedCounts tile).length count
  | strided => Buffer.bound 4 count
  | restricted => Buffer.bound 3 count
  | random => count.toNat

/-- Configurations for the kernel of a base. Those of the unaligned scenario differ in their
channels. -/
structure Family (scenario : Scenario) (base : Settings) (count : Int) (configs : List Config) :
    Prop where
  length_eq : configs.length = scenario.size base.tile count
  regular : ∀ c ∈ configs, c.Regular
  sameKernel : ∀ c ∈ configs, base.SameKernel c.toSettings
  channels_nodup : scenario = unaligned → (configs.map (·.channels)).Nodup

def SettlesFor (scenario : Scenario) (base : Settings) (count : Int) :
    Except Settings.Flaw (List Config) → Prop :=
  Settles ((scenario.counts base count).findSome? base.shortage? = some ·)
    (∀ channels ∈ scenario.counts base count, base.Takes channels) (scenario.Family base count)

theorem nodup_eraseDups (l : List Int) : l.eraseDups.Nodup := by
  -- on the length: what follows an element is filtered before it is searched
  induction h : l.length using Nat.strong_induction_on generalizing l with
  | _ n ih =>
    subst h
    cases l with
    | nil => exact List.nodup_nil
    | cons a rest =>
      rw [List.eraseDups_cons, List.nodup_cons]
      constructor
      · simp
      · refine ih _ ?_ _ rfl
        exact Nat.lt_succ_of_le (List.length_filter_le _ _)

theorem one_le_of_mem_unalignedCounts {tile : Int} (htile : 1 ≤ tile) {channels : Int}
    (h : channels ∈ unalignedCounts tile) : 1 ≤ channels := by
  rw [unalignedCounts, List.mem_eraseDups, List.mem_append] at h
  split_ifs at h <;> simp at h <;> omega

theorem size_le (scenario : Scenario) (tile : Int) (count : Nat) :
    scenario.size tile count ≤ count := by
  cases scenario <;> simp [size, Buffer.bound_natCast]

theorem Family.front {scenario : Scenario} {base : Settings} {configs : List Config} {count : Int}
    (hother : scenario ≠ unaligned)
    (hlength : scenario.size base.tile count = Buffer.bound configs.length count)
    (hkernel : ∀ c ∈ configs, base.SameKernel c.toSettings) :
    scenario.Family base count (Buffer.front configs count) where
  length_eq := by rw [Buffer.length_front, hlength]
  regular c _ := c.regular
  sameKernel c hc := hkernel c (List.mem_of_mem_take hc)
  channels_nodup h := (hother h).elim

variable (base : Config) (count : Int)

theorem settles_minimalConfigs :
    minimal.SettlesFor base.toSettings count (minimalConfigs base count) := by
  have hs := base.regular
  have hchannels := hs.channels_pos
  have hinput := hs.inputStride_room
  have houtput := hs.outputStride_room
  obtain ⟨c, hc⟩ : ∃ c,
      base.revise (fun s ↦ { s with width := 1, channels := 1, subsampling := 1 }) = .ok c :=
    Config.exists_revise_ok
      { hs with
        width_pos := le_rfl
        channels_pos := le_rfl
        subsampling_pos := le_rfl
        inputStride_room := by dsimp only; omega
        outputStride_room := by dsimp only; omega }
  rw [minimalConfigs, hc]
  refine ⟨by simp [counts], Family.front (by decide) rfl ?_⟩
  intro c' hc'
  rw [List.mem_singleton.1 hc', Config.toSettings_of_revise hc]
  exact ⟨rfl, rfl, rfl, rfl⟩

theorem settles_unalignedConfigs :
    unaligned.SettlesFor base.toSettings count (unalignedConfigs base count) := by
  have hfront {channels : Int} (h : channels ∈ Buffer.front (unalignedCounts base.tile) count) :
      1 ≤ channels :=
    one_le_of_mem_unalignedCounts base.regular.tile_pos (List.mem_of_mem_take h)
  have hwidth : (1 : Int) ≤ 3 := by decide
  have hall := Settles.mapM fun channels h ↦ base.settles_widened (hfront h) hwidth
  simp only [Settings.shortage?_eq_none_iff] at hall
  refine hall.mono fun configs hconfigs ↦ ?_
  have hchannels : configs.map (·.channels) = Buffer.front (unalignedCounts base.tile) count := by
    have heach := List.forall₂_map_right_iff.2 (hconfigs.imp fun channels c hc ↦
      show channels = c.channels by rw [hc])
    rw [List.forall₂_eq_eq_eq] at heach
    exact heach.symm
  refine ⟨?_, fun c _ ↦ c.regular, fun c hc ↦ ?_, fun _ ↦ ?_⟩
  · rw [← hconfigs.length_eq, Buffer.length_front]
    rfl
  · obtain ⟨channels, -, hchannels⟩ := exists_of_mem_right hconfigs hc
    rw [hchannels]
    exact ⟨rfl, rfl, rfl, rfl⟩
  · rw [hchannels]
    exact (nodup_eraseDups _).sublist (List.take_sublist _ _)

/-- A scenario that widens its base and then changes the wide one in several ways. -/
theorem settles_widened_mapM {α : Type} {scenario : Scenario} {channels width : Int} {l : List α}
    {change : α → Settings → Settings} (hother : scenario ≠ unaligned)
    (hcounts : scenario.counts base.toSettings count = [channels])
    (hsize : scenario.size base.tile count = Buffer.bound l.length count)
    (hchannels : 1 ≤ channels) (hwidth : 1 ≤ width)
    (hchange : ∀ s : Settings, s.Regular → s.channels = channels → ∀ a ∈ l,
      (change a s).Regular ∧ s.SameKernel (change a s)) :
    scenario.SettlesFor base.toSettings count (do
      let wide ← base.revise fun s ↦ { s with channels, width }
      let configs ← l.mapM fun a ↦ wide.revise (change a)
      return Buffer.front configs count) := by
  -- a change of the wide base is always accepted, so only the widening can fail
  have hfind : [channels].findSome? base.shortage? = base.shortage? channels := by
    cases h : base.shortage? channels <;> simp [h]
  rw [SettlesFor, hcounts, hfind, List.forall_mem_singleton, ← Settings.shortage?_eq_none_iff]
  refine (base.settles_widened hchannels hwidth).bind id fun wide hroom hwide ↦ ?_
  have heach (a : α) (ha : a ∈ l) := hchange wide.toSettings wide.regular (by rw [hwide]) a ha
  obtain ⟨configs, hrun, hconfigs⟩ :=
    (Settles.mapM fun a (_ : a ∈ l) ↦ wide.settles_revise (change a)).exists_ok fun a ha ↦
      Settings.flaw?_of_regular (heach a ha).1
  rw [hrun]
  refine ⟨hroom, Family.front hother ?_ fun c hc ↦ ?_⟩
  · rw [hsize, hconfigs.length_eq]
  · have hkernel : base.SameKernel wide.toSettings := by
      rw [hwide]
      exact ⟨rfl, rfl, rfl, rfl⟩
    obtain ⟨a, ha, hca⟩ := exists_of_mem_right hconfigs hc
    rw [hca]
    exact hkernel.trans (heach a ha).2

theorem settles_stridedConfigs :
    strided.SettlesFor base.toSettings count (stridedConfigs base count) := by
  have htile := base.regular.tile_pos
  refine settles_widened_mapM base count (by decide) rfl rfl (by omega) (by decide)
    fun s hs hchannels change hmem ↦ ?_
  simp only [List.mem_cons, List.not_mem_nil, or_false] at hmem
  rcases hmem with rfl | rfl | rfl | rfl
  · exact ⟨{ hs with inputStride_room := .inr (by dsimp only; omega) }, rfl, rfl, rfl, rfl⟩
  · exact ⟨{ hs with outputStride_room := .inr (by dsimp only; omega) }, rfl, rfl, rfl, rfl⟩
  · exact ⟨{ hs with
      inputStride_room := .inr (by dsimp only; omega)
      outputStride_room := .inr (by dsimp only; omega) }, rfl, rfl, rfl, rfl⟩
  · exact ⟨{ hs with
      subsampling_pos := by dsimp only; omega
      inputStride_room := .inr (by dsimp only; omega) }, rfl, rfl, rfl, rfl⟩

theorem settles_restrictedConfigs :
    restricted.SettlesFor base.toSettings count (restrictedConfigs base count) := by
  have htile := base.regular.tile_pos
  refine settles_widened_mapM base count (by decide) rfl rfl (by omega) (by decide)
    fun s hs hchannels bounds hmem ↦ ?_
  have hbounds : 0 ≤ bounds.1 ∧ bounds.1 ≤ bounds.2 ∧ bounds.2 ≤ 255 := by
    simp only [List.mem_cons, List.not_mem_nil, or_false] at hmem
    rcases hmem with rfl | rfl | rfl <;> decide
  exact ⟨{ hs with
    qmin_nonneg := hbounds.1
    qmin_le_qmax := hbounds.2.1
    qmax_le := hbounds.2.2 }, rfl, rfl, rfl, rfl⟩

/-- The ways in which a scenario can end: with its family, or with the flaw of the first channel
count without room and the stream as it was. -/
structure Ends (scenario : Scenario) (base : Settings) (count : Int) (stream : Random.Stream)
    (outcome : Except Error (List Config) × Random.Stream) : Prop where
  family : (∀ channels ∈ scenario.counts base count, base.Takes channels) →
    ∃ configs stream', outcome = (.ok configs, stream') ∧ scenario.Family base count configs
  flaw : (¬ ∀ channels ∈ scenario.counts base count, base.Takes channels) →
    ∃ flaw, (scenario.counts base count).findSome? base.shortage? = some flaw ∧
      outcome = (.error flaw.raise, stream)

theorem ends_of_settles {scenario : Scenario} {base : Settings} {count : Int}
    {r : Except Settings.Flaw (List Config)} (hr : scenario.SettlesFor base count r)
    (stream : Random.Stream) :
    scenario.Ends base count stream ((liftM r : Drawing (List Config)).run.run stream) := by
  constructor
  · intro hroom
    obtain ⟨configs, rfl, hconfigs⟩ := hr.exists_ok hroom
    exact ⟨configs, stream, rfl, hconfigs⟩
  · intro hshort
    obtain ⟨flaw, rfl, hflaw⟩ := hr.exists_error hshort
    exact ⟨flaw, hflaw, rfl⟩

theorem ends_configs (scenario : Scenario) (base : Config) (count : Int)
    (stream : Random.Stream) : scenario.Ends base.toSettings count stream
      ((scenario.configs base count).run.run stream) := by
  cases scenario with
  | minimal => exact ends_of_settles (settles_minimalConfigs base count) stream
  | unaligned => exact ends_of_settles (settles_unalignedConfigs base count) stream
  | strided => exact ends_of_settles (settles_stridedConfigs base count) stream
  | restricted => exact ends_of_settles (settles_restrictedConfigs base count) stream
  | random =>
    refine ⟨fun _ ↦ ?_, fun hshort ↦ (hshort (by simp [counts])).elim⟩
    obtain ⟨configs, stream', hrun, hlength, hconfigs⟩ :=
      base.succeeds_drawVariations count.toNat stream
    exact ⟨configs, stream', hrun, hlength, fun c _ ↦ c.regular,
      fun c hc ↦ (hconfigs c hc).toSameKernel, by simp⟩

/-- A scenario whose base has unset strides always has its configurations. -/
theorem exists_configs {base : Config} (hbase : base.Unpadded) (scenario : Scenario) (count : Int)
    (stream : Random.Stream) : ∃ configs stream',
      (scenario.configs base count).run.run stream = (.ok configs, stream') := by
  obtain ⟨configs, stream', hrun, -⟩ := (ends_configs scenario base count stream).family
    fun _ _ ↦ ⟨.inl hbase.inputStride, .inl hbase.outputStride⟩
  exact ⟨configs, stream', hrun⟩

/-- Strides of the base that leave room for the channel counts of a scenario give it its family of
configurations. Others stop it at the first count without room, and nothing is drawn. -/
theorem configs_family_or_flaw (scenario : Scenario) (base : Config) (count : Nat)
    (stream : Random.Stream) :
    ((∀ channels ∈ scenario.counts base.toSettings count, base.Takes channels) →
      ∃ configs stream', (scenario.configs base count).run.run stream = (.ok configs, stream') ∧
        configs.length ≤ count ∧ scenario.Family base.toSettings count configs) ∧
    ((¬ ∀ channels ∈ scenario.counts base.toSettings count, base.Takes channels) →
      ∃ flaw, (scenario.counts base.toSettings count).findSome? base.shortage? = some flaw ∧
        (scenario.configs base count).run.run stream = (.error flaw.raise, stream)) := by
  have hends := ends_configs scenario base count stream
  refine ⟨fun hroom ↦ ?_, hends.flaw⟩
  obtain ⟨configs, stream', hrun, hfamily⟩ := hends.family hroom
  refine ⟨configs, stream', hrun, ?_, hfamily⟩
  rw [hfamily.length_eq]
  exact scenario.size_le base.tile count

def roomyConfig : Config where
  channels := 2
  tile := 2
  inputStride := 6
  outputStride := 7
  sound := by decide

theorem configs_family_or_flaw_roomy :
    (∀ channels ∈ unaligned.counts roomyConfig.toSettings 5, roomyConfig.Takes channels) ∧
    ∃ configs stream', (unaligned.configs roomyConfig 5).run.run (.ofSeed 9) =
        (.ok configs, stream') ∧ configs.length ≤ 5 ∧
      unaligned.Family roomyConfig.toSettings 5 configs := by
  have hroom : ∀ channels ∈ unaligned.counts roomyConfig.toSettings 5,
      roomyConfig.Takes channels := by
    simp only [← Settings.shortage?_eq_none_iff]
    decide
  exact ⟨hroom, (configs_family_or_flaw unaligned roomyConfig 5 (.ofSeed 9)).1 hroom⟩

def tightConfig : Config where
  inputStride := 1
  sound := by decide

theorem not_forall_configs_family : ¬ ∀ (scenario : Scenario) (base : Config) (count : Nat)
    (stream : Random.Stream), scenario ≠ random → ∃ configs stream',
      (scenario.configs base count).run.run stream = (.ok configs, stream') ∧
        configs.length ≤ count ∧ scenario.Family base.toSettings count configs := by
  intro h
  obtain ⟨configs, stream', hrun, -⟩ := h unaligned tightConfig 2 (.ofSeed 9) (by decide)
  have hrefused : (unaligned.configs tightConfig 2).run.run (.ofSeed 9) =
      (.error (Settings.Flaw.inputStride 1 2).raise, .ofSeed 9) := rfl
  rw [Nat.cast_ofNat, hrefused] at hrun
  cases hrun

end Scenario

end Depthwise
