import Depthwise.Proofs.Kernel.Isolation
import Depthwise.Proofs.Session.Stages
import Depthwise.Proofs.Trial.Draws

namespace Depthwise.Output

open Kernel (Family)

def rowPlaces (s : Settings) : List Int :=
  (List.range s.width.toNat).flatMap fun x ↦
    (List.range s.channels.toNat).map fun (c : Nat) ↦ rowStart s x + c

/-- The places that a kernel comes to when it starts at `start` and moves on by `lanes` and
`increment` after each row. -/
def visited (lanes increment start : Int) : Nat → List Int
  | 0 => []
  | rows + 1 => (List.range lanes.toNat).map (fun (c : Nat) ↦ start + c) ++
      visited lanes increment (start + (lanes + increment)) rows

theorem visited_eq_flatMap (lanes increment start : Int) (rows : Nat) :
    visited lanes increment start rows = (List.range rows).flatMap fun (x : Nat) ↦
      (List.range lanes.toNat).map fun (c : Nat) ↦ start + x * (lanes + increment) + c := by
  induction rows generalizing start with
  | zero => rfl
  | succ rows ih =>
    have hnext : ∀ x : Nat, start + (lanes + increment) + x * (lanes + increment) =
        start + ((x + 1 : Nat) : Int) * (lanes + increment) := fun x ↦ by push_cast; ring
    rw [visited, ih, List.range_succ_eq_map, List.flatMap_cons, List.flatMap_map]
    simp only [hnext, Nat.cast_zero, zero_mul, add_zero, Nat.succ_eq_add_one]

variable {s : Settings}

theorem visited_eq_rowPlaces (s : Settings) :
    visited s.channels s.outputIncrement 0 s.width.toNat = rowPlaces s := by
  rw [visited_eq_flatMap, rowPlaces, Settings.outputIncrement, add_sub_cancel]
  simp only [zero_add, rowStart]

theorem mem_rowPlaces_iff (hs : s.Regular) {place : Int} :
    place ∈ rowPlaces s ↔ ∃ x c : Nat, x < s.width.toNat ∧ c < s.channels.toNat ∧
      place = ((x * s.effectiveOutputStride.toNat + c : Nat) : Int) := by
  simp only [rowPlaces, List.mem_flatMap, List.mem_range, List.mem_map, ← rowStart_add hs]
  constructor
  · rintro ⟨x, hx, c, hc, rfl⟩
    exact ⟨x, c, hx, hc, rfl⟩
  · rintro ⟨x, c, hx, hc, rfl⟩
    exact ⟨x, hx, c, hc, rfl⟩

theorem nodup_rowPlaces (hs : s.Regular) : (rowPlaces s).Nodup := by
  have hchannels := hs.channels_pos
  have hstride := hs.channels_le_outputStride
  have hlanes : (s.channels.toNat : Int) ≤ s.effectiveOutputStride := by omega
  have h := pairwise_rowStart 0 hlanes s.width.toNat
  simp only [add_zero] at h
  exact h.imp fun h ↦ h.ne

theorem nodup_paddingPlaces (hs : s.Regular) : (paddingPlaces s).Nodup :=
  (pairwise_paddingPlaces hs).imp fun h ↦ h.ne

theorem disjoint_places (hs : s.Regular) : (rowPlaces s).Disjoint (paddingPlaces s) := by
  have hstride := hs.channels_le_outputStride
  intro place hrow hpadding
  obtain ⟨x, c, -, hc, rfl⟩ := (mem_rowPlaces_iff hs).1 hrow
  obtain ⟨n, hn, y, d, -, hd, hd', rfl⟩ := (mem_paddingPlaces_iff hs).1 hpadding
  have heq := congrArg (· % s.effectiveOutputStride.toNat) (Int.ofNat_inj.1 hn)
  simp only [Buffer.row_mod (show c < s.effectiveOutputStride.toNat by omega),
    Buffer.row_mod hd'] at heq
  omega

theorem outputSize_eq (hs : s.Regular) : s.outputSize =
    (((s.width.toNat - 1) * s.effectiveOutputStride.toNat + s.channels.toNat : Nat) : Int) := by
  have hwidth := hs.width_pos
  have hchannels := hs.channels_pos
  have hstride := hs.channels_le_outputStride
  rw [Settings.outputSize, Nat.cast_add, Nat.cast_mul, Nat.cast_sub (by omega),
    Int.toNat_of_nonneg (by omega), Int.toNat_of_nonneg (by omega),
    Int.toNat_of_nonneg (by omega), Nat.cast_one]

/-- The lanes of some rows and the gaps between them fill what lies in front of the last lane. -/
theorem row_or_gap_iff {rows lanes stride n : Nat} (hrows : 1 ≤ rows) (hpos : 1 ≤ lanes)
    (hlanes : lanes ≤ stride) :
    ((∃ x c, x < rows ∧ c < lanes ∧ n = x * stride + c) ∨
        ∃ x c, x + 1 < rows ∧ lanes ≤ c ∧ c < stride ∧ n = x * stride + c) ↔
      n < (rows - 1) * stride + lanes := by
  constructor
  · rintro (⟨x, c, hx, hc, rfl⟩ | ⟨x, c, hx, -, hc, rfl⟩)
    · have := Nat.mul_le_mul_right stride (show x ≤ rows - 1 by omega)
      omega
    · have := Nat.mul_le_mul_right stride (show x + 1 ≤ rows - 1 by omega)
      rw [Nat.succ_mul] at this
      omega
  · -- The row of a place is its quotient by the stride; the last row has no gap behind it.
    intro hn
    have hsplit := Nat.div_add_mod n stride
    have hmod := Nat.mod_lt n (show 0 < stride by omega)
    rw [Nat.mul_comm] at hsplit
    have hlt : n / stride < rows := by
      by_contra hge
      have := Nat.mul_le_mul_right stride (show rows - 1 + 1 ≤ n / stride by omega)
      rw [Nat.succ_mul] at this
      omega
    rcases Nat.lt_or_ge (n % stride) lanes with hc | hc
    · exact .inl ⟨_, _, hlt, hc, hsplit.symm⟩
    · refine .inr ⟨_, _, ?_, hc, hmod, hsplit.symm⟩
      by_contra hlast
      obtain hlast : n / stride = rows - 1 := by omega
      rw [hlast] at hsplit
      omega

theorem mem_places_iff (hs : s.Regular) {place : Int} :
    place ∈ rowPlaces s ∨ place ∈ paddingPlaces s ↔ 0 ≤ place ∧ place < s.outputSize := by
  have hwidth := hs.width_pos
  have hchannels := hs.channels_pos
  have hstride := hs.channels_le_outputStride
  have hplace : ∀ n : Nat, (n : Int) ∈ rowPlaces s ∨ (n : Int) ∈ paddingPlaces s ↔
      (n : Int) < s.outputSize := by
    intro n
    rw [mem_rowPlaces_iff hs, mem_paddingPlaces_iff hs, outputSize_eq hs]
    simp only [Int.ofNat_inj, exists_eq_left', IsPadding]
    rw [Int.ofNat_lt]
    exact row_or_gap_iff (by omega) (by omega) (by omega)
  constructor
  · intro h
    obtain ⟨n, rfl⟩ : ∃ n : Nat, place = n := by
      rcases h with h | h
      · obtain ⟨x, c, -, -, heq⟩ := (mem_rowPlaces_iff hs).1 h
        exact ⟨_, heq⟩
      · obtain ⟨n, heq, -⟩ := (mem_paddingPlaces_iff hs).1 h
        exact ⟨n, heq⟩
    exact ⟨Int.natCast_nonneg n, (hplace n).1 h⟩
  · rintro ⟨hnonneg, hlt⟩
    obtain ⟨n, rfl⟩ := Int.eq_ofNat_of_zero_le hnonneg
    exact (hplace n).2 hlt

/-- The places of codes and of padding as a partition of the places below a length. -/
structure Partition (codes padding : List Int) (size : Int) : Prop where
  nodup_codes : codes.Nodup
  nodup_padding : padding.Nodup
  disjoint : codes.Disjoint padding
  mem_iff : ∀ place, place ∈ codes ∨ place ∈ padding ↔ 0 ≤ place ∧ place < size

theorem partition_places (hs : s.Regular) :
    Partition (rowPlaces s) (paddingPlaces s) s.outputSize :=
  ⟨nodup_rowPlaces hs, nodup_paddingPlaces hs, disjoint_places hs, fun _ ↦ mem_places_iff hs⟩

section Reading

variable {output : Bytes} (hs : s.Regular) (hsize : (output.size : Int) = s.outputSize)

include hs hsize

theorem readByte_place {place : Int} (h : place ∈ rowPlaces s ∨ place ∈ paddingPlaces s) :
    readByte output place = .ok (output.getD place.toNat 0) := by
  obtain ⟨hnonneg, hlt⟩ := (mem_places_iff hs).1 h
  obtain ⟨n, rfl⟩ := Int.eq_ofNat_of_zero_le hnonneg
  exact readByte_natCast (by omega)

/-- The comparison reads the codes at the places of the codes. -/
theorem rows_read : ∃ codes, rows s output = .ok codes ∧
    (rowPlaces s).mapM (readByte output) = .ok codes.flatten := by
  have hplaces : (rowPlaces s).map (fun place ↦ output.getD place.toNat 0) =
      (matrix s.width.toNat s.channels.toNat fun x c ↦
        output.getD (x * s.effectiveOutputStride.toNat + c) 0).flatten := by
    rw [rowPlaces, List.map_flatMap, matrix, ← List.flatMap_def]
    refine List.flatMap_congr fun x _ ↦ ?_
    rw [List.map_map]
    refine List.map_congr_left fun c _ ↦ ?_
    rw [Function.comp_apply, rowStart_add hs, Int.toNat_natCast]
  refine ⟨_, rows_ok hs hsize, ?_⟩
  rw [mapM_ok fun place hplace ↦ readByte_place hs hsize (.inl hplace), hplaces]

/-- The snapshot holds the bytes at the places of the padding. -/
theorem padding_read : ∃ held, padding s output = .ok held ∧
    held.map Prod.fst = paddingPlaces s ∧
    (paddingPlaces s).mapM (readByte output) = .ok (held.map Prod.snd) := by
  refine ⟨_, padding_ok hs hsize, ?_, ?_⟩
  · rw [List.map_map]
    exact List.map_id _
  · rw [mapM_ok fun place hplace ↦ readByte_place hs hsize (.inr hplace), List.map_map]
    rfl

end Reading

/-- A change of outputs of some length that sets the bytes at some places, whatever they held, and
no others. -/
structure Overwrites (places : List Int) (size : Nat) (change : Bytes → Bytes) : Prop where
  size_eq : ∀ before, before.size = size → (change before).size = size
  fixed : ∀ before before', before.size = size → before'.size = size →
    ∀ i : Nat, (i : Int) ∈ places → (change before)[i]? = (change before')[i]?
  kept : ∀ before, before.size = size →
    ∀ i : Nat, (i : Int) ∉ places → (change before)[i]? = before[i]?

section Kernels

variable {config : Config} {t : Trial} {params : FixedPoint.Params}

def refilled (t : Trial) (output : Bytes) : Trial :=
  { t with buffers := { t.buffers with output } }

theorem laid_refilled (ht : t.Laid s) {output : Bytes}
    (hsize : output.size = t.buffers.output.size) : (refilled t output).Laid s :=
  ⟨ht.input_size, ht.weights_size, ht.packed_size, ht.bias_size, hsize ▸ ht.output_size,
    ht.table_perm⟩

variable (hheight : 1 ≤ config.kernelHeight) (hwidth : 1 ≤ config.kernelWidth)
  (ht : t.Laid config.toSettings) (hp : params.Sound)

include hheight hwidth ht

theorem fits_refilled {output : Bytes} (hsize : output.size = t.buffers.output.size) :
    (Session.kernelCall config (refilled t output) params).Fits config.kernelSize config.tile := by
  have hlaid := laid_refilled ht hsize
  exact Session.kernelCall_fits hheight hwidth (hlaid.fits config.regular hheight hwidth)
    config.regular.tile_pos (Session.packed_room hlaid)

include hp

theorem run_refilled (family : Family) {output : Bytes}
    (hsize : output.size = t.buffers.output.size) :
    family.run config.kernelSize config.tile
        (Session.kernelCall config (refilled t output) params) =
      (Session.kernelCall config (refilled t output) params).filled fun x c ↦
        family.code params ((Session.kernelCall config t params).accumulator config.kernelSize
          config.tile x c) := by
  have hpoint : Kernel.FitsLane 127 := by decide
  exact family.run_eq_filled (fits_refilled hheight hwidth ht hsize) hp fun _ ↦ ⟨hpoint, hpoint⟩

/-- A kernel of the library overwrites the places of the codes. -/
theorem overwrites_run (family : Family) :
    Overwrites (rowPlaces config.toSettings) t.buffers.output.size fun output ↦
      (family.run config.kernelSize config.tile
        (Session.kernelCall config (refilled t output) params)).buffers.output := by
  have hs := config.regular
  have hfits : ∀ output : Bytes, output.size = t.buffers.output.size →
      (Session.kernelCall config (refilled t output) params).Fits config.kernelSize config.tile :=
    fun output hsize ↦ fits_refilled hheight hwidth ht hsize
  have hrun := fun (output : Bytes) (hsize : output.size = t.buffers.output.size) ↦
    run_refilled hheight hwidth ht hp family hsize
  refine ⟨fun before hsize ↦ ?_, fun before before' hsize hsize' i hi ↦ ?_,
    fun before hsize i hi ↦ ?_⟩
  · rw [hrun before hsize, Kernel.Call.size_filled]
    exact hsize
  · obtain ⟨x, c, hx, hc, heq⟩ := (mem_rowPlaces_iff hs).1 hi
    obtain rfl : i = x * config.effectiveOutputStride.toNat + c := Int.ofNat_inj.1 heq
    have hcode := fun (output : Bytes) (hsize : output.size = t.buffers.output.size) code ↦
      (hfits output hsize).getElem?_filled code hx hc
    simp only [Session.kernelCall_stride] at hcode
    rw [hrun before hsize, hrun before' hsize', hcode before hsize, hcode before' hsize']
  · rw [hrun before hsize]
    refine (hfits before hsize).getElem?_filled_of_outside _ fun x hx ↦ ?_
    rw [Session.kernelCall_stride]
    by_contra hin
    refine hi ((mem_rowPlaces_iff hs).2
      ⟨x, i - x * config.effectiveOutputStride.toNat, hx, ?_, ?_⟩)
    · change ¬ (_ ∨ x * config.effectiveOutputStride.toNat + config.channels.toNat ≤ i) at hin
      omega
    · omega

end Kernels

/-- The places that the comparison reads and those that it watches share out an output of the drawn
length between them. The former are the places that a kernel comes to which starts at the front and
moves on by the channels and the output increment, and those that the kernels of the library
overwrite. -/
theorem places_shared_out (config : Config) :
    Partition (rowPlaces config.toSettings) (paddingPlaces config.toSettings) config.outputSize ∧
    (∀ output : Bytes, (output.size : Int) = config.outputSize →
      (∃ codes, rows config.toSettings output = .ok codes ∧
        (rowPlaces config.toSettings).mapM (readByte output) = .ok codes.flatten) ∧
      ∃ held, padding config.toSettings output = .ok held ∧
        held.map Prod.fst = paddingPlaces config.toSettings ∧
        (paddingPlaces config.toSettings).mapM (readByte output) = .ok (held.map Prod.snd)) ∧
    Sized (Trial.Storable 1 config.outputSize)
      (fun output ↦ (output.size : Int) = config.outputSize)
      (Trial.drawBytes config.outputSize) ∧
    visited config.channels config.outputIncrement 0 config.width.toNat =
      rowPlaces config.toSettings ∧
    ∀ (family : Family) (t : Trial) (path : FixedPoint.Path) (scale : Double)
      (zeroPoint qmin qmax : Int) (params : FixedPoint.Params),
      1 ≤ config.kernelHeight → 1 ≤ config.kernelWidth → t.Laid config.toSettings →
      FixedPoint.derive path scale zeroPoint qmin qmax = .ok params →
      Overwrites (rowPlaces config.toSettings) t.buffers.output.size fun output ↦
        (family.run config.kernelSize config.tile
          (Session.kernelCall config (refilled t output) params)).buffers.output := by
  have hs := config.regular
  refine ⟨partition_places hs, fun output hsize ↦ ⟨rows_read hs hsize, padding_read hs hsize⟩,
    Trial.sized_drawBytes _, visited_eq_rowPlaces _, ?_⟩
  intro family t path scale zeroPoint qmin qmax params hheight hwidth ht hparams
  exact overwrites_run hheight hwidth ht (FixedPoint.derive_sound hparams) family

def gappedConfig : Config := ⟨{ width := 2, channels := 2, outputStride := 5 }, by decide⟩

def gappedTrial : Trial where
  buffers := {
    input := #[0, 0, 0, 0, 0, 0, 0, 0, 127, 140, 3, 255]
    packed := #[127, 130]
    bias := #[50, -7]
    output := #[1, 2, 3, 4, 5, 6, 7] }
  weights := #[127, 130]
  table := #[⟨8, 12⟩, ⟨10, 12⟩]

theorem gappedTrial_laid : gappedTrial.Laid gappedConfig.toSettings where
  input_size := rfl
  weights_size := rfl
  packed_size := rfl
  bias_size := rfl
  output_size := rfl
  table_perm := .of_eq (by rw [Trial.rowViews_eq]; rfl)

theorem places_shared_out_gapped :
    Partition [0, 1, 5, 6] [2, 3, 4] 7 ∧
      (∃ codes, rows gappedConfig.toSettings gappedTrial.buffers.output = .ok codes) ∧
      visited 2 3 0 2 = [0, 1, 5, 6] ∧
      Overwrites [0, 1, 5, 6] 7 fun output ↦
        (Family.vectorized.run 1 1 (Session.kernelCall gappedConfig
          (refilled gappedTrial output)
          ⟨1610612736, 2, 3, 1, 5, 2, 250, .vector⟩)).buffers.output := by
  obtain ⟨hpartition, hread, -, hvisited, hoverwrites⟩ := places_shared_out gappedConfig
  have hparams : FixedPoint.derive .vector (.ofRat (3 / 16)) 5 2 250 =
      .ok ⟨1610612736, 2, 3, 1, 5, 2, 250, .vector⟩ := by decide +kernel
  have hrows : rowPlaces gappedConfig.toSettings = [0, 1, 5, 6] := by decide
  have hpadding : paddingPlaces gappedConfig.toSettings = [2, 3, 4] := by decide
  have hrun := hoverwrites .vectorized gappedTrial _ _ _ _ _ _ (by decide) (by decide)
    gappedTrial_laid hparams
  rw [hrows] at hpartition hvisited hrun
  rw [hpadding] at hpartition
  obtain ⟨⟨codes, hcodes, -⟩, -⟩ := hread gappedTrial.buffers.output rfl
  exact ⟨hpartition, ⟨codes, hcodes⟩, hvisited, hrun⟩

end Depthwise.Output
