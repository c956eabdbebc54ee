import Depthwise.Kernel.Vector
import Depthwise.Proofs.Kernel.Scalar

namespace Depthwise.Kernel

def FitsLane (n : Int) : Prop := -0x80000000 ≤ n ∧ n < 0x80000000

instance (n : Int) : Decidable (FitsLane n) := inferInstanceAs (Decidable (_ ∧ _))

theorem toInt_ofInt {n : Int} (h : FitsLane n) : (Int32.ofInt n).toInt = n := by
  obtain ⟨hlow, hhigh⟩ := h
  rw [Int32.toInt_ofInt]
  exact Int.bmod_eq_of_le (by norm_num; omega) (by norm_num; omega)

namespace Vector

theorem word?_of_fits {n : Int} (h : FitsLane n) : word? n = .ok (.ofInt n) := if_pos h

theorem ofByte_eq (b : UInt8) : ofByte b = Int32.ofInt b.toNat := Int32.ofInt_eq_ofNat.symm

theorem foldl_ofInt (f : Nat → Int) (count : Nat) (start : Int) :
    ((List.range count).map fun k ↦ Int32.ofInt (f k)).foldl (· + ·) (Int32.ofInt start) =
      Int32.ofInt (start + ∑ k ∈ Finset.range count, f k) := by
  induction count with
  | zero => simp
  | succ count ih =>
    rw [List.range_succ, List.map_append, List.foldl_append, ih, Finset.sum_range_succ,
      ← add_assoc, Int32.ofInt_add (_ + _)]
    rfl

/-- Counted by taps first, the weight of channel `c` at tap `k` is in its slot. -/
theorem tapMajor_eq {tiles kernelSize tile c k : Nat} (hc : c < tiles * tile) :
    (⟨tiles, kernelSize, tile⟩ : Weights.Layout).tapMajor (k * (tiles * tile) + c) =
      Weights.slot kernelSize tile c k := by
  have hlane : (k * (tiles * tile) + c) % tile = c % tile := by
    rw [← Nat.mul_assoc, Nat.add_comm, Nat.add_mul_mod_self_right]
  rw [Weights.Layout.tapMajor, Weights.Layout.place, Buffer.row_div hc, Buffer.row_mod hc, hlane,
    Weights.slot]

structure Grid.Holds {α : Type} (g : Grid α) (rows lanes : Nat) (entry : Nat → Nat → α) : Prop where
  rows_eq : g.rows = rows
  lanes_eq : g.lanes = lanes
  entry_eq : ∀ k < rows, ∀ c < lanes, g.entry k c = entry k c

theorem Grid.Holds.spread {α : Type} {g : Grid α} {rows lanes : Nat} {entry : Nat → Nat → α}
    (h : g.Holds rows lanes entry) {k c : Nat} (hk : k < rows) (hc : c < lanes) :
    g.spread k c = entry k c := by
  rw [Grid.spread, h.rows_eq, h.lanes_eq, Shape.spread_of_lt hk, Shape.spread_of_lt hc,
    h.entry_eq k hk c hc]

theorem dot_ok {samples weights : Grid Int32} {rows lanes : Nat} {s w : Nat → Nat → Int}
    (hs : samples.Holds rows lanes fun k c ↦ .ofInt (s k c))
    (hw : weights.Holds rows lanes fun k c ↦ .ofInt (w k c)) :
    dot samples weights = .ok ((Array.range lanes).map fun c ↦
      Int32.ofInt (∑ k ∈ Finset.range rows, s k c * w k c)) := by
  have hlane : ∀ c < lanes, ((List.range rows).map fun k ↦
      samples.spread k c * weights.spread k c).foldl (· + ·) 0 =
        Int32.ofInt (∑ k ∈ Finset.range rows, s k c * w k c) := by
    intro c hc
    have hterms : ((List.range rows).map fun k ↦ samples.spread k c * weights.spread k c) =
        (List.range rows).map fun k ↦ Int32.ofInt (s k c * w k c) := by
      apply List.map_congr_left
      intro k hk
      rw [hs.spread (List.mem_range.1 hk) hc, hw.spread (List.mem_range.1 hk) hc, Int32.ofInt_mul]
    have hsum := foldl_ofInt (fun k ↦ s k c * w k c) rows 0
    rw [zero_add] at hsum
    rw [hterms]
    exact hsum
  rw [dot, hs.rows_eq, hs.lanes_eq, hw.rows_eq, hw.lanes_eq, Shape.common?_self,
    Shape.common?_self]
  simp only [usable, bind, Except.bind, pure, Except.pure, Except.ok.injEq]
  apply Array.map_congr_left
  intro c hc
  exact hlane c (Array.mem_range.1 hc)

theorem addRows_ok {a b : Array Int32} (hsize : a.size = b.size) :
    addRows a b = .ok ((Array.range b.size).map fun c ↦ a.getD c 0 + b.getD c 0) := by
  rw [addRows, hsize, Shape.common?_self]
  simp only [usable, bind, Except.bind, pure, Except.pure, Except.ok.injEq]
  apply Array.map_congr_left
  intro c hc
  rw [Shape.spread_of_lt (Array.mem_range.1 hc)]

section Call

variable {call : Call} {kernelSize tile : Nat}

section Weights

variable (hks : 0 < kernelSize) (htile : 0 < tile) (hchannels : 1 ≤ call.channels)
  (hroom : Weights.tiles tile call.channels.toNat * kernelSize * tile ≤ call.buffers.packed.size)

include hks htile hchannels hroom

theorem weightGrid_ok : ∃ grid, weightGrid kernelSize tile call = .ok grid ∧
    grid.Holds kernelSize call.channels.toNat fun k c ↦ call.weight kernelSize tile c k := by
  have hcast : (call.channels.toNat : Int) = call.channels := Int.toNat_of_nonneg (by omega)
  have hchannels : 0 < call.channels.toNat := by omega
  have hpos := Weights.tiles_pos htile hchannels
  have hle : call.channels.toNat ≤ Weights.tiles tile call.channels.toNat * tile :=
    Weights.le_tiles_mul htile
  obtain ⟨hextent, hlayout⟩ :=
    Weights.layout_eq htile (Weights.not_excessive_of_pos hks hchannels) hroom
  have hresolve : Shape.resolve? (Weights.tiles tile call.channels.toNat * kernelSize * tile)
      [(kernelSize : Int), (Weights.tiles tile call.channels.toNat : Int) * tile] =
        some [kernelSize, Weights.tiles tile call.channels.toNat * tile] := by
    rw [Shape.resolve?_of_known (.inl (by positivity))]
    · rfl
    · intro a ha
      rcases List.mem_pair.1 ha with rfl | rfl <;> positivity
    · rw [Shape.known_cons (by positivity), Shape.known_cons (by positivity), Shape.known_nil,
        mul_one, mul_right_comm, mul_comm _ kernelSize]
      rfl
  have hused : Buffer.bound (Weights.tiles tile call.channels.toNat * tile)
      (call.channels.toNat : Int) = call.channels.toNat := Buffer.bound_of_le hle
  have htiles : Weights.tileCount tile (call.channels.toNat : Int) =
      Weights.tiles tile call.channels.toNat := Weights.tileCount_natCast (by omega)
  rw [hcast] at hextent hlayout hused htiles
  have hne : ¬ Weights.tiles tile call.channels.toNat * kernelSize * tile = 0 := by positivity
  refine ⟨⟨kernelSize, call.channels.toNat, fun k c ↦ call.buffers.packed.getD
    ((⟨Weights.tiles tile call.channels.toNat, kernelSize, tile⟩ : Weights.Layout).tapMajor
      (k * (Weights.tiles tile call.channels.toNat * tile) + c)) 0⟩, ?_, rfl, rfl, ?_⟩
  · rw [weightGrid, if_neg (by omega)]
    simp only [usable, bind, Except.bind, pure, Except.pure, hlayout, hextent, htiles, hresolve,
      hused, hne, false_and, if_false]
  · intro k hk c hc
    simp only [tapMajor_eq (hc.trans_le hle)]
    rw [Array.getD_eq_getD_getElem?, Call.getElem?_slot htile hroom hc hk]
    rfl

theorem centredWeights_ok (hzero : FitsLane call.kernelZeroPoint) :
    ∃ grid, centredWeights kernelSize tile call = .ok grid ∧
      grid.Holds kernelSize call.channels.toNat fun k c ↦
        .ofInt ((call.weight kernelSize tile c k).toNat - call.kernelZeroPoint) := by
  obtain ⟨grid, hgrid, hrows, hlanes, hentry⟩ := weightGrid_ok hks htile hchannels hroom
  refine ⟨grid.map (ofByte · - .ofInt call.kernelZeroPoint), ?_, hrows, hlanes, ?_⟩
  · rw [centredWeights, hgrid, word?_of_fits hzero]
    rfl
  · intro k hk c hc
    simp only [Grid.map, hentry k hk c hc, ofByte_eq, Int32.ofInt_sub]

omit hks hroom in
theorem weightGrid_error (hshort : call.buffers.packed.size <
    Weights.tiles tile call.channels.toNat * kernelSize * tile) :
    weightGrid kernelSize tile call = .error (.fault .unusableValue) := by
  have hlayout := Weights.layout_eq_none htile hshort
  rw [Int.toNat_of_nonneg (by omega)] at hlayout
  rw [weightGrid, if_neg (by omega)]
  simp only [usable, bind, Except.bind, hlayout]

end Weights

variable (h : call.Fits kernelSize tile)

include h

theorem centredSamples_ok (hzero : FitsLane call.inputZeroPoint) {x : Nat}
    (hx : x < call.outputWidth.toNat) :
    ∃ grid, centredSamples call (call.taps kernelSize x) = .ok grid ∧
      grid.Holds kernelSize call.channels.toNat fun k c ↦
        .ofInt ((call.sample x k c).toNat - call.inputZeroPoint) := by
  have hks : 0 < kernelSize := by have := h.kernelSize_pos; omega
  set rows := (call.taps kernelSize x).map (Buffer.slice · 0 call.channels) with hrows
  have hsize : rows.size = kernelSize := by rw [hrows, Array.size_map, h.size_taps hx]
  have hrow : ∀ k < kernelSize, ∃ row, rows[k]? = some row ∧ row.size = call.channels.toNat ∧
      ∀ c < call.channels.toNat, row.getD c 0 = call.sample x k c := by
    intro k hk
    obtain ⟨tap, htap, hroom, hread⟩ := h.getElem?_taps hx hk
    have hslice : Buffer.slice tap 0 call.channels = tap.extract 0 call.channels.toNat := by
      rw [← h.channels_eq]
      exact Buffer.slice_natCast tap (Nat.zero_le _) hroom
    refine ⟨tap.extract 0 call.channels.toNat, ?_, ?_, fun c hc ↦ ?_⟩
    · rw [hrows, Array.getElem?_map, htap, ← hslice]
      rfl
    · rw [Array.size_extract]
      omega
    · rw [← hread, Buffer.getD_extract _ hc]
  obtain ⟨first, hfirst, hlanes, -⟩ := hrow 0 hks
  have hequal : rows.any (·.size ≠ first.size) = false := by
    rw [Array.any_eq_false]
    intro k hk
    obtain ⟨row, hget, hlen, -⟩ := hrow k (by omega)
    rw [Array.getElem?_eq_getElem hk, Option.some.injEq] at hget
    simp [hget, hlen, hlanes]
  refine ⟨⟨rows.size, first.size, fun k c ↦
    ofByte ((rows.getD k #[]).getD c 0) - .ofInt call.inputZeroPoint⟩, ?_, hsize, hlanes, ?_⟩
  · rw [centredSamples, ← hrows, hfirst, word?_of_fits hzero]
    simp only [usable, bind, Except.bind, hequal]
    rfl
  · intro k hk c hc
    obtain ⟨row, hget, -, hread⟩ := hrow k hk
    have hrowD : rows.getD k #[] = row := by rw [Array.getD_eq_getD_getElem?, hget]; rfl
    simp only [hrowD, hread c hc, ofByte_eq, Int32.ofInt_sub]

theorem accumulators_ok (hinput : FitsLane call.inputZeroPoint) {weights : Grid Int32}
    (hweights : weights.Holds kernelSize call.channels.toNat fun k c ↦
      .ofInt ((call.weight kernelSize tile c k).toNat - call.kernelZeroPoint))
    {x : Nat} (hx : x < call.outputWidth.toNat) :
    accumulators call weights (call.taps kernelSize x) =
      .ok ((Array.range call.channels.toNat).map fun c ↦
        Int32.ofInt (call.accumulator kernelSize tile x c)) := by
  obtain ⟨samples, hsamples, hholds⟩ := centredSamples_ok h hinput hx
  have hbias : Buffer.slice call.buffers.bias 0 call.channels =
      call.buffers.bias.extract 0 call.channels.toNat := by
    have hroom := h.bias_room
    rw [← h.channels_eq] at hroom ⊢
    exact Buffer.slice_natCast _ (Nat.zero_le _) (by exact_mod_cast hroom)
  have hsize : (call.buffers.bias.extract 0 call.channels.toNat).size = call.channels.toNat := by
    have hroom := h.bias_room
    rw [Array.size_extract]
    omega
  rw [accumulators, hsamples]
  simp only [bind, Except.bind, dot_ok hholds hweights, hbias]
  rw [addRows_ok (by simpa using hsize), Array.size_map, Array.size_range, Except.ok.injEq]
  apply Array.map_congr_left
  intro c hc
  have hlt := Array.mem_range.1 hc
  have hroom := h.bias_room
  rw [Call.accumulator, Int.toNat_natCast, Int32.ofInt_add, Int32.ofInt_toInt,
    Buffer.getD_extract _ hlt]
  congr 1
  simp [hlt]

theorem storeRow_ok {x : Nat} (hx : x < call.outputWidth.toNat) {codes output : Bytes}
    (hcodes : codes.size = call.channels.toNat) (hsize : output.size = call.buffers.output.size) :
    storeRow call (call.rowStart x) codes output =
      .ok (Buffer.overwrite output (x * call.stride) codes.toList) := by
  have hroom := h.row_le hx
  have hlast : call.rowStart x + call.channels =
      ((x * call.stride + call.channels.toNat : Nat) : Int) := by
    rw [h.rowStart_eq, Nat.cast_add, h.channels_eq]
  rw [storeRow, hlast, h.rowStart_eq]
  simp only [Buffer.bound_of_le (show x * call.stride ≤ output.size by omega),
    Buffer.bound_of_le (show x * call.stride + call.channels.toNat ≤ output.size by omega),
    Nat.add_sub_cancel_left, Buffer.stretch?_self codes hcodes]
  rfl

variable (hp : call.params.Sound)

include hp

theorem row_run (hinput : FitsLane call.inputZeroPoint) {weights : Grid Int32}
    (hweights : weights.Holds kernelSize call.channels.toNat fun k c ↦
      .ofInt ((call.weight kernelSize tile c k).toNat - call.kernelZeroPoint))
    {x : Nat} (hx : x < call.outputWidth.toNat) {output : Bytes}
    (hsize : output.size = call.buffers.output.size) :
    (row kernelSize call weights x).run.run output =
      (.ok (), Buffer.overwrite output (x * call.stride) ((List.range call.channels.toNat).map
        fun c ↦ call.params.words.store
          (Int32.ofInt (call.accumulator kernelSize tile x c)).toInt64)) := by
  apply Writing.run_single
  have hcodes : FixedPoint.requantizeLanes call.params (((Array.range call.channels.toNat).map
      fun c ↦ Int32.ofInt (call.accumulator kernelSize tile x c)).map (·.toInt64)) =
        .ok ((Array.range call.channels.toNat).map fun c ↦ call.params.words.store
          (Int32.ofInt (call.accumulator kernelSize tile x c)).toInt64) := by
    rw [FixedPoint.requantizeLanes, FixedPoint.ofParams_eq hp, Array.map_map]
    change Except.ok (Array.map _ (Array.map _ _)) = _
    rw [Array.map_map]
    rfl
  rw [accumulators_ok h hinput hweights hx]
  simp only [bind, Except.bind, hcodes]
  change storeRow call (call.rowStart x) _ output = _
  rw [storeRow_ok h hx (by simp) hsize]
  simp [Array.toList_range]

/-- The vector kernel fills the rows with the codes of the accumulators reduced to words. -/
theorem run_eq (hinput : FitsLane call.inputZeroPoint) (hkernel : FitsLane call.kernelZeroPoint) :
    run kernelSize tile call = call.filled fun x c ↦ call.params.words.store
      (Int32.ofInt (call.accumulator kernelSize tile x c)).toInt64 := by
  have hks := h.kernelSize_pos
  have htile := h.tile_pos
  obtain ⟨weights, hweights, hholds⟩ :=
    centredWeights_ok (by omega) (by omega) h.channels_pos h.packed_le hkernel
  obtain ⟨hrun, -⟩ := Counting.forEach_run (f := row kernelSize call weights)
    (g := fun x output ↦ Buffer.overwrite output (x * call.stride)
      ((List.range call.channels.toNat).map fun c ↦ call.params.words.store
        (Int32.ofInt (call.accumulator kernelSize tile x c)).toInt64))
    (I := fun output ↦ output.size = call.buffers.output.size) 0 call.outputWidth.toNat
    (fun x _ hx output hsize ↦ ⟨row_run h hp hinput hholds (by omega) hsize, by
      rw [Buffer.size_overwrite, hsize]⟩) call.buffers.output rfl
  rw [← List.range_eq_range'] at hrun
  rw [run, Call.writing, run_bind_ok (run_liftM_ok hweights _), hrun]
  rfl

end Call

end Vector

end Depthwise.Kernel
