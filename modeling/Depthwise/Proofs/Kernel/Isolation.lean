import Depthwise.Proofs.Convolution
import Depthwise.Proofs.Kernel.Agreement

namespace Depthwise

namespace Kernel

namespace Call

structure Supplied (kernelSize tile : Int) (call : Call) : Prop where
  kernelSize_pos : 1 ≤ kernelSize
  tile_pos : 1 ≤ tile
  channels_pos : 1 ≤ call.channels
  outputIncrement_nonneg : 0 ≤ call.outputIncrement
  packed_room :
    Weights.tileCount tile call.channels * tile * kernelSize ≤ call.buffers.packed.size
  bias_room : call.channels ≤ call.buffers.bias.size
  taps_size : ∀ x < call.outputWidth.toNat, (call.taps kernelSize x).size = kernelSize
  tap_room : ∀ x < call.outputWidth.toNat, ∀ row ∈ call.taps kernelSize x,
    call.channels ≤ row.size
  output_room : 0 < call.outputWidth →
    (call.outputWidth - 1) * (call.channels + call.outputIncrement) + call.channels ≤
      call.buffers.output.size

def window (kernelSize : Int) (call : Call) (x : Nat) : Array View :=
  let start := x * call.inputIncrement.fdiv Settings.entrySize
  Buffer.slice call.table start (start + kernelSize)

/-- The call whose table holds the views of the taps in the order in which they are used. -/
def unrolled (kernelSize : Nat) (call : Call) : Call :=
  { call with
    table := (Array.range (call.outputWidth.toNat * kernelSize)).map fun (i : Nat) ↦
      (call.window kernelSize (i / kernelSize)).getD (i % kernelSize) ⟨0, 0⟩
    inputIncrement := kernelSize * Settings.entrySize }

def byte? (kernelSize : Int) (call : Call) (x k c : Nat) : Option UInt8 :=
  (call.taps kernelSize x)[k]?.bind (·[c]?)

def tapSum (kernelSize tile : Int) (call : Call) (x c : Nat) : Int :=
  (call.buffers.bias.getD c 0).toInt + ∑ k ∈ Finset.range kernelSize.toNat,
    ((((call.byte? kernelSize x k c).getD 0).toNat : Int) - call.inputZeroPoint) *
      (((call.weight kernelSize tile c k).toNat : Int) - call.kernelZeroPoint)

section Unrolled

variable {kernelSize : Nat} {call : Call}

theorem step_unrolled : (call.unrolled kernelSize).step = kernelSize := by
  rw [step, unrolled, Int.mul_fdiv_cancel _ (by decide), Int.toNat_natCast]

variable (hsize : ∀ x < call.outputWidth.toNat, (call.taps kernelSize x).size = kernelSize)
  {x : Nat} (hx : x < call.outputWidth.toNat)

include hx

theorem row_le_unrolled :
    x * kernelSize + kernelSize ≤ (call.unrolled kernelSize).table.size := by
  have hnext := Nat.mul_le_mul_right kernelSize (show x + 1 ≤ call.outputWidth.toNat from hx)
  rw [Nat.succ_mul] at hnext
  simpa [unrolled] using hnext

include hsize

theorem getElem?_unrolled {k : Nat} (hk : k < kernelSize) :
    (call.unrolled kernelSize).table[x * kernelSize + k]? = (call.window kernelSize x)[k]? := by
  have hlt : x * kernelSize + k < call.outputWidth.toNat * kernelSize := by
    have hrow : x * kernelSize + kernelSize ≤ (call.unrolled kernelSize).table.size :=
      row_le_unrolled hx
    simp only [unrolled, Array.size_map, Array.size_range] at hrow
    omega
  have hwindow : (call.window kernelSize x).size = kernelSize := by
    simpa [taps, window] using hsize x hx
  simp [unrolled, hlt, Buffer.row_div hk, Buffer.row_mod hk,
    Array.getElem?_eq_getElem (hwindow.symm ▸ hk)]

theorem taps_unrolled :
    (call.unrolled kernelSize).taps kernelSize x = call.taps kernelSize x := by
  have hstart : (x : Int) * (call.unrolled kernelSize).inputIncrement.fdiv Settings.entrySize =
      ((x * kernelSize : Nat) : Int) := by
    rw [unrolled, Int.mul_fdiv_cancel _ (by decide), Nat.cast_mul]
  have hend : x * kernelSize + kernelSize ≤ (call.unrolled kernelSize).table.size :=
    row_le_unrolled hx
  have hwindow : (call.window kernelSize x).size = kernelSize := by
    simpa [taps, window] using hsize x hx
  have hviews : (call.unrolled kernelSize).table.extract (x * kernelSize)
      (x * kernelSize + kernelSize) = call.window kernelSize x := by
    apply Array.ext_getElem?
    intro k
    rw [Array.getElem?_extract]
    by_cases hk : k < kernelSize
    · rw [if_pos (by omega), getElem?_unrolled hsize hx hk]
    · rw [if_neg (by omega), Array.getElem?_eq_none (by omega)]
  rw [taps, hstart, ← Nat.cast_add, Buffer.slice_natCast _ (Nat.le_add_right _ _) hend, hviews]
  rfl

end Unrolled

namespace Supplied

theorem exists_natCast {kernelSize tile : Int} {call : Call} (h : call.Supplied kernelSize tile) :
    ∃ m n : Nat, kernelSize = m ∧ tile = n :=
  exists_counts h.kernelSize_pos h.tile_pos

variable {kernelSize tile : Nat} {call : Call} (h : call.Supplied kernelSize tile)

include h

theorem size_taps {x : Nat} (hx : x < call.outputWidth.toNat) :
    (call.taps kernelSize x).size = kernelSize := by
  exact_mod_cast h.taps_size x hx

/-- A call that is supplied with its taps in any steps becomes one that finds them in order. -/
theorem fits (hwidth : 0 ≤ call.outputWidth) : (call.unrolled kernelSize).Fits kernelSize tile := by
  refine ⟨h.kernelSize_pos, h.tile_pos, h.channels_pos, hwidth,
    mul_nonneg (Int.natCast_nonneg _) (by decide), h.outputIncrement_nonneg, h.packed_room,
    h.bias_room, fun x hx ↦ ?_, fun x hx k hk view hview ↦ ?_, h.output_room⟩
  · have hrow : x * kernelSize + kernelSize ≤ (call.unrolled kernelSize).table.size :=
      row_le_unrolled hx
    rw [step_unrolled]
    exact_mod_cast hrow
  · rw [Int.toNat_natCast] at hk
    rw [step_unrolled, getElem?_unrolled (fun x hx ↦ h.size_taps hx) hx hk] at hview
    exact h.tap_room x hx _ (Array.mem_map_of_mem (Array.mem_of_getElem? hview))

theorem accumulator_unrolled (hwidth : 0 ≤ call.outputWidth) {x : Nat}
    (hx : x < call.outputWidth.toNat) (c : Nat) :
    (call.unrolled kernelSize).accumulator kernelSize tile x c =
      call.tapSum kernelSize tile x c := by
  have hbyte : ∀ k < kernelSize, (call.unrolled kernelSize).sample x k c =
      (call.byte? kernelSize x k c).getD 0 := by
    intro k hk
    obtain ⟨row, hrow, -, hread⟩ := (h.fits hwidth).getElem?_taps hx hk
    rw [taps_unrolled (fun x hx ↦ h.size_taps hx) hx] at hrow
    rw [← hread, byte?, hrow, Array.getD_eq_getD_getElem?]
    rfl
  rw [accumulator, tapSum, Int.toNat_natCast, Finset.sum_congr rfl fun k hk ↦ ?_]
  · rfl
  · rw [hbyte k (Finset.mem_range.1 hk)]
    rfl

end Supplied

end Call

namespace Family

open Call (unrolled taps_unrolled)

variable {kernelSize tile : Int} {call : Call}

/-- The code that a kernel stores for an exact accumulator; the vector kernel reduces it to a word
first. -/
def code (family : Family) (p : FixedPoint.Params) (acc : Int) : UInt8 :=
  match family with
  | .scalar => p.code acc
  | .vectorized => p.words.store (Int32.ofInt acc).toInt64

theorem run_eq_filled (family : Family) (h : call.Fits kernelSize tile) (hp : call.params.Sound)
    (hzero : family = .vectorized → FitsLane call.inputZeroPoint ∧ FitsLane call.kernelZeroPoint) :
    family.run kernelSize tile call = call.filled fun x c ↦
      family.code call.params (call.accumulator kernelSize tile x c) := by
  obtain ⟨kernelSize, tile, rfl, rfl⟩ := h.exists_natCast
  cases family with
  | scalar => exact Scalar.run_eq hp h
  | vectorized => exact Vector.run_eq h hp (hzero rfl).1 (hzero rfl).2

/-- Kernels reach the table through the taps only. -/
theorem run_unrolled (family : Family) {kernelSize : Nat}
    (hsize : ∀ x < call.outputWidth.toNat, (call.taps kernelSize x).size = kernelSize) :
    family.run kernelSize tile (call.unrolled kernelSize) = family.run kernelSize tile call := by
  cases family with
  | scalar =>
    refine congrArg call.writing (Counting.forEach_congr 0 _ fun x _ hx ↦ ?_)
    have hx : x < call.outputWidth.toNat := hx.trans_eq (Nat.zero_add _)
    rw [Scalar.row, taps_unrolled hsize hx]
    rfl
  | vectorized =>
    refine congrArg call.writing (congrArg _ (funext fun weights ↦ ?_))
    refine Counting.forEach_congr 0 _ fun x _ hx ↦ ?_
    have hx : x < call.outputWidth.toNat := hx.trans_eq (Nat.zero_add _)
    rw [Vector.row, taps_unrolled hsize hx]
    rfl

theorem run_supplied (family : Family) (h : call.Supplied kernelSize tile)
    (hwidth : 0 ≤ call.outputWidth) (hp : call.params.Sound)
    (hzero : family = .vectorized → FitsLane call.inputZeroPoint ∧ FitsLane call.kernelZeroPoint) :
    family.run kernelSize tile call = call.filled fun x c ↦
      family.code call.params (call.tapSum kernelSize tile x c) := by
  obtain ⟨kernelSize, tile, rfl, rfl⟩ := h.exists_natCast
  rw [← run_unrolled family fun x hx ↦ h.size_taps hx,
    run_eq_filled family (h.fits hwidth) hp hzero]
  exact Call.filled_congr fun x hx c _ ↦
    congrArg (family.code call.params) (h.accumulator_unrolled hwidth hx c)

end Family

/-- Two calls hand a kernel the same bytes for channel `c` at position `x`: of its views, of its
packed weights, and its bias. -/
structure Call.AgreeAt (kernelSize tile : Int) (x c : Nat) (call call' : Call) : Prop where
  channels_eq : call'.channels = call.channels
  inputZeroPoint_eq : call'.inputZeroPoint = call.inputZeroPoint
  kernelZeroPoint_eq : call'.kernelZeroPoint = call.kernelZeroPoint
  params_eq : call'.params = call.params
  byte_eq : ∀ k < kernelSize.toNat, call'.byte? kernelSize x k c = call.byte? kernelSize x k c
  weight_eq : ∀ k < kernelSize.toNat,
    Buffer.read? call'.buffers.packed (Weights.place kernelSize tile c k) =
      Buffer.read? call.buffers.packed (Weights.place kernelSize tile c k)
  bias_eq : call'.buffers.bias[c]? = call.buffers.bias[c]?

section Isolation

variable {kernelSize tile : Int} {call call' : Call} {x c : Nat}
  (h : call.Supplied kernelSize tile) (hx : x < call.outputWidth.toNat)
  (hc : c < call.channels.toNat)

include h hx hc

theorem Family.code_run (family : Family) (hp : call.params.Sound)
    (hzero : family = .vectorized → FitsLane call.inputZeroPoint ∧ FitsLane call.kernelZeroPoint) :
    (family.run kernelSize tile call).error? = none ∧
      Buffer.read? (family.run kernelSize tile call).buffers.output (call.rowStart x + c) =
        some (family.code call.params (call.tapSum kernelSize tile x c)) := by
  rw [run_supplied family h (by omega) hp hzero]
  obtain ⟨kernelSize, tile, rfl, rfl⟩ := h.exists_natCast
  have hfits := h.fits (by omega)
  have hplace : call.rowStart x + (c : Int) = ((x * call.stride + c : Nat) : Int) :=
    (congrArg (· + (c : Int)) (hfits.rowStart_eq x)).trans (by push_cast; rfl)
  rw [hplace]
  exact ⟨rfl, Buffer.read?_eq_some (hfits.getElem?_filled _ hx hc)⟩

variable (h' : call'.Supplied kernelSize tile) (hx' : x < call'.outputWidth.toNat)
  (hagree : call.AgreeAt kernelSize tile x c call')

include h' hx' hagree

theorem Call.AgreeAt.tapSum_eq :
    call'.tapSum kernelSize tile x c = call.tapSum kernelSize tile x c := by
  obtain ⟨kernelSize, tile, rfl, rfl⟩ := h.exists_natCast
  have hc' : c < call'.channels.toNat := hagree.channels_eq ▸ hc
  have hweight : ∀ k < kernelSize, call'.weight kernelSize tile c k =
      call.weight kernelSize tile c k := by
    intro k hk
    have hread := (h.fits (by omega)).read?_packed hc hk
    have hread' := (h'.fits (by omega)).read?_packed hc' hk
    exact Option.some.inj (hread'.symm.trans ((hagree.weight_eq k hk).trans hread))
  have hbias : call'.buffers.bias.getD c 0 = call.buffers.bias.getD c 0 := by
    rw [Array.getD_eq_getD_getElem?, hagree.bias_eq, ← Array.getD_eq_getD_getElem?]
  rw [tapSum, tapSum, hbias, hagree.inputZeroPoint_eq, hagree.kernelZeroPoint_eq,
    Int.toNat_natCast, Finset.sum_congr rfl fun k hk ↦ ?_]
  rw [hagree.byte_eq k (Finset.mem_range.1 hk), hweight k (Finset.mem_range.1 hk)]

/-- Where two calls agree, a kernel stores the same code. -/
theorem Family.run_agrees (family : Family) (hp : call.params.Sound)
    (hzero : family = .vectorized → FitsLane call.inputZeroPoint ∧ FitsLane call.kernelZeroPoint) :
    ∃ code, (family.run kernelSize tile call).error? = none ∧
      (family.run kernelSize tile call').error? = none ∧
      Buffer.read? (family.run kernelSize tile call).buffers.output (call.rowStart x + c) =
        some code ∧
      Buffer.read? (family.run kernelSize tile call').buffers.output (call'.rowStart x + c) =
        some code := by
  obtain ⟨hend, hcode⟩ := code_run h hx hc family hp hzero
  obtain ⟨hend', hcode'⟩ := code_run h' hx' (hagree.channels_eq ▸ hc) family
    (hagree.params_eq ▸ hp) (by rwa [hagree.inputZeroPoint_eq, hagree.kernelZeroPoint_eq])
  rw [hagree.tapSum_eq h hx hc h' hx', hagree.params_eq] at hcode'
  exact ⟨_, hend, hend', hcode, hcode'⟩

end Isolation

end Kernel

namespace Trial

def byte? (s : Settings) (t : Trial) (x k c : Nat) : Option UInt8 :=
  (Buffer.read? t.table (x * s.tapStep + k)).bind fun view ↦ (view.read t.buffers.input)[c]?

structure Readable (s : Settings) (t : Trial) : Prop where
  kernelSize_pos : 1 ≤ s.kernelSize
  weights_size : (t.weights.size : Int) = s.channels * s.kernelSize
  bias_room : s.channels ≤ t.buffers.bias.size
  view_room : ∀ x < s.width.toNat, ∀ k < s.kernelSize.toNat, ∃ view,
    Buffer.read? t.table (x * s.tapStep + k) = some view ∧
      s.channels ≤ (view.read t.buffers.input).size

/-- Two trials hold the same bytes for channel `c` at position `x`: in its views and its weights,
and as its bias. -/
structure AgreeAt (s s' : Settings) (x c : Nat) (t t' : Trial) : Prop where
  channels_eq : s'.channels = s.channels
  kernelSize_eq : s'.kernelSize = s.kernelSize
  byte_eq : ∀ k < s.kernelSize.toNat, t'.byte? s' x k c = t.byte? s x k c
  weight_eq : ∀ k < s.kernelSize.toNat,
    t'.weights[c * s.kernelSize.toNat + k]? = t.weights[c * s.kernelSize.toNat + k]?
  bias_eq : t'.buffers.bias[c]? = t.buffers.bias[c]?

def tapSum (s : Settings) (t : Trial) (x c : Nat) : Int :=
  (t.buffers.bias.getD c 0).toInt + ∑ k ∈ Finset.range s.kernelSize.toNat,
    Convolution.product ((t.byte? s x k c).getD 0)
      (t.weights.getD (c * s.kernelSize.toNat + k) 0)

variable {s s' : Settings} {t t' : Trial} {x c : Nat}

theorem AgreeAt.tapSum_eq (h : t.AgreeAt s s' x c t') : t'.tapSum s' x c = t.tapSum s x c := by
  have hbias : t'.buffers.bias.getD c 0 = t.buffers.bias.getD c 0 := by
    rw [Array.getD_eq_getD_getElem?, h.bias_eq, ← Array.getD_eq_getD_getElem?]
  rw [tapSum, tapSum, hbias, h.kernelSize_eq, Finset.sum_congr rfl fun k hk ↦ ?_]
  have hk := Finset.mem_range.1 hk
  rw [h.byte_eq k hk, Array.getD_eq_getD_getElem?, h.weight_eq k hk,
    ← Array.getD_eq_getD_getElem?]

theorem Readable.sampleCount_nonneg (h : t.Readable s) (hs : s.Regular) :
    0 ≤ Convolution.sampleCount s := by
  have hwidth := hs.width_pos
  have hchannels := hs.channels_pos
  have hkernelSize := h.kernelSize_pos
  exact Int.mul_nonneg (Int.mul_nonneg (by omega) (by omega)) (by omega)

theorem Readable.sample_ok (h : t.Readable s) {x k : Nat} (hx : x < s.width.toNat)
    (hk : k < s.kernelSize.toNat) :
    Convolution.sample s t x k = .ok ((((Buffer.read? t.table (x * s.tapStep + k)).getD
      ⟨0, 0⟩).read t.buffers.input).extract 0 s.channels.toNat) := by
  obtain ⟨view, hview, hroom⟩ := h.view_room x hx k hk
  rw [hview]
  exact Convolution.sample_of_view hview (by simp only [Option.getD_some]; omega)

theorem Readable.accumulators_ok (h : t.Readable s) (hs : s.Regular)
    (hroom : Convolution.Roomy s) :
    Convolution.accumulators s t = .ok (matrix s.width.toNat s.channels.toNat fun x c ↦
      Int32.ofInt (t.tapSum s x c)) := by
  have hkernelSize := h.kernelSize_pos
  have hchannels := hs.channels_pos
  have hbias := h.bias_room
  have hweights : t.weights.size = s.channels.toNat * s.kernelSize.toNat := by
    rw [← Int.toNat_mul (by omega) (by omega), ← h.weights_size, Int.toNat_natCast]
  rw [Convolution.accumulators_of_samples (fun x hx k hk ↦ h.sample_ok hx hk)
    (h.sampleCount_nonneg hs) hroom hweights (by omega), Except.ok.injEq]
  refine matrix_congr fun x hx c hc ↦ congrArg Int32.ofInt (congrArg _ ?_)
  refine Finset.sum_congr rfl fun k hk ↦ ?_
  obtain ⟨view, hview, -⟩ := h.view_room x hx k (Finset.mem_range.1 hk)
  rw [Buffer.getD_extract _ hc, byte?, hview, Array.getD_eq_getD_getElem?]
  rfl

/-- The convolution has the accumulator `acc` for channel `c` at position `x`, or has no room for
its samples. -/
def Accumulates (s : Settings) (t : Trial) (x c : Nat) (acc : Int32) : Prop :=
  if Convolution.Roomy s then
    ∃ accs, Convolution.accumulators s t = .ok accs ∧ accs[x]?.bind (·[c]?) = some acc
  else Convolution.accumulators s t = .error (.fault (Convolution.lack s))

theorem Readable.accumulates (h : t.Readable s) (hs : s.Regular) {x c : Nat}
    (hx : x < s.width.toNat) (hc : c < s.channels.toNat) :
    t.Accumulates s x c (Int32.ofInt (t.tapSum s x c)) := by
  rw [Accumulates]
  split_ifs with hroom
  · exact ⟨_, h.accumulators_ok hs hroom, getElem?_matrix _ hx hc⟩
  · exact Convolution.accumulators_of_not_roomy (fun x hx k hk ↦ h.sample_ok hx hk)
      (h.sampleCount_nonneg hs) hroom

end Trial

open Kernel (Call Family FitsLane)

/-- Two runs of a kernel on calls that agree on what one channel reads at one position store the
same code there, whatever else the calls hold; and two trials that agree so have the same
accumulator there, each unless its samples have no room. -/
theorem channels_isolated :
    (∀ (family : Family) (kernelSize tile : Int) (call call' : Call) (path : FixedPoint.Path)
        (scale : Double) (zeroPoint qmin qmax : Int) (x c : Nat),
      call.Supplied kernelSize tile → call'.Supplied kernelSize tile →
      FixedPoint.derive path scale zeroPoint qmin qmax = .ok call.params →
      (family = .vectorized → FitsLane call.inputZeroPoint ∧ FitsLane call.kernelZeroPoint) →
      x < call.outputWidth.toNat → x < call'.outputWidth.toNat → c < call.channels.toNat →
      call.AgreeAt kernelSize tile x c call' →
      ∃ code, (family.run kernelSize tile call).error? = none ∧
        (family.run kernelSize tile call').error? = none ∧
        Buffer.read? (family.run kernelSize tile call).buffers.output (call.rowStart x + c) =
          some code ∧
        Buffer.read? (family.run kernelSize tile call').buffers.output (call'.rowStart x + c) =
          some code) ∧
    ∀ (config config' : Config) (t t' : Trial) (x c : Nat),
      t.Readable config.toSettings → t'.Readable config'.toSettings →
      x < config.width.toNat → x < config'.width.toNat → c < config.channels.toNat →
      t.AgreeAt config.toSettings config'.toSettings x c t' →
      ∃ acc, t.Accumulates config.toSettings x c acc ∧
        t'.Accumulates config'.toSettings x c acc := by
  constructor
  · intro family kernelSize tile call call' path scale zeroPoint qmin qmax x c h h' hparams hzero
      hx hx' hc hagree
    exact Family.run_agrees h hx hc h' hx' hagree family (FixedPoint.derive_sound hparams) hzero
  · intro config config' t t' x c h h' hx hx' hc hagree
    have hc' : c < config'.channels.toNat := hagree.channels_eq ▸ hc
    refine ⟨Int32.ofInt (t.tapSum config.toSettings x c), h.accumulates config.regular hx hc, ?_⟩
    rw [← hagree.tapSum_eq]
    exact h'.accumulates config'.regular hx' hc'

namespace Kernel

def forwardCall : Call where
  channels := 3
  outputWidth := 2
  table := #[⟨0, 3⟩, ⟨4, 8⟩, ⟨1, 8⟩]
  buffers := {
    input := #[0, 9, 200, 255, 3, 77, 0, 1]
    packed := #[129, 0, 125, 7, 126, 0, 128, 0]
    bias := #[0, -7, 40]
    output := #[1, 2, 3, 4, 5, 6, 7, 8] }
  inputIncrement := 8
  outputIncrement := 1
  inputZeroPoint := 127
  kernelZeroPoint := 127
  params := ⟨1610612736, 2, 3, 1, 5, 2, 250, .vector⟩

/-- A call that steps backwards through another table and shares with `forwardCall` what its last
channel reads at the last position. -/
def backwardCall : Call where
  channels := 3
  outputWidth := 2
  table := #[⟨3, 6⟩, ⟨0, 3⟩, ⟨3, 6⟩, ⟨0, 0⟩]
  buffers := {
    input := #[1, 2, 0, 5, 6, 255]
    packed := #[9, 8, 7, 6, 126, 255, 128, 255]
    bias := #[9, 9, 40, 77]
    output := #[0, 0, 0, 0, 0, 0] }
  inputIncrement := -24
  outputIncrement := 0
  inputZeroPoint := 127
  kernelZeroPoint := 127
  params := ⟨1610612736, 2, 3, 1, 5, 2, 250, .vector⟩

end Kernel

namespace Trial

def tallKernel : Config := ⟨{ width := 2, kernelHeight := 2, channels := 3 }, by decide⟩

def flatKernel : Config := ⟨{ width := 2, kernelWidth := 2, channels := 3 }, by decide⟩

def tallTrial : Trial where
  buffers := {
    input := #[255, 0, 3, 200, 17, 80, 254, 1, 0, 6, 7, 128]
    packed := #[]
    bias := #[1, -2, 3, 4]
    output := #[] }
  weights := #[255, 250, 0, 3, 77, 128]
  table := #[⟨0, 12⟩, ⟨3, 12⟩, ⟨9, 12⟩, ⟨0, 3⟩]

def flatTrial : Trial where
  buffers := { input := #[0, 7, 1, 2, 0, 3], packed := #[], bias := #[8, -2, 9], output := #[] }
  weights := #[1, 2, 0, 3, 4, 5]
  table := #[⟨0, 6⟩, ⟨0, 3⟩, ⟨3, 6⟩]

end Trial

open Kernel (forwardCall backwardCall)

open Trial (tallKernel flatKernel tallTrial flatTrial)

theorem channels_isolated_backwards :
    (∃ code, (Family.vectorized.run 2 2 forwardCall).error? = none ∧
      (Family.vectorized.run 2 2 backwardCall).error? = none ∧
      Buffer.read? (Family.vectorized.run 2 2 forwardCall).buffers.output 6 = some code ∧
      Buffer.read? (Family.vectorized.run 2 2 backwardCall).buffers.output 5 = some code) ∧
    ∃ accs accs' acc, Convolution.accumulators tallKernel.toSettings tallTrial = .ok accs ∧
      Convolution.accumulators flatKernel.toSettings flatTrial = .ok accs' ∧
      accs[1]?.bind (·[1]?) = some acc ∧ accs'[1]?.bind (·[1]?) = some acc := by
  have hforward : forwardCall.Supplied 2 2 :=
    ⟨by decide, by decide, by decide, by decide, by decide, by decide, by decide +kernel,
      by decide +kernel, by decide⟩
  have hbackward : backwardCall.Supplied 2 2 :=
    ⟨by decide, by decide, by decide, by decide, by decide, by decide, by decide +kernel,
      by decide +kernel, by decide⟩
  have hparams : FixedPoint.derive .vector (.ofRat (3 / 16)) 5 2 250 = .ok forwardCall.params := by
    decide +kernel
  have hcalls : forwardCall.AgreeAt 2 2 1 2 backwardCall :=
    ⟨by decide, by decide, by decide, by decide, by decide +kernel, by decide, by decide⟩
  have htall : tallTrial.Readable tallKernel.toSettings :=
    ⟨by decide, by decide, by decide, by decide⟩
  have hflat : flatTrial.Readable flatKernel.toSettings :=
    ⟨by decide, by decide, by decide, by decide⟩
  have htrials : tallTrial.AgreeAt tallKernel.toSettings flatKernel.toSettings 1 1 flatTrial :=
    ⟨by decide, by decide, by decide, by decide, by decide⟩
  obtain ⟨acc, hacc, hacc'⟩ := channels_isolated.2 tallKernel flatKernel tallTrial flatTrial 1 1
    htall hflat (by decide) (by decide) (by decide) htrials
  rw [Trial.Accumulates, if_pos (by decide)] at hacc hacc'
  obtain ⟨accs, hrun, hentry⟩ := hacc
  obtain ⟨accs', hrun', hentry'⟩ := hacc'
  exact ⟨channels_isolated.1 .vectorized 2 2 forwardCall backwardCall _ _ _ _ _ 1 2 hforward
      hbackward hparams (fun _ ↦ ⟨by decide, by decide⟩) (by decide) (by decide) (by decide) hcalls,
    accs, accs', acc, hrun, hrun', hentry, hentry'⟩

end Depthwise
