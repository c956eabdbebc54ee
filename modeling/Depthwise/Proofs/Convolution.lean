import Depthwise.Convolution
import Depthwise.Proofs.Computations
import Depthwise.Proofs.Kernel.Vector
import Depthwise.Proofs.Matrix
import Depthwise.Proofs.Trial.Sizes

namespace Depthwise

namespace Trial

variable (s : Settings) (t : Trial)

def sample (x k c : Nat) : UInt8 :=
  ((t.table.getD (x * s.tapStep.toNat + k) ⟨0, 0⟩).read t.buffers.input).getD c 0

/-- The exact accumulator of channel `c` at position `x`. -/
def accumulator (x c : Nat) : Int :=
  (t.buffers.bias.getD c 0).toInt + ∑ k ∈ Finset.range s.kernelSize.toNat,
    Convolution.product (t.sample s x k c) (t.weights.getD (c * s.kernelSize.toNat + k) 0)

def word (x c : Nat) : Int := (Int32.ofInt (t.accumulator s x c)).toInt

variable {s : Settings} {t : Trial}

theorem abs_word_le (x c : Nat) : |t.word s x c| ≤ 2 ^ 31 := by
  have hlow := (Int32.ofInt (t.accumulator s x c)).le_toInt
  have hhigh := (Int32.ofInt (t.accumulator s x c)).toInt_lt
  rw [word, abs_le]
  constructor <;> omega

theorem word_eq_accumulator {x c : Nat} (h : Kernel.FitsLane (t.accumulator s x c)) :
    t.word s x c = t.accumulator s x c := Kernel.toInt_ofInt h

end Trial

namespace Convolution

theorem abs_product_le (input weight : UInt8) : |product input weight| ≤ 0x4000 := by
  have hi := input.toNat_lt
  have hw := weight.toNat_lt
  have hinput : |(input.toNat : Int) - inputZeroPoint| ≤ 0x80 := by
    rw [inputZeroPoint, abs_le]
    omega
  have hweight : |(weight.toNat : Int) - kernelZeroPoint| ≤ 0x80 := by
    rw [kernelZeroPoint, abs_le]
    omega
  rw [product, abs_mul]
  calc _ ≤ (0x80 : Int) * 0x80 := mul_le_mul hinput hweight (abs_nonneg _) (by decide)
    _ = 0x4000 := by norm_num

theorem foldr_map_range (f : Nat → Int) (n : Nat) :
    ((List.range n).map f).foldr (· + ·) 0 = ∑ k ∈ Finset.range n, f k := by
  induction n with
  | zero => rfl
  | succ n ih =>
    have hsum : ((List.range (n + 1)).map f).foldr (· + ·) 0 =
        ((List.range n).map f).foldr (· + ·) 0 + f n := by
      rw [← List.sum_eq_foldr, ← List.sum_eq_foldr, List.range_succ, List.map_append,
        List.sum_append, List.map_singleton, List.sum_singleton]
    rw [hsum, ih, Finset.sum_range_succ]

theorem tapSum_eq (weights : Bytes) (kernelSize : Nat) (row : Nat → Bytes) (c : Nat) :
    tapSum weights kernelSize ((List.range kernelSize).map row) c =
      ∑ k ∈ Finset.range kernelSize,
        product ((row k).getD c 0) (weights.getD (c * kernelSize + k) 0) := by
  rw [tapSum, zipIdx_map_range, List.map_map]
  exact foldr_map_range _ _

variable {s : Settings} {t : Trial} (hs : s.Regular) (hheight : 1 ≤ s.kernelHeight)
  (hwidth : 1 ≤ s.kernelWidth) (ht : t.Fits s)

def lack (s : Settings) : Fault :=
  if Trial.largestBuffer < sampleCount s then .unusableValue else .oversized

omit hs hheight hwidth ht in
theorem gather_of_le (hcount : 0 ≤ sampleCount s) (hle : sampleCount s ≤ Trial.largestBuffer)
    (t : Trial) : gather s t = Counting.collect
      (fun x ↦ Counting.collect (sample s t x) 0 s.kernelSize.toNat) 0 s.width.toNat := by
  have hsize : Trial.sizeOf 1 (sampleCount s) = .ok (sampleCount s).toNat := by
    rw [Trial.sizeOf, if_neg (by omega)]
  rw [gather, hsize]
  rfl

omit hs hheight hwidth ht in
theorem accumulators_of_lt (hlarge : Trial.largestBuffer < sampleCount s) (t : Trial) :
    accumulators s t = .error (.fault .unusableValue) := by
  have hsize : Trial.sizeOf 1 (sampleCount s) = .error (.fault .unusableValue) := by
    rw [Trial.sizeOf, if_pos (by omega)]
  rw [accumulators, gather, hsize]
  rfl

omit hs hheight hwidth ht in
theorem sample_of_view {x k : Nat} {view : View}
    (hentry : Buffer.read? t.table (x * s.tapStep + k) = some view)
    (hroom : s.channels.toNat ≤ (view.read t.buffers.input).size) :
    sample s t x k = .ok ((view.read t.buffers.input).extract 0 s.channels.toNat) := by
  have hextract : ((view.read t.buffers.input).extract 0 s.channels.toNat).size =
      s.channels.toNat := by
    rw [Array.size_extract]
    omega
  simp only [sample, hentry, Buffer.stretch?_self _ hextract]

include hs hheight ht

theorem sample_ok {x k : Nat} (hx : x < s.width.toNat) (hk : k < s.kernelSize.toNat) :
    ∃ row, sample s t x k = .ok row ∧ ∀ c < s.channels.toNat, row.getD c 0 = t.sample s x k c := by
  have hstep := hs.tapStep_pos hheight
  have hlast := hs.tap_lt_tableSize hheight hx
  have hsize := ht.table_size
  have hcast : (x : Int) * s.tapStep + k = ((x * s.tapStep.toNat + k : Nat) : Int) := by
    rw [Nat.cast_add, Nat.cast_mul, Int.toNat_of_nonneg (by omega)]
  have hlt : x * s.tapStep.toNat + k < t.table.size := by omega
  have hview := ht.view_room _ (Array.getElem_mem hlt)
  have hentry : Buffer.read? t.table (x * s.tapStep + k) =
      some t.table[x * s.tapStep.toNat + k] := by
    rw [hcast, Buffer.read?_natCast hlt]
  refine ⟨_, sample_of_view hentry (by omega), fun c hc ↦ ?_⟩
  rw [Trial.sample, ← Array.getElem_eq_getD (h := hlt), Buffer.getD_extract _ hc]

section Gather

variable {row : Nat → Nat → Bytes}
  (hrow : ∀ x < s.width.toNat, ∀ k < s.kernelSize.toNat, sample s t x k = .ok (row x k))

omit hs hheight ht

include hrow

theorem gather_of_samples (hcount : 0 ≤ sampleCount s)
    (hle : sampleCount s ≤ Trial.largestBuffer) :
    gather s t = .ok ((List.range s.width.toNat).map fun x ↦
      (List.range s.kernelSize.toNat).map (row x)) := by
  rw [gather_of_le hcount hle t, List.range_eq_range', List.range_eq_range']
  apply Counting.collect_ok
  intro x _ hx
  exact Counting.collect_ok 0 _ fun k _ hk ↦ hrow x (by omega) k (by omega)

/-- Where all samples can be read, the convolution yields a word for each position and channel. -/
theorem accumulators_of_samples (hcount : 0 ≤ sampleCount s) (hroom : Roomy s)
    (hweights : t.weights.size = s.channels.toNat * s.kernelSize.toNat)
    (hbias : s.channels.toNat ≤ t.buffers.bias.size) :
    accumulators s t = .ok (matrix s.width.toNat s.channels.toNat fun x c ↦
      Int32.ofInt ((t.buffers.bias.getD c 0).toInt + ∑ k ∈ Finset.range s.kernelSize.toNat,
        product ((row x k).getD c 0) (t.weights.getD (c * s.kernelSize.toNat + k) 0))) := by
  have hle : sampleCount s ≤ Trial.largestBuffer := by
    rw [Roomy] at hroom
    omega
  have hsize : (t.buffers.bias.extract 0 s.channels.toNat).size = s.channels.toNat := by
    rw [Array.size_extract]
    omega
  rw [accumulators, gather_of_samples hrow hcount hle]
  simp only [bind, Except.bind, hroom, hweights, hsize, Shape.common?_self, ne_eq, not_true,
    if_false, List.map_map, pure, Except.pure]
  congr 1
  apply List.map_congr_left
  intro x _
  apply List.map_congr_left
  intro c hc
  have hc := List.mem_range.1 hc
  rw [Shape.spread_of_lt hc]
  change Int32.ofInt (tapSum _ _ ((List.range s.kernelSize.toNat).map (row x)) c + _) = _
  rw [tapSum_eq, Buffer.getD_extract _ hc, add_comm]

theorem accumulators_of_not_roomy (hcount : 0 ≤ sampleCount s) (hroom : ¬ Roomy s) :
    accumulators s t = .error (.fault (lack s)) := by
  rw [lack]
  split_ifs with hlarge
  · exact accumulators_of_lt hlarge t
  · rw [accumulators, gather_of_samples hrow hcount (not_lt.1 hlarge)]
    simp only [bind, Except.bind, hroom, not_false_eq_true, if_true]
    rfl

end Gather

include hwidth

omit ht in
theorem sampleCount_nonneg : 0 ≤ sampleCount s :=
  Int.mul_nonneg (Int.mul_nonneg (by have := hs.width_pos; omega)
    (by have := Settings.kernelSize_pos hheight hwidth; omega)) (by have := hs.channels_pos; omega)

omit hwidth in
theorem exists_samples : ∃ row : Nat → Nat → Bytes,
    (∀ x < s.width.toNat, ∀ k < s.kernelSize.toNat, sample s t x k = .ok (row x k)) ∧
    ∀ x < s.width.toNat, ∀ k < s.kernelSize.toNat, ∀ c < s.channels.toNat,
      (row x k).getD c 0 = t.sample s x k c := by
  choose! row hrow hread using fun x (hx : x < s.width.toNat) k
    (hk : k < s.kernelSize.toNat) ↦ sample_ok hs hheight ht hx hk
  exact ⟨row, hrow, hread⟩

/-- Without room the samples are refused, whatever they are. -/
theorem accumulators_lack (hroom : ¬ Roomy s) :
    accumulators s t = .error (.fault (lack s)) := by
  obtain ⟨row, hrow, -⟩ := exists_samples hs hheight ht
  exact accumulators_of_not_roomy hrow (sampleCount_nonneg hs hheight hwidth) hroom

variable (hroom : Roomy s)

include hroom

/-- The convolution yields a word for each position and channel: the exact accumulator, reduced. -/
theorem accumulators_ok :
    accumulators s t = .ok (matrix s.width.toNat s.channels.toNat fun x c ↦
      Int32.ofInt (t.accumulator s x c)) := by
  have hks := Settings.kernelSize_pos hheight hwidth
  have hchannels := hs.channels_pos
  have hpacked := hs.channels_le_packedChannels
  have hbias := ht.bias_size
  obtain ⟨row, hrow, hread⟩ := exists_samples hs hheight ht
  have hweights : t.weights.size = s.channels.toNat * s.kernelSize.toNat := by
    have hmul : ((s.channels.toNat * s.kernelSize.toNat : Nat) : Int) =
        s.channels * s.kernelSize := by
      rw [Nat.cast_mul, Int.toNat_of_nonneg (by omega), Int.toNat_of_nonneg (by omega)]
    exact_mod_cast ht.weights_size.trans hmul.symm
  rw [accumulators_of_samples hrow (sampleCount_nonneg hs hheight hwidth) hroom hweights
    (by omega), Except.ok.injEq]
  refine matrix_congr fun x hx c hc ↦ ?_
  have hsum : ∑ k ∈ Finset.range s.kernelSize.toNat, product ((row x k).getD c 0)
      (t.weights.getD (c * s.kernelSize.toNat + k) 0) =
        ∑ k ∈ Finset.range s.kernelSize.toNat, product (t.sample s x k c)
          (t.weights.getD (c * s.kernelSize.toNat + k) 0) :=
    Finset.sum_congr rfl fun k hk ↦ by rw [hread x hx k (Finset.mem_range.1 hk) c hc]
  rw [hsum]
  rfl

theorem accumulators_words :
    ∃ accs, accumulators s t = .ok accs ∧
      accs.map (·.map (·.toInt)) = matrix s.width.toNat s.channels.toNat (t.word s) :=
  ⟨_, accumulators_ok hs hheight hwidth ht hroom, map_matrix _ _⟩

section Limit

variable (hbias : ∀ b ∈ t.buffers.bias, -Trial.biasLimit ≤ b.toInt ∧ b.toInt ≤ Trial.biasLimit)

omit hs hheight hwidth ht hroom

include hbias

theorem abs_accumulator_le (x c : Nat) :
    |t.accumulator s x c| ≤ 10000 + s.kernelSize.toNat * 0x4000 := by
  have hbias : |(t.buffers.bias.getD c 0).toInt| ≤ 10000 := by
    rw [Array.getD_eq_getD_getElem?]
    by_cases hc : c < t.buffers.bias.size
    · rw [Array.getElem?_eq_getElem hc]
      exact abs_le.2 (hbias _ (Array.getElem_mem hc))
    · rw [Array.getElem?_eq_none (not_lt.1 hc)]
      decide
  have hsum := Finset.abs_sum_le_sum_abs (fun k ↦ product (t.sample s x k c)
    (t.weights.getD (c * s.kernelSize.toNat + k) 0)) (Finset.range s.kernelSize.toNat)
  have hterms := Finset.sum_le_card_nsmul (Finset.range s.kernelSize.toNat) (fun k ↦
    |product (t.sample s x k c) (t.weights.getD (c * s.kernelSize.toNat + k) 0)|) 0x4000
    fun k _ ↦ abs_product_le _ _
  rw [Finset.card_range, nsmul_eq_mul] at hterms
  rw [Trial.accumulator]
  exact (abs_add_le _ _).trans (add_le_add hbias (hsum.trans hterms))

theorem fitsLane_of_bias (hks : s.kernelSize ≤ 131071) (x c : Nat) :
    Kernel.FitsLane (t.accumulator s x c) := by
  have h := abs_le.1 (abs_accumulator_le hbias (s := s) x c)
  constructor <;> omega

omit hbias in
theorem fitsLane_accumulator (ht : t.Drawn s) (hks : s.kernelSize ≤ 131071) (x c : Nat) :
    Kernel.FitsLane (t.accumulator s x c) :=
  fitsLane_of_bias ht.bias_range hks x c

end Limit

end Convolution

end Depthwise
