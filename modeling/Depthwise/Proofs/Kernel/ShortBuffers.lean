import Depthwise.Proofs.FixedPoint.Requantize
import Depthwise.Proofs.Kernel.Isolation
import Depthwise.Proofs.Kernel.Sizes

namespace Depthwise.Kernel

namespace Call

structure Posed (kernelSize tile : Int) (call : Call) : Prop where
  kernelSize_pos : 1 ≤ kernelSize
  tile_pos : 1 ≤ tile
  channels_pos : 1 ≤ call.channels
  width_pos : 1 ≤ call.outputWidth
  inputIncrement_nonneg : 0 ≤ call.inputIncrement
  outputIncrement_nonneg : 0 ≤ call.outputIncrement

/-- All that is needed for channel `c` at position `x` is there: the bias, the bytes and the weights
of the taps, and the place of the code. -/
structure Reaches (kernelSize tile : Int) (call : Call) (x c : Nat) : Prop where
  bias : call.buffers.bias[c]?.isSome
  byte : ∀ k < kernelSize.toNat, (call.byte? kernelSize x k c).isSome
  weight : ∀ k < kernelSize.toNat,
    (Buffer.read? call.buffers.packed (Weights.place kernelSize tile c k)).isSome
  code : (Buffer.position? call.buffers.output.size (call.rowStart x + c)).isSome

def Covers (kernelSize tile : Int) (call : Call) : Prop :=
  ∀ x < call.outputWidth.toNat, ∀ c < call.channels.toNat, call.Reaches kernelSize tile x c

/-- Each view of position `x` has the first `lanes` of the channels, and none of the others. -/
def Level (kernelSize : Int) (call : Call) (x lanes : Nat) : Prop :=
  ∀ row ∈ call.taps kernelSize x, min call.channels.toNat row.size = lanes

/-- Where the views of a position have `lanes` of the channels, a row of codes comes of them that
can be stored. A single byte of each view and a single bias stand for all channels. A single channel
is dropped where the output has no place for it, and so are no channels at all. -/
def LanesSpread (call : Call) (x lanes : Nat) : Prop :=
  if call.channels = 1 then
    call.buffers.output.size ≤ call.rowStart x ∨ lanes = 1 ∧ 1 ≤ call.buffers.bias.size
  else
    (lanes = call.channels ∨ lanes = 1) ∧
      (call.channels ≤ call.buffers.bias.size ∨ call.buffers.bias.size = 1) ∧
      call.rowStart x + call.channels ≤ call.buffers.output.size

/-- What the table and the views have for position `x` goes together; a single tap stands for all
taps. -/
structure RowSpreads (kernelSize : Int) (call : Call) (x : Nat) : Prop where
  taps : (call.taps kernelSize x).size = kernelSize ∨ (call.taps kernelSize x).size = 1
  lanes : ∃ lanes, call.Level kernelSize x lanes ∧ call.LanesSpread x lanes

structure Spreads (kernelSize tile : Int) (call : Call) : Prop where
  packed_room :
    Weights.tileCount tile call.channels * tile * kernelSize ≤ call.buffers.packed.size
  row : ∀ x < call.outputWidth.toNat, call.RowSpreads kernelSize x

/-- One element is left where more are asked for, and the vector kernel makes do with it: one tap,
one byte of each view, one bias, or one code without a place. -/
inductive Stretched (kernelSize : Int) (call : Call) : Prop
  | tap {x : Nat} (hx : x < call.outputWidth.toNat) (hsize : (call.taps kernelSize x).size = 1)
      (hmore : 1 < kernelSize)
  | byte {x : Nat} (hx : x < call.outputWidth.toNat)
      (hsize : ∀ row ∈ call.taps kernelSize x, row.size = 1) (hmore : 1 < call.channels)
  | bias (hsize : call.buffers.bias.size = 1) (hmore : 1 < call.channels)
  | code {x : Nat} (hx : x < call.outputWidth.toNat)
      (hplace : call.buffers.output.size ≤ call.rowStart x) (hone : call.channels = 1)

section Level

variable {kernelSize : Int} {call : Call} {x lanes lanes' : Nat}
  (hpos : 0 < (call.taps kernelSize x).size)

include hpos

theorem Level.eq (hlevel : call.Level kernelSize x lanes)
    (hlevel' : call.Level kernelSize x lanes') : lanes = lanes' := by
  have hrow := Array.getElem_mem hpos
  exact (hlevel _ hrow).symm.trans (hlevel' _ hrow)

theorem Level.le (hlevel : call.Level kernelSize x lanes) : lanes ≤ call.channels.toNat := by
  rw [← hlevel _ (Array.getElem_mem hpos)]
  exact Nat.min_le_left _ _

end Level

end Call

section Writing

variable {E : Error → Prop} {H : Prop} {size : Nat}

theorem Writing.settles_single {write : Bytes → Except Error Bytes}
    (hkeeps : ∀ output output', write output = .ok output' → output'.size = output.size)
    (h : ∀ output : Bytes, output.size = size → Settles E H (fun _ ↦ True) (write output)) :
    SettlesFrom (fun output : Bytes ↦ output.size = size) E H (single write) := by
  intro output hsize
  have hsettles := h output hsize
  have hnext := keeps_single hkeeps output hsize
  rcases hwrite : write output with e | output'
  · rw [hwrite] at hsettles
    have hget : (get : Writing Bytes).run.run output = (.ok output, output) := rfl
    rw [single, run_bind_ok hget, run_bind_error (run_liftM_error hwrite output)]
    exact hsettles
  · rw [hwrite] at hsettles
    rw [run_single hwrite] at hnext ⊢
    exact ⟨hsettles.1, hnext⟩

theorem Call.error?_writing {call : Call} {w : Writing Unit}
    (h : SettlesFrom (fun output : Bytes ↦ output.size = call.buffers.output.size) E H w) :
    ((call.writing w).error? = none ↔ H) ∧ ∀ e, (call.writing w).error? = some e → E e := by
  have hsettles := h call.buffers.output rfl
  rw [Call.writing]
  rcases hrun : w.run.run call.buffers.output with ⟨e | ⟨⟩, output⟩
  · rw [hrun] at hsettles
    refine ⟨iff_of_false (Option.some_ne_none e) hsettles.1, fun e' he ↦ ?_⟩
    obtain rfl := Option.some.inj he
    exact hsettles.2
  · rw [hrun] at hsettles
    exact ⟨iff_of_true rfl hsettles.1, fun e he ↦ absurd he.symm (Option.some_ne_none e)⟩

end Writing

def OutOfRange (e : Error) : Prop := e = .fault .indexOutOfRange

namespace Scalar

theorem settles_inBounds {α : Type} (o : Option α) :
    Settles OutOfRange o.isSome (fun a ↦ o = some a) (inBounds o) := by
  cases o with
  | some a => exact ⟨rfl, rfl⟩
  | none => exact ⟨Bool.false_ne_true, rfl⟩

theorem settles_addTerms {E : Error → Prop} {next : Nat → Except Error Int} {H : Nat → Prop}
    (k count : Nat) (sum : Int)
    (h : ∀ i, k ≤ i → i < k + count → Settles E (H i) (fun _ ↦ True) (next i)) :
    Settles E (∀ i, k ≤ i → i < k + count → H i) (fun _ ↦ True) (addTerms next k count sum) := by
  induction count generalizing k sum with
  | zero => exact ⟨fun i hi hi' ↦ absurd hi' (by omega), trivial⟩
  | succ count ih =>
    refine (h k le_rfl (by omega)).bind
      (fun hall ↦ (Counting.forall_steps_succ_iff.1 hall).1) fun v hk _ ↦ ?_
    refine (ih (k + 1) (sum + v) fun i hi hi' ↦ h i (by omega) (by omega)).congr ?_
    rw [Counting.forall_steps_succ_iff]
    exact (and_iff_right hk).symm

theorem settles_storeByte {place code : Int} (hcode : 0 ≤ code ∧ code ≤ 255) (output : Bytes) :
    Settles OutOfRange (Buffer.position? output.size place).isSome (fun _ ↦ True)
      (storeByte place code output) := by
  rw [storeByte]
  cases Buffer.position? output.size place with
  | some i =>
    dsimp only
    rw [if_pos hcode]
    exact ⟨rfl, trivial⟩
  | none => exact ⟨Bool.false_ne_true, rfl⟩

variable {kernelSize tile : Int} {call : Call}

theorem settles_term (x c k : Nat) :
    Settles OutOfRange ((call.byte? kernelSize x k c).isSome ∧
        (Buffer.read? call.buffers.packed (Weights.place kernelSize tile c k)).isSome)
      (fun _ ↦ True) (term kernelSize tile call (call.taps kernelSize x) c k) := by
  refine (settles_inBounds _).bind (fun h ↦ Option.isSome_of_isSome_bind h.1) fun row _ hrow ↦ ?_
  have hbyte : call.byte? kernelSize x k c = row[c]? := by
    rw [Call.byte?, hrow]
    rfl
  rw [hbyte]
  refine (settles_inBounds _).bind (fun h ↦ h.1) fun input hinput _ ↦ ?_
  refine (settles_inBounds _).bind (fun h ↦ h.2) fun weight hweight _ ↦ ?_
  exact ⟨⟨hinput, hweight⟩, trivial⟩

variable (htile : tile ≠ 0) (hp : call.params.Sound)

include htile

theorem settles_accumulate (x c : Nat) :
    Settles OutOfRange (call.buffers.bias[c]?.isSome ∧ ∀ k < kernelSize.toNat,
        (call.byte? kernelSize x k c).isSome ∧
          (Buffer.read? call.buffers.packed (Weights.place kernelSize tile c k)).isSome)
      (fun _ ↦ True) (accumulate kernelSize tile call (call.taps kernelSize x) c) := by
  rw [accumulate, if_neg htile]
  refine (settles_inBounds _).bind (fun h ↦ h.1) fun bias hbias _ ↦ ?_
  refine (settles_addTerms 0 kernelSize.toNat bias.toInt fun k _ _ ↦ settles_term x c k).congr ?_
  simp only [Nat.zero_le, Nat.zero_add, true_implies]
  exact (and_iff_right hbias).symm

include hp

theorem settles_cell (x c : Nat) {output : Bytes}
    (hsize : output.size = call.buffers.output.size) :
    Settles OutOfRange (call.Reaches kernelSize tile x c) (fun _ ↦ True)
      (cell kernelSize tile call (call.taps kernelSize x) x c output) := by
  refine (settles_accumulate htile x c).bind
    (fun h ↦ ⟨h.bias, fun k hk ↦ ⟨h.byte k hk, h.weight k hk⟩⟩) fun acc hread _ ↦ ?_
  have hcode := FixedPoint.requantize_mem hp acc
  have hqmin := hp.qmin_nonneg
  have hqmax := hp.qmax_le
  rw [FixedPoint.requantize?_eq hp]
  refine (settles_storeByte (by omega) output).congr ?_
  rw [hsize]
  exact ⟨fun h ↦ ⟨hread.1, fun k hk ↦ (hread.2 k hk).1, fun k hk ↦ (hread.2 k hk).2, h⟩,
    fun h ↦ h.code⟩

/-- The scalar kernel fails exactly where something that it needs is not there, and then with an
index out of range. -/
theorem error?_run (kernelSize : Int) :
    ((run kernelSize tile call).error? = none ↔ call.Covers kernelSize tile) ∧
      ∀ e, (run kernelSize tile call).error? = some e → OutOfRange e := by
  refine Call.error?_writing (SettlesFrom.congr (Counting.settlesFrom_forEach 0 _ fun x _ _ ↦
    Counting.settlesFrom_forEach 0 _ fun c _ _ ↦ Writing.settles_single
      (fun _ _ ↦ size_cell) fun output hsize ↦ settles_cell htile hp x c hsize) ?_)
  simp only [Nat.zero_le, Nat.zero_add, true_implies]
  rfl

end Scalar

namespace Vector

theorem settles_usable {α : Type} (o : Option α) :
    Settles (fun _ ↦ True) o.isSome (fun a ↦ o = some a) (usable o) := by
  cases o with
  | some a => exact ⟨rfl, rfl⟩
  | none => exact ⟨Bool.false_ne_true, trivial⟩

theorem settles_dot (samples weights : Grid Int32) :
    Settles (fun _ ↦ True) ((Shape.common? samples.rows weights.rows).isSome ∧
        (Shape.common? samples.lanes weights.lanes).isSome)
      (fun sums ↦ Shape.common? samples.lanes weights.lanes = some sums.size)
      (dot samples weights) := by
  refine (settles_usable _).bind (fun h ↦ h.1) fun taps htaps _ ↦ ?_
  refine (settles_usable _).bind (fun h ↦ h.2) fun lanes hlanes hcommon ↦ ?_
  refine ⟨⟨htaps, hlanes⟩, ?_⟩
  dsimp only
  rw [Array.size_map, Array.size_range]
  exact hcommon

theorem settles_addRows (a b : Array Int32) :
    Settles (fun _ ↦ True) (Shape.common? a.size b.size).isSome
      (fun sums ↦ Shape.common? a.size b.size = some sums.size) (addRows a b) := by
  refine (settles_usable _).bind id fun lanes hlanes hcommon ↦ ⟨hlanes, ?_⟩
  dsimp only
  rw [Array.size_map, Array.size_range]
  exact hcommon

theorem settles_storeRow (call : Call) (start : Int) (codes output : Bytes) :
    Settles (fun _ ↦ True)
      (Buffer.stretch? codes (Buffer.bound output.size (start + call.channels) -
        Buffer.bound output.size start)).isSome
      (fun _ ↦ True) (storeRow call start codes output) :=
  (settles_usable _).bind id fun _ hsome _ ↦ ⟨hsome, trivial⟩

section Call

variable {call : Call} {kernelSize tile x lanes sums codes : Nat}

theorem size_front {α : Type} (xs : Array α) (hchannels : 0 ≤ call.channels) :
    (Buffer.slice xs 0 call.channels).size = min call.channels.toNat xs.size := by
  obtain ⟨channels, hcast⟩ := Int.eq_ofNat_of_zero_le hchannels
  rw [hcast]
  exact Buffer.size_slice_zero xs channels

theorem settles_centredSamples (hchannels : 0 ≤ call.channels)
    (hzero : FitsLane call.inputZeroPoint) (x : Nat) :
    Settles (fun _ ↦ True)
      (0 < (call.taps kernelSize x).size ∧ ∃ lanes, call.Level kernelSize x lanes)
      (fun grid ↦ grid.rows = (call.taps kernelSize x).size ∧
        call.Level kernelSize x grid.lanes)
      (centredSamples call (call.taps kernelSize x)) := by
  have hslice : ∀ row : Bytes, (Buffer.slice row 0 call.channels).size =
      min call.channels.toNat row.size := fun row ↦ size_front row hchannels
  rw [centredSamples]
  refine (settles_usable _).bind (fun h ↦ ?_) fun first _ hfirst ↦ ?_
  · rw [Array.getElem?_map, Array.getElem?_eq_getElem h.1]
    rfl
  obtain ⟨row, hrow, rfl⟩ := Option.map_eq_some_iff.1 (Array.getElem?_map.symm.trans hfirst)
  have hpos : 0 < (call.taps kernelSize x).size :=
    Array.size_pos_of_mem (Array.mem_of_getElem? hrow)
  have hany : ((call.taps kernelSize x).map (Buffer.slice · 0 call.channels)).any
      (·.size ≠ (Buffer.slice row 0 call.channels).size) = true ↔
        ¬ call.Level kernelSize x (Buffer.slice row 0 call.channels).size := by
    simp only [Array.any_map, Array.any_eq_true', Function.comp_apply, decide_eq_true_eq, hslice,
      Call.Level, not_forall, exists_prop, ne_eq]
  split
  case isTrue huneven =>
    refine ⟨?_, trivial⟩
    rintro ⟨-, lanes, hlevel⟩
    refine hany.1 huneven ?_
    rwa [hslice, hlevel row (Array.mem_of_getElem? hrow)]
  case isFalse heven =>
    have hlevel := not_not.1 (mt hany.2 heven)
    rw [word?_of_fits hzero]
    exact ⟨⟨hpos, _, hlevel⟩, Array.size_map, hlevel⟩

/-- The lengths at a position: the lanes of the samples, of the sums over the taps, and of the codes
once the bias is added. -/
structure Meets (kernelSize : Nat) (call : Call) (x lanes sums codes : Nat) : Prop where
  taps_pos : 0 < (call.taps kernelSize x).size
  level : call.Level kernelSize x lanes
  taps_meet : (Shape.common? (call.taps kernelSize x).size kernelSize).isSome
  sums_eq : Shape.common? lanes call.channels.toNat = some sums
  codes_eq : Shape.common? (min call.channels.toNat call.buffers.bias.size) sums = some codes

theorem settles_accumulators (hchannels : 0 ≤ call.channels)
    (hzero : FitsLane call.inputZeroPoint) {weights : Grid Int32}
    (hrows : weights.rows = kernelSize) (hlanes : weights.lanes = call.channels.toNat) (x : Nat) :
    Settles (fun _ ↦ True) (∃ lanes sums codes, Meets kernelSize call x lanes sums codes)
      (fun accs ↦ ∃ lanes sums, Meets kernelSize call x lanes sums accs.size)
      (accumulators call weights (call.taps kernelSize x)) := by
  refine (settles_centredSamples hchannels hzero x).bind
    (fun ⟨lanes, _, _, hmeets⟩ ↦ ⟨hmeets.taps_pos, lanes, hmeets.level⟩)
    fun samples ⟨hpos, _⟩ ⟨hsize, hlevel⟩ ↦ ?_
  have hdot := settles_dot samples weights
  rw [hsize, hrows, hlanes] at hdot
  refine hdot.bind (fun ⟨lanes, sums, _, hmeets⟩ ↦ ?_) fun dots ⟨htaps, _⟩ hdots ↦ ?_
  · rw [← hmeets.level.eq hpos hlevel, hmeets.sums_eq]
    exact ⟨hmeets.taps_meet, rfl⟩
  have hbias : (Buffer.slice call.buffers.bias 0 call.channels).size =
      min call.channels.toNat call.buffers.bias.size := size_front _ hchannels
  have hadd := settles_addRows (Buffer.slice call.buffers.bias 0 call.channels) dots
  rw [hbias] at hadd
  refine (hadd.mono fun accs haccs ↦ ⟨_, _, hpos, hlevel, htaps, hdots, haccs⟩).congr ?_
  constructor
  · intro hsome
    obtain ⟨codes, hcodes⟩ := Option.isSome_iff_exists.1 hsome
    exact ⟨_, _, codes, hpos, hlevel, htaps, hdots, hcodes⟩
  · rintro ⟨lanes, sums, codes, hmeets⟩
    obtain rfl := hmeets.level.eq hpos hlevel
    obtain rfl : sums = dots.size := Option.some.inj (hmeets.sums_eq.symm.trans hdots)
    rw [hmeets.codes_eq]
    rfl

variable (h : call.Posed kernelSize tile)

include h

theorem settles_centredWeights (hzero : FitsLane call.kernelZeroPoint) :
    Settles (fun _ ↦ True)
      (Weights.tileCount tile call.channels * tile * kernelSize ≤ call.buffers.packed.size)
      (fun grid ↦ grid.rows = kernelSize ∧ grid.lanes = call.channels.toNat)
      (centredWeights kernelSize tile call) := by
  have hks : 0 < kernelSize := by have := h.kernelSize_pos; omega
  have htile : 0 < tile := by have := h.tile_pos; omega
  have hchannels := h.channels_pos
  rw [Call.packed_room_iff hchannels]
  by_cases hroom :
      Weights.tiles tile call.channels.toNat * kernelSize * tile ≤ call.buffers.packed.size
  · obtain ⟨grid, hgrid, hrows, hlanes, -⟩ := centredWeights_ok hks htile hchannels hroom hzero
    rw [hgrid]
    exact ⟨hroom, hrows, hlanes⟩
  · rw [centredWeights, weightGrid_error htile hchannels (Nat.lt_of_not_le hroom)]
    exact ⟨hroom, trivial⟩

theorem size_taps_le (x : Nat) : (call.taps kernelSize x).size ≤ kernelSize := by
  have hstep : 0 ≤ call.inputIncrement.fdiv Settings.entrySize :=
    Int.fdiv_nonneg h.inputIncrement_nonneg (by decide)
  obtain ⟨start, hstart⟩ :=
    Int.eq_ofNat_of_zero_le (mul_nonneg (Int.natCast_nonneg x) hstep)
  rw [Call.taps, hstart, Array.size_map, Buffer.slice, ← Nat.cast_add, Buffer.bound_natCast,
    Buffer.bound_natCast, Array.size_extract]
  omega

/-- Whether the codes of a position fit, once all lengths before have met. -/
theorem lanesSpread_iff (hlanes : lanes ≤ call.channels.toNat)
    (hsums : Shape.common? lanes call.channels.toNat = some sums)
    (hcodes : Shape.common? (min call.channels.toNat call.buffers.bias.size) sums = some codes) :
    call.LanesSpread x lanes ↔
      codes = Buffer.bound call.buffers.output.size (call.rowStart x + call.channels) -
        Buffer.bound call.buffers.output.size (call.rowStart x) ∨ codes = 1 := by
  have hchannels := h.channels_pos
  have hincrement := h.outputIncrement_nonneg
  have hfirst : ¬ call.rowStart x < 0 := not_lt.2 (mul_nonneg (Int.natCast_nonneg x) (by omega))
  have hlast : ¬ call.rowStart x + call.channels < 0 := by omega
  rw [Shape.common?_eq_some_iff] at hsums hcodes
  rw [Call.LanesSpread, Buffer.bound, if_neg hlast, Buffer.bound, if_neg hfirst]
  split
  case isTrue hone =>
    -- What meets a single lane keeps its own length, so an empty row stays empty.
    have hsums : sums = lanes := by omega
    have hcodes : codes = min (min 1 call.buffers.bias.size) lanes := by omega
    omega
  case isFalse hmore =>
    -- Whatever met has been stretched to all channels, and only the places are left to compare.
    have hlanes : lanes = call.channels ∨ lanes = 1 := by omega
    have hsums : sums = call.channels.toNat := by omega
    have hbias : call.channels ≤ call.buffers.bias.size ∨ call.buffers.bias.size = 1 := by omega
    have hcodes : codes = call.channels.toNat := by omega
    rw [and_iff_right hlanes, and_iff_right hbias, hcodes]
    omega

theorem meets_of_rowSpreads (hrow : call.RowSpreads kernelSize x) :
    ∃ lanes sums codes, Meets kernelSize call x lanes sums codes := by
  have hks := h.kernelSize_pos
  have hchannels := h.channels_pos
  have hle := size_taps_le h x
  obtain ⟨htaps, lanes, hlevel, hspread⟩ := hrow
  have hpos : 0 < (call.taps kernelSize x).size := by omega
  have hlanes := hlevel.le hpos
  have hsums : (Shape.common? lanes call.channels.toNat).isSome := by
    rw [Call.LanesSpread] at hspread
    rw [Shape.isSome_common?_iff]
    split_ifs at hspread <;> omega
  obtain ⟨sums, hsums⟩ := Option.isSome_iff_exists.1 hsums
  have hcodes :
      (Shape.common? (min call.channels.toNat call.buffers.bias.size) sums).isSome := by
    rw [Shape.common?_eq_some_iff] at hsums
    rw [Call.LanesSpread] at hspread
    rw [Shape.isSome_common?_iff]
    split_ifs at hspread <;> omega
  obtain ⟨codes, hcodes⟩ := Option.isSome_iff_exists.1 hcodes
  exact ⟨lanes, sums, codes, hpos, hlevel, Shape.isSome_common?_iff.2 (by omega), hsums, hcodes⟩

theorem rowSpreads_iff (hmeets : Meets kernelSize call x lanes sums codes) :
    call.RowSpreads kernelSize x ↔
      codes = Buffer.bound call.buffers.output.size (call.rowStart x + call.channels) -
        Buffer.bound call.buffers.output.size (call.rowStart x) ∨ codes = 1 := by
  have hpos := hmeets.taps_pos
  have hle := size_taps_le h x
  have htaps := Shape.isSome_common?_iff.1 hmeets.taps_meet
  rw [← lanesSpread_iff h (hmeets.level.le hpos) hmeets.sums_eq hmeets.codes_eq]
  constructor
  · rintro ⟨-, lanes', hlevel, hspread⟩
    rwa [hmeets.level.eq hpos hlevel]
  · intro hspread
    exact ⟨by omega, lanes, hmeets.level, hspread⟩

variable (hp : call.params.Sound) (hinput : FitsLane call.inputZeroPoint)

include hp hinput

theorem settles_row {weights : Grid Int32} (hrows : weights.rows = kernelSize)
    (hlanes : weights.lanes = call.channels.toNat) (x : Nat) :
    SettlesFrom (fun output : Bytes ↦ output.size = call.buffers.output.size) (fun _ ↦ True)
      (call.RowSpreads kernelSize x) (row kernelSize call weights x) := by
  have hchannels := h.channels_pos
  refine Writing.settles_single (fun _ _ ↦ size_row) fun output hsize ↦ ?_
  refine (settles_accumulators (by omega) hinput hrows hlanes x).bind
    (fun hrow ↦ meets_of_rowSpreads h hrow) fun accs _ ⟨_, _, hmeets⟩ ↦ ?_
  rw [FixedPoint.requantizeLanes, FixedPoint.ofParams_eq hp]
  refine (settles_storeRow call (call.rowStart x) _ output).congr ?_
  rw [rowSpreads_iff h hmeets, Buffer.isSome_stretch?_iff, hsize, Array.size_map, Array.size_map]

/-- The vector kernel fails exactly where the buffers do not go together. -/
theorem error?_run (hkernel : FitsLane call.kernelZeroPoint) :
    (run kernelSize tile call).error? = none ↔ call.Spreads kernelSize tile := by
  refine (Call.error?_writing (SettlesFrom.liftM_bind (settles_centredWeights h hkernel)
    (fun hspreads : call.Spreads kernelSize tile ↦ hspreads.packed_room)
    fun weights hroom ⟨hrows, hlanes⟩ ↦ ?_)).1
  refine (Counting.settlesFrom_forEach 0 _ fun x _ _ ↦
    settles_row h hp hinput hrows hlanes x).congr ?_
  simp only [Nat.zero_le, Nat.zero_add, true_implies]
  exact ⟨fun hrow ↦ ⟨hroom, hrow⟩, fun hspreads ↦ hspreads.row⟩

end Call

end Vector

namespace Call

variable {kernelSize tile : Nat} {call : Call}

theorem isSome_byte? {x k c : Nat} (hk : k < (call.taps kernelSize x).size)
    (hbyte : ∀ row ∈ call.taps kernelSize x, c < row.size) :
    (call.byte? kernelSize x k c).isSome := by
  rw [byte?, Array.getElem?_eq_getElem hk, Option.bind_some,
    Array.getElem?_eq_getElem (hbyte _ (Array.getElem_mem hk))]
  rfl

/-- Lanes that no element stands for have the byte, the bias and the place of each channel. -/
theorem LanesSpread.reach {x lanes c : Nat} (hlanes : call.LanesSpread x lanes)
    (hlevel : call.Level kernelSize x lanes) (hnot : ¬ call.Stretched kernelSize)
    (hx : x < call.outputWidth.toNat) (hc : c < call.channels.toNat) :
    (∀ row ∈ call.taps kernelSize x, c < row.size) ∧ c < call.buffers.bias.size ∧
      call.rowStart x + c < call.buffers.output.size := by
  rw [LanesSpread] at hlanes
  split at hlanes
  case isTrue hone =>
    have hplace : ¬ call.buffers.output.size ≤ call.rowStart x := fun hle ↦
      hnot (.code hx hle hone)
    obtain ⟨rfl, hbias⟩ := hlanes.resolve_left hplace
    refine ⟨fun row hrow ↦ ?_, by omega, by omega⟩
    have := hlevel row hrow
    omega
  case isFalse hmore =>
    obtain ⟨hlanes, hbias, hroom⟩ := hlanes
    have hbias : call.channels ≤ call.buffers.bias.size := hbias.resolve_right fun hone ↦
      hnot (.bias hone (by omega))
    have hlanes : (lanes : Int) = call.channels := by
      refine hlanes.resolve_right fun hone ↦ hnot (.byte hx (fun row hrow ↦ ?_) (by omega))
      have := hlevel row hrow
      omega
    refine ⟨fun row hrow ↦ ?_, by omega, by omega⟩
    have := hlevel row hrow
    omega

/-- Where the buffers go together, nothing is missing unless one element stands for more. -/
theorem Spreads.covers_iff (hspreads : call.Spreads kernelSize tile)
    (h : call.Posed kernelSize tile) :
    call.Covers kernelSize tile ↔ ¬ call.Stretched kernelSize := by
  have hks := h.kernelSize_pos
  have htile := h.tile_pos
  have hchannels := h.channels_pos
  have hwidth := h.width_pos
  have hincrement := h.outputIncrement_nonneg
  have hstart : ∀ x, 0 ≤ call.rowStart x := fun x ↦ mul_nonneg (Int.natCast_nonneg x) (by omega)
  constructor
  · rintro hcovers (⟨hx, hsize, hmore⟩ | ⟨hx, hsize, hmore⟩ | ⟨hsize, hmore⟩ | ⟨hx, hplace, -⟩)
    · have hbyte := (hcovers _ hx 0 (by omega)).byte 1 (by omega)
      rw [byte?, Array.getElem?_eq_none (by omega)] at hbyte
      cases hbyte
    · have hbyte := (hcovers _ hx 1 (by omega)).byte 0 (by omega)
      obtain ⟨b, hb⟩ := Option.isSome_iff_exists.1 hbyte
      obtain ⟨row, hrow, hb⟩ := Option.bind_eq_some_iff.1 hb
      obtain ⟨hlt, -⟩ := Array.getElem?_eq_some_iff.1 hb
      have := hsize row (Array.mem_of_getElem? hrow)
      omega
    · have hbias := (hcovers 0 (by omega) 1 (by omega)).bias
      rw [Array.getElem?_eq_none (by omega)] at hbias
      cases hbias
    · have hcode := (hcovers _ hx 0 (by omega)).code
      rw [Nat.cast_zero, add_zero, Buffer.isSome_position?_iff (hstart _)] at hcode
      omega
  · intro hnot x hx c hc
    obtain ⟨htaps, lanes, hlevel, hlanes⟩ := hspreads.row x hx
    have hsize : (call.taps kernelSize x).size = kernelSize := by
      rcases htaps with hall | hone
      · exact_mod_cast hall
      · by_contra hne
        exact hnot (.tap hx hone (by omega))
    obtain ⟨hbyte, hbias, hcode⟩ := hlanes.reach hlevel hnot hx hc
    refine ⟨?_, fun k hk ↦ isSome_byte? (by omega) hbyte, fun k hk ↦ ?_, ?_⟩
    · rw [Array.getElem?_eq_getElem hbias]
      rfl
    · rw [Weights.place_natCast, Buffer.read?_eq_some (getElem?_slot (by omega)
        ((packed_room_iff hchannels).1 hspreads.packed_room) hc hk)]
      rfl
    · rwa [Buffer.isSome_position?_iff (by have := hstart x; omega)]

end Call

/-- With buffers of any lengths, the scalar kernel returns if nothing that it needs is missing, and
else fails with an index out of range. The vector kernel returns if the buffers go together. So it
fails with the scalar kernel unless one element of a buffer is left that stands for what is
missing. -/
theorem vector_fails_iff {kernelSize tile : Int} {call : Call} {path : FixedPoint.Path}
    {scale : Double} {zeroPoint qmin qmax : Int} (h : call.Posed kernelSize tile)
    (hinput : FitsLane call.inputZeroPoint) (hkernel : FitsLane call.kernelZeroPoint)
    (hparams : FixedPoint.derive path scale zeroPoint qmin qmax = .ok call.params) :
    ((Scalar.run kernelSize tile call).error? = none ↔ call.Covers kernelSize tile) ∧
    (∀ e, (Scalar.run kernelSize tile call).error? = some e → e = .fault .indexOutOfRange) ∧
    ((Vector.run kernelSize tile call).error? = none ↔ call.Spreads kernelSize tile) ∧
    (((Scalar.run kernelSize tile call).error? = some (.fault .indexOutOfRange) →
        (Vector.run kernelSize tile call).error? ≠ none) ↔
      ¬ (call.Spreads kernelSize tile ∧ call.Stretched kernelSize)) := by
  have hp := FixedPoint.derive_sound hparams
  have htile : tile ≠ 0 := by have := h.tile_pos; omega
  obtain ⟨hscalar, hindex⟩ := Scalar.error?_run htile hp kernelSize
  obtain ⟨m, n, rfl, rfl⟩ := exists_counts h.kernelSize_pos h.tile_pos
  have hvector := Vector.error?_run h hp hinput hkernel
  refine ⟨hscalar, hindex, hvector, ?_⟩
  have hraises : (Scalar.run m n call).error? = some (.fault .indexOutOfRange) ↔
      ¬ call.Covers m n := by
    rw [← hscalar]
    rcases herror : (Scalar.run m n call).error? with - | e
    · simp
    · obtain rfl := hindex e herror
      simp
  rw [hraises, Ne, hvector, not_imp_not, not_and]
  exact forall_congr' fun hspreads ↦ hspreads.covers_iff h

def cutCall : Call where
  channels := 2
  outputWidth := 2
  table := #[⟨0, 4⟩, ⟨1, 4⟩, ⟨2, 4⟩, ⟨0, 4⟩, ⟨1, 4⟩]
  buffers := {
    input := #[130, 125, 200, 9]
    packed := #[128, 1, 126, 2, 127, 255]
    bias := #[40, -7]
    output := #[0, 0, 0, 0] }
  inputIncrement := 24
  outputIncrement := 0
  inputZeroPoint := 127
  kernelZeroPoint := 127
  params := ⟨1610612736, 2, 3, 1, 5, 2, 250, .vector⟩

theorem vector_fails_iff_cut :
    (Scalar.run 3 2 cutCall).error? = some (.fault .indexOutOfRange) ∧
      (Vector.run 3 2 cutCall).error? ≠ none := by
  have hposed : cutCall.Posed 3 2 :=
    ⟨by decide, by decide, by decide, by decide, by decide, by decide⟩
  have hpoint : FitsLane 127 := by decide
  have hparams : FixedPoint.derive .vector (.ofRat (3 / 16)) 5 2 250 = .ok cutCall.params := by
    decide +kernel
  have hscalar : (Scalar.run 3 2 cutCall).error? = some (.fault .indexOutOfRange) := by
    decide +kernel
  have hsize : (cutCall.taps 3 1).size = 2 := by decide +kernel
  have hspreads : ¬ cutCall.Spreads 3 2 := by
    intro h
    have := (h.row 1 (by decide)).taps
    omega
  exact ⟨hscalar, (vector_fails_iff hposed hpoint hpoint hparams).2.2.2.2
    (fun h ↦ hspreads h.1) hscalar⟩

/-- One of two taps is left in the table. -/
def loneTapCall : Call where
  channels := 1
  outputWidth := 1
  table := #[⟨0, 1⟩]
  buffers := { input := #[137], packed := #[129, 131], bias := #[40], output := #[0] }
  inputIncrement := 0
  outputIncrement := 0
  inputZeroPoint := 127
  kernelZeroPoint := 127
  params := ⟨1610612736, 2, 3, 1, 5, 2, 250, .vector⟩

/-- The vector kernel uses the tap that is left twice and returns. -/
theorem vector_returns_loneTap :
    loneTapCall.Posed 2 1 ∧ FitsLane loneTapCall.inputZeroPoint ∧
      FitsLane loneTapCall.kernelZeroPoint ∧
      FixedPoint.derive .vector (.ofRat (3 / 16)) 5 2 250 = .ok loneTapCall.params ∧
      (Scalar.run 2 1 loneTapCall).error? = some (.fault .indexOutOfRange) ∧
      (Vector.run 2 1 loneTapCall).error? = none :=
  ⟨⟨by decide, by decide, by decide, by decide, by decide, by decide⟩, by decide, by decide,
    by decide +kernel, by decide +kernel, by decide +kernel⟩

end Depthwise.Kernel
