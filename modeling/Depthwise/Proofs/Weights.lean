import Depthwise.Proofs.Buffers
import Depthwise.Weights
import Mathlib.Data.Nat.Init
import Mathlib.Tactic.Linarith
import Mathlib.Tactic.Ring

namespace Depthwise.Weights

def slot (kernelSize tile c k : Nat) : Nat := (c / tile * kernelSize + k) * tile + c % tile

def tiles (tile channels : Nat) : Nat := (channels + tile - 1) / tile

theorem tileCount_natCast {tile channels : Nat} (h : 0 < channels + tile) :
    tileCount tile channels = tiles tile channels := by
  have hcast : ((channels : Int) + tile - 1) = ((channels + tile - 1 : Nat) : Int) := by omega
  rw [tileCount, hcast, tiles, Int.fdiv_eq_ediv_of_nonneg _ (Int.natCast_nonneg _)]
  rfl

theorem place_natCast (kernelSize tile c k : Nat) :
    place kernelSize tile c k = slot kernelSize tile c k := by
  rw [place, Int.fdiv_eq_ediv_of_nonneg _ (Int.natCast_nonneg _),
    Int.fmod_eq_emod_of_nonneg _ (Int.natCast_nonneg _), slot]
  push_cast
  ring

variable {kernelSize tile channels : Nat}

theorem le_tiles_mul (htile : 0 < tile) : channels ≤ tiles tile channels * tile := by
  have h := Nat.div_add_mod (channels + tile - 1) tile
  have hmod := Nat.mod_lt (channels + tile - 1) htile
  rw [Nat.mul_comm] at h
  unfold tiles
  omega

theorem tile_mul_lt (htile : 0 < tile) {t : Nat} (ht : t < tiles tile channels) :
    t * tile < channels := by
  have h := Nat.div_mul_le_self (channels + tile - 1) tile
  have hmul := Nat.mul_le_mul_right tile (show t + 1 ≤ tiles tile channels from ht)
  rw [Nat.succ_mul] at hmul
  unfold tiles at hmul
  omega

theorem div_lt_tiles (htile : 0 < tile) {c : Nat} (hc : c < channels) :
    c / tile < tiles tile channels :=
  (Nat.div_lt_iff_lt_mul htile).2 (hc.trans_le (le_tiles_mul htile))

theorem tiles_pos (htile : 0 < tile) (hc : 0 < channels) : 0 < tiles tile channels :=
  (Nat.zero_le _).trans_lt (div_lt_tiles htile hc)

theorem slot_lt (htile : 0 < tile) {c k : Nat} (hc : c < channels) (hk : k < kernelSize) :
    slot kernelSize tile c k < tiles tile channels * kernelSize * tile := by
  have ht := div_lt_tiles htile hc
  have hmod := Nat.mod_lt c htile
  have h₁ : (c / tile + 1) * kernelSize ≤ tiles tile channels * kernelSize :=
    Nat.mul_le_mul_right _ ht
  have h₂ : (c / tile * kernelSize + k + 1) * tile ≤ tiles tile channels * kernelSize * tile := by
    apply Nat.mul_le_mul_right
    rw [Nat.succ_mul] at h₁
    omega
  rw [Nat.succ_mul] at h₂
  unfold slot
  omega

theorem slot_injective (htile : 0 < tile) {c c' k k' : Nat} (hk : k < kernelSize)
    (hk' : k' < kernelSize) (h : slot kernelSize tile c k = slot kernelSize tile c' k') :
    c = c' ∧ k = k' := by
  have hlane : c % tile = c' % tile := by
    have := congrArg (· % tile) h
    simpa [slot, Nat.mul_add_mod_self_right] using this
  have hrow : c / tile * kernelSize + k = c' / tile * kernelSize + k' := by
    unfold slot at h
    rw [hlane] at h
    exact Nat.eq_of_mul_eq_mul_right htile (Nat.add_right_cancel h)
  have htap : k = k' := by
    have := congrArg (· % kernelSize) hrow
    simpa [Nat.mul_add_mod_self_right, Nat.mod_eq_of_lt hk, Nat.mod_eq_of_lt hk'] using this
  have hblock : c / tile = c' / tile := by
    rw [htap] at hrow
    exact Nat.eq_of_mul_eq_mul_right (by omega) (Nat.add_right_cancel hrow)
  refine ⟨?_, htap⟩
  rw [← Nat.div_add_mod c tile, ← Nat.div_add_mod c' tile, hlane, hblock]

/-- Nothing is to be packed, but the lengths of the empty layout multiply to more than a table can
span once those of zero are left out. -/
def Excessive (channels kernelSize tile : Nat) : Prop :=
  channels * kernelSize = 0 ∧
    Shape.largestSpan < max (tiles tile channels) 1 * (max kernelSize 1 * tile)

instance (channels kernelSize tile : Nat) : Decidable (Excessive channels kernelSize tile) :=
  inferInstanceAs (Decidable (_ ∧ _))

theorem not_excessive_of_pos (hks : 0 < kernelSize) (hc : 0 < channels) :
    ¬ Excessive channels kernelSize tile := fun h ↦ (Nat.mul_pos hc hks).ne' h.1

theorem overlarge_layout (htile : 0 < tile) :
    Shape.overlarge 1 [(tiles tile channels : Int), (kernelSize : Int), (tile : Int)] =
      decide (Shape.largestSpan < max (tiles tile channels) 1 * (max kernelSize 1 * tile)) := by
  rw [Shape.overlarge, Shape.known_nonzero_cons, Shape.known_nonzero_cons, Shape.known_nonzero_cons,
    List.filter_nil, Shape.known_nil, Nat.one_mul, Nat.mul_one, Nat.max_eq_left htile]

theorem overlarge_weights_of_layout (htile : 0 < tile)
    (h : Shape.overlarge 1 [(channels : Int), (kernelSize : Int)] = true) :
    Shape.overlarge 1 [(tiles tile channels : Int), (kernelSize : Int), (tile : Int)] = true := by
  rw [Shape.overlarge, Shape.known_nonzero_cons, Shape.known_nonzero_cons, List.filter_nil,
    Shape.known_nil, Nat.one_mul, Nat.mul_one, decide_eq_true_iff] at h
  rw [overlarge_layout htile, decide_eq_true_iff]
  have hle : max channels 1 ≤ max (tiles tile channels) 1 * tile := by
    have := Nat.mul_le_mul_right tile (Nat.le_max_left (tiles tile channels) 1)
    have := Nat.mul_le_mul_right tile (Nat.le_max_right (tiles tile channels) 1)
    have : channels ≤ tiles tile channels * tile := le_tiles_mul htile
    omega
  calc Shape.largestSpan < max channels 1 * max kernelSize 1 := h
    _ ≤ max (tiles tile channels) 1 * tile * max kernelSize 1 := Nat.mul_le_mul_right _ hle
    _ = max (tiles tile channels) 1 * (max kernelSize 1 * tile) := by ring

theorem tiles_mul_eq_zero_iff (htile : 0 < tile) :
    tiles tile channels * kernelSize * tile = 0 ↔ channels * kernelSize = 0 := by
  have hle : channels ≤ tiles tile channels * tile := le_tiles_mul htile
  rw [Nat.mul_eq_zero, Nat.mul_eq_zero, Nat.mul_eq_zero]
  constructor
  · rintro ((hzero | hzero) | hzero)
    · rw [hzero, Nat.zero_mul] at hle
      exact .inl (Nat.le_zero.1 hle)
    · exact .inr hzero
    · exact absurd hzero htile.ne'
  · rintro (rfl | hzero)
    · refine .inl (.inl ?_)
      rw [tiles, Nat.zero_add]
      exact Nat.div_eq_of_lt (Nat.sub_lt htile Nat.one_pos)
    · exact .inl (.inr hzero)

theorem layout_eq (htile : 0 < tile) (hspan : ¬ Excessive channels kernelSize tile) {size : Nat}
    (hroom : tiles tile channels * kernelSize * tile ≤ size) :
    Layout.extent channels kernelSize tile size = tiles tile channels * kernelSize * tile ∧
      Layout.of? channels kernelSize tile size = some ⟨tiles tile channels, kernelSize, tile⟩ := by
  have hcount : tileCount tile channels = tiles tile channels := tileCount_natCast (by omega)
  have hextent : Layout.extent channels kernelSize tile size =
      tiles tile channels * kernelSize * tile := by
    rw [Layout.extent, hcount]
    exact_mod_cast Buffer.bound_of_le hroom
  refine ⟨hextent, ?_⟩
  rw [Layout.of?, hextent, hcount, Shape.resolve?_of_known]
  · rfl
  · rw [overlarge_layout htile, decide_eq_false_iff_not, Ne, tiles_mul_eq_zero_iff htile]
    exact Classical.not_and_iff_not_or_not.1 hspan
  · simp
  · rw [Shape.known_cons (by omega), Shape.known_cons (by omega), Shape.known_cons (by omega),
      Shape.known_nil, mul_one]
    simp [Nat.mul_assoc]

theorem layout_eq_none (htile : 0 < tile) {size : Nat}
    (hshort : size < tiles tile channels * kernelSize * tile) :
    Layout.of? channels kernelSize tile size = none := by
  have hcount : tileCount tile channels = tiles tile channels := tileCount_natCast (by omega)
  have hextent : Layout.extent channels kernelSize tile size = size := by
    rw [Layout.extent, hcount]
    exact_mod_cast (Buffer.bound_natCast size _).trans (Nat.min_eq_right hshort.le)
  rw [Layout.of?, hextent, hcount, Shape.resolve?_eq_none]
  · simp
  · rw [Shape.known_cons (by omega), Shape.known_cons (by omega), Shape.known_cons (by omega),
      Shape.known_nil, mul_one]
    simpa [Nat.mul_assoc] using hshort.ne'

theorem size_move (source : Bytes) (moves : List (Nat × Nat)) (target : Bytes) :
    (move source moves target).size = target.size := by
  induction moves generalizing target with
  | nil => rfl
  | cons m rest ih =>
    change (move source rest (target.setIfInBounds m.1 (source.getD m.2 0))).size = _
    rw [ih, Array.size_setIfInBounds]

theorem getElem?_move_of_not_mem {source : Bytes} {moves : List (Nat × Nat)} {target : Bytes}
    {place : Nat} (h : ∀ origin, (place, origin) ∉ moves) :
    (move source moves target)[place]? = target[place]? := by
  induction moves generalizing target with
  | nil => rfl
  | cons m rest ih =>
    change (move source rest (target.setIfInBounds m.1 (source.getD m.2 0)))[place]? = _
    have hne : m.1 ≠ place := by
      rintro rfl
      exact h m.2 (by simp)
    rw [ih fun origin hmem ↦ h origin (List.mem_cons_of_mem _ hmem),
      Array.getElem?_setIfInBounds_ne hne]

/-- A place that gets the byte of one origin only holds it in the end. -/
theorem getElem?_move_of_mem {source : Bytes} {moves : List (Nat × Nat)} {target : Bytes}
    {place origin : Nat} (hmem : (place, origin) ∈ moves)
    (honly : ∀ o, (place, o) ∈ moves → o = origin) (hlt : place < target.size) :
    (move source moves target)[place]? = some (source.getD origin 0) := by
  induction moves generalizing target with
  | nil => simp at hmem
  | cons m rest ih =>
    change (move source rest (target.setIfInBounds m.1 (source.getD m.2 0)))[place]? = _
    by_cases hrest : (place, origin) ∈ rest
    · exact ih hrest (fun o ho ↦ honly o (List.mem_cons_of_mem _ ho)) (by simpa using hlt)
    · have hm : m = (place, origin) := by
        rcases List.mem_cons.1 hmem with rfl | hin
        · rfl
        · exact absurd hin hrest
      rw [getElem?_move_of_not_mem fun o ho ↦ ?_]
      · subst hm
        exact Array.getElem?_setIfInBounds_self_of_lt hlt
      · rw [honly o (List.mem_cons_of_mem _ ho)] at ho
        exact hrest ho

theorem channelsOf_eq (htile : 0 < tile) {t : Nat} (ht : t < tiles tile channels) :
    channelsOf tile channels t = (t * tile, min tile (channels - t * tile)) := by
  have hlt := tile_mul_lt htile ht
  have hfirst : Buffer.bound channels ((t : Int) * tile) = t * tile := by
    exact_mod_cast Buffer.bound_of_le hlt.le
  have hlast : Buffer.bound channels ((t : Int) * tile + tile) =
      min (t * tile + tile) channels := by
    exact_mod_cast Buffer.bound_natCast channels (t * tile + tile)
  simp only [channelsOf, hfirst, hlast, Prod.mk.injEq, true_and]
  omega

/-- The moves of all tiles: each weight goes to its slot. -/
theorem mem_moves_iff (htile : 0 < tile) {place origin : Nat} :
    (place, origin) ∈ (List.range (tiles tile channels)).flatMap
        (tileMoves ⟨tiles tile channels, kernelSize, tile⟩ tile channels kernelSize) ↔
      ∃ c < channels, ∃ k < kernelSize,
        place = slot kernelSize tile c k ∧ origin = c * kernelSize + k := by
  simp only [List.mem_flatMap, List.mem_range]
  constructor
  · rintro ⟨t, ht, hmem⟩
    have hlt := tile_mul_lt htile ht
    simp only [tileMoves, channelsOf_eq htile ht, List.mem_flatMap, List.mem_range, List.mem_map,
      Prod.mk.injEq, Layout.place] at hmem
    obtain ⟨k, hk, j, hj, hplace, horigin⟩ := hmem
    have hj' : j < tile := by omega
    refine ⟨t * tile + j, by omega, k, hk, ?_, ?_⟩
    · rw [slot, Buffer.row_div hj', Buffer.row_mod hj']
      exact hplace.symm
    · rw [← horigin, Shape.spread_of_lt hk]
  · rintro ⟨c, hc, k, hk, rfl, rfl⟩
    have ht := div_lt_tiles htile hc
    have hdm := Nat.div_add_mod c tile
    have hmod := Nat.mod_lt c htile
    rw [Nat.mul_comm] at hdm
    refine ⟨c / tile, ht, ?_⟩
    simp only [tileMoves, channelsOf_eq htile ht, List.mem_flatMap, List.mem_range, List.mem_map,
      Prod.mk.injEq, Layout.place]
    refine ⟨k, hk, c % tile, by omega, rfl, ?_⟩
    rw [hdm, Shape.spread_of_lt hk]

end Depthwise.Weights
