import Depthwise.Output
import Depthwise.Proofs.Computations
import Depthwise.Proofs.Config
import Depthwise.Proofs.Matrix

namespace Depthwise

namespace Output

variable {s : Settings} {output : Bytes}

def IsPadding (s : Settings) (place : Nat) : Prop :=
  ∃ x c : Nat, x + 1 < s.width.toNat ∧ s.channels.toNat ≤ c ∧
    c < s.effectiveOutputStride.toNat ∧ place = x * s.effectiveOutputStride.toNat + c

theorem rowStart_add (hs : s.Regular) (x c : Nat) :
    rowStart s x + c = ((x * s.effectiveOutputStride.toNat + c : Nat) : Int) := by
  have hchannels := hs.channels_pos
  have hstride := hs.channels_le_outputStride
  rw [rowStart, Nat.cast_add, Nat.cast_mul, Int.toNat_of_nonneg (by omega)]

theorem exists_of_mem_paddingPlaces (hs : s.Regular) {place : Int} (h : place ∈ paddingPlaces s) :
    ∃ x i : Nat, x + 1 < s.width.toNat ∧
      s.channels.toNat + i < s.effectiveOutputStride.toNat ∧
      place = ((x * s.effectiveOutputStride.toNat + s.channels.toNat + i : Nat) : Int) := by
  have hchannels := hs.channels_pos
  have hstride := hs.channels_le_outputStride
  simp only [paddingPlaces, gap, List.mem_flatMap, List.mem_range, List.mem_map] at h
  obtain ⟨x, hx, i, hi, rfl⟩ := h
  refine ⟨x, i, by omega, by omega, ?_⟩
  rw [Nat.add_assoc, ← rowStart_add hs, Nat.cast_add]
  omega

theorem mem_paddingPlaces_iff (hs : s.Regular) {place : Int} :
    place ∈ paddingPlaces s ↔ ∃ n : Nat, place = n ∧ IsPadding s n := by
  have hchannels := hs.channels_pos
  have hstride := hs.channels_le_outputStride
  constructor
  · intro h
    obtain ⟨x, i, hx, hi, rfl⟩ := exists_of_mem_paddingPlaces hs h
    exact ⟨_, rfl, x, s.channels.toNat + i, hx, Nat.le_add_right _ _, hi, Nat.add_assoc _ _ _⟩
  · rintro ⟨_, rfl, x, c, hx, hc, hc', rfl⟩
    simp only [paddingPlaces, gap, List.mem_flatMap, List.mem_range, List.mem_map]
    refine ⟨x, by omega, c - s.channels.toNat, by omega, ?_⟩
    rw [← rowStart_add hs]
    omega

/-- Places that take up less than a stride in each row are met in increasing order. -/
theorem pairwise_rowStart (offset : Int) {lanes : Nat} (hlanes : lanes ≤ s.effectiveOutputStride)
    (rows : Nat) : ((List.range rows).flatMap fun x ↦ (List.range lanes).map fun (i : Nat) ↦
      rowStart s x + offset + i).Pairwise (· < ·) := by
  rw [List.pairwise_flatMap]
  refine ⟨fun x _ ↦ ?_, List.pairwise_lt_range.imp fun {x y} hxy p hp q hq ↦ ?_⟩
  · rw [List.pairwise_map]
    exact List.pairwise_lt_range.imp fun h ↦ by omega
  · simp only [List.mem_map, List.mem_range] at hp hq
    obtain ⟨i, hi, rfl⟩ := hp
    obtain ⟨j, hj, rfl⟩ := hq
    have hrows : ((x : Int) + 1) * s.effectiveOutputStride ≤ y * s.effectiveOutputStride :=
      mul_le_mul_of_nonneg_right (by omega) (by omega)
    rw [add_mul, one_mul] at hrows
    rw [rowStart, rowStart]
    omega

theorem pairwise_paddingPlaces (hs : s.Regular) : (paddingPlaces s).Pairwise (· < ·) := by
  have hchannels := hs.channels_pos
  have hstride := hs.channels_le_outputStride
  exact pairwise_rowStart s.channels (by omega) _

theorem find?_paddingPlaces_eq_none (hs : s.Regular) {p : Int → Bool} :
    (paddingPlaces s).find? p = none ↔ ∀ place : Nat, IsPadding s place → p place = false := by
  rw [List.find?_eq_none]
  constructor
  · intro h place hplace
    exact Bool.eq_false_iff.2 (h _ ((mem_paddingPlaces_iff hs).2 ⟨place, rfl, hplace⟩))
  · intro h place hplace
    obtain ⟨place, rfl, hpadding⟩ := (mem_paddingPlaces_iff hs).1 hplace
    exact Bool.eq_false_iff.1 (h place hpadding)

theorem find?_paddingPlaces_eq_some (hs : s.Regular) {p : Int → Bool} {place : Nat} :
    (paddingPlaces s).find? p = some (place : Int) ↔ IsPadding s place ∧ p place = true ∧
      ∀ earlier < place, IsPadding s earlier → p earlier = false := by
  have hmem : (place : Int) ∈ paddingPlaces s ↔ IsPadding s place := by
    rw [mem_paddingPlaces_iff hs]
    exact ⟨fun ⟨n, heq, h⟩ ↦ Int.ofNat_inj.1 heq ▸ h, fun h ↦ ⟨place, rfl, h⟩⟩
  rw [find?_eq_some_iff_first (pairwise_paddingPlaces hs) (fun _ _ h ↦ h.le.not_gt), hmem]
  refine and_congr_right fun _ ↦ and_congr_right fun _ ↦ ⟨fun h earlier hlt hpadding ↦ ?_, ?_⟩
  · exact h _ ((mem_paddingPlaces_iff hs).2 ⟨earlier, rfl, hpadding⟩) (by exact_mod_cast hlt)
  · intro h earlier hearlier hlt
    obtain ⟨earlier, rfl, hpadding⟩ := (mem_paddingPlaces_iff hs).1 hearlier
    exact h earlier (by exact_mod_cast hlt) hpadding

theorem outside_of_padding {stride lanes x i : Nat} (hi : lanes + i < stride) (y : Nat) :
    x * stride + lanes + i < y * stride ∨ y * stride + lanes ≤ x * stride + lanes + i := by
  rcases Nat.lt_or_ge x y with h | h
  · have hnext := Nat.mul_le_mul_right stride (show x + 1 ≤ y from h)
    rw [Nat.succ_mul] at hnext
    omega
  · have := Nat.mul_le_mul_right stride h
    omega

theorem readByte_eq_ok {place : Int} {b : UInt8} :
    readByte output place = .ok b ↔ Buffer.read? output place = some b := by
  rw [readByte]
  cases Buffer.read? output place <;> simp

theorem readByte_natCast {n : Nat} (h : n < output.size) :
    readByte output (n : Int) = .ok (output.getD n 0) := by
  rw [readByte, Buffer.read?_natCast h, Array.getElem_eq_getD]

/-- Places that were read as padding can be read again in any output of that length. -/
theorem exists_readByte_of_padding {after : Bytes} {before : List (Int × UInt8)}
    (h : padding s output = .ok before) (hlen : after.size = output.size) :
    ∀ a ∈ before, ∃ b, readByte after a.1 = .ok b := by
  intro a ha
  obtain ⟨place, -, hplace⟩ := exists_of_mem_mapM h ha
  rcases hread : readByte output place with e | b
  · rw [hread] at hplace
    cases hplace
  · rw [hread] at hplace
    cases hplace
    obtain ⟨b', hb'⟩ := Buffer.exists_read?_of_size hlen (readByte_eq_ok.1 hread)
    exact ⟨b', readByte_eq_ok.2 hb'⟩

variable (hs : s.Regular) (hsize : (output.size : Int) = s.outputSize)

include hs hsize

theorem row_end_le_size {x : Nat} (hx : x < s.width.toNat) :
    x * s.effectiveOutputStride.toNat + s.channels.toNat ≤ output.size := by
  have hchannels := hs.channels_pos
  have hstride := hs.channels_le_outputStride
  have hmul : (x : Int) * s.effectiveOutputStride ≤ (s.width - 1) * s.effectiveOutputStride :=
    mul_le_mul_of_nonneg_right (by omega) (by omega)
  have hcast : ((x * s.effectiveOutputStride.toNat : Nat) : Int) =
      x * s.effectiveOutputStride := by
    rw [Nat.cast_mul, Int.toNat_of_nonneg (by omega)]
  rw [Settings.outputSize] at hsize
  omega

theorem rows_ok : rows s output = .ok (matrix s.width.toNat s.channels.toNat fun x c ↦
    output.getD (x * s.effectiveOutputStride.toNat + c) 0) := by
  have hchannels := hs.channels_pos
  have hstride := hs.channels_le_outputStride
  refine mapM_ok fun x hx ↦ ?_
  have hend := row_end_le_size hs hsize (List.mem_range.1 hx)
  have hstart : rowStart s x = ((x * s.effectiveOutputStride.toNat : Nat) : Int) := by
    rw [rowStart, Nat.cast_mul, Int.toNat_of_nonneg (by omega)]
  have hstop : rowStart s x + s.channels =
      ((x * s.effectiveOutputStride.toNat + s.channels.toNat : Nat) : Int) := by
    rw [hstart, Nat.cast_add, Int.toNat_of_nonneg (by omega : 0 ≤ s.channels)]
  have hrow : (output.extract (x * s.effectiveOutputStride.toNat)
      (x * s.effectiveOutputStride.toNat + s.channels.toNat)).size = s.channels.toNat := by
    rw [Array.size_extract]
    omega
  have hslice : Buffer.slice output (rowStart s x) (rowStart s x + s.channels) =
      output.extract (x * s.effectiveOutputStride.toNat)
        (x * s.effectiveOutputStride.toNat + s.channels.toNat) := by
    rw [hstop, hstart]
    exact Buffer.slice_natCast output (Nat.le_add_right _ _) hend
  simp only [hslice, Buffer.stretch?_self _ hrow, Except.ok.injEq]
  apply List.ext_getElem
  · rw [Array.length_toList, hrow, List.length_map, List.length_range]
  · intro c h₁ h₂
    have hc : c < s.channels.toNat := by simpa using h₂
    have hlt : x * s.effectiveOutputStride.toNat + c < output.size := by omega
    simp [Array.getD_eq_getD_getElem?, Array.getElem?_eq_getElem hlt]

omit hs hsize in
theorem shape_of_rows {codes : List (List UInt8)} (h : rows s output = .ok codes) :
    codes.length = s.width.toNat ∧ ∀ row ∈ codes, row.length = s.channels.toNat := by
  constructor
  · rw [← (forall₂_of_mapM h).length_eq, List.length_range]
  · intro row hrow
    obtain ⟨x, -, hx⟩ := exists_of_mem_mapM h hrow
    dsimp only at hx
    split at hx
    · next stretched hstretch =>
      cases hx
      rw [Array.length_toList, Buffer.size_of_stretch? hstretch]
    · cases hx

theorem readByte_padding {place : Int} (h : place ∈ paddingPlaces s) :
    readByte output place = .ok (output.getD place.toNat 0) := by
  obtain ⟨x, i, hx, hi, rfl⟩ := exists_of_mem_paddingPlaces hs h
  have hend := row_end_le_size hs hsize hx
  rw [Nat.succ_mul] at hend
  exact readByte_natCast (by omega)

theorem padding_ok : padding s output =
    .ok ((paddingPlaces s).map fun place ↦ (place, output.getD place.toNat 0)) := by
  refine mapM_ok fun place hplace ↦ ?_
  rw [readByte_padding hs hsize hplace]
  rfl

omit hs hsize in
theorem firstChanged_eq_find? {before : List (Int × UInt8)} (value : Int → UInt8)
    (h : ∀ a ∈ before, readByte output a.1 = .ok (value a.1)) :
    firstChanged before output =
      .ok ((before.find? fun a ↦ value a.1 ≠ a.2).map (·.1)) := by
  induction before with
  | nil => rfl
  | cons a rest ih =>
    obtain ⟨place, old⟩ := a
    rw [firstChanged, h (place, old) List.mem_cons_self, List.find?_cons]
    by_cases hold : value place = old
    · simp only [bind, Except.bind, ne_eq, hold, not_true, if_false, decide_false]
      exact ih fun b hb ↦ h b (List.mem_cons_of_mem _ hb)
    · simp only [bind, Except.bind, ne_eq, hold, not_false_eq_true, if_true, decide_true]
      rfl

omit hs hsize in
theorem exists_firstChanged_ok {before : List (Int × UInt8)}
    (h : ∀ a ∈ before, ∃ b, readByte output a.1 = .ok b) :
    ∃ place?, firstChanged before output = .ok place? := by
  refine ⟨_, firstChanged_eq_find? (fun place ↦ (readByte output place).toOption.getD 0) ?_⟩
  intro a ha
  obtain ⟨b, hb⟩ := h a ha
  rw [hb]
  rfl

/-- The padding of an output is compared with what it held before, place by place. -/
theorem firstChanged_eq {after : Bytes} (hlen : after.size = output.size) :
    firstChanged ((paddingPlaces s).map fun place ↦ (place, output.getD place.toNat 0)) after =
      .ok ((paddingPlaces s).find? fun place ↦
        after.getD place.toNat 0 ≠ output.getD place.toNat 0) := by
  have hread : ∀ a ∈ (paddingPlaces s).map fun place ↦ (place, output.getD place.toNat 0),
      readByte after a.1 = .ok (after.getD a.1.toNat 0) := by
    intro a ha
    obtain ⟨place, hplace, rfl⟩ := List.mem_map.1 ha
    exact readByte_padding hs (by rw [hlen]; exact hsize) hplace
  rw [firstChanged_eq_find? (fun place ↦ after.getD place.toNat 0) hread, List.find?_map,
    Option.map_map]
  exact congrArg Except.ok Option.map_id'

/-- Where the output only differs inside the rows, the padding is unchanged. -/
theorem firstChanged_padding {after : Bytes} (hlen : after.size = output.size)
    (h : ∀ i, (∀ x < s.width.toNat, i < x * s.effectiveOutputStride.toNat ∨
      x * s.effectiveOutputStride.toNat + s.channels.toNat ≤ i) → after[i]? = output[i]?) :
    firstChanged ((paddingPlaces s).map fun place ↦ (place, output.getD place.toNat 0)) after =
      .ok none := by
  rw [firstChanged_eq hs hsize hlen, List.find?_eq_none.2]
  intro place hplace
  obtain ⟨x, i, -, hi, rfl⟩ := exists_of_mem_paddingPlaces hs hplace
  rw [Int.toNat_natCast, Array.getD_eq_getD_getElem?, Array.getD_eq_getD_getElem?,
    h _ fun y _ ↦ outside_of_padding hi y]
  simp

end Output

end Depthwise
