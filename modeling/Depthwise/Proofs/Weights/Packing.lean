import Depthwise.Proofs.Computations
import Depthwise.Proofs.Weights

namespace Depthwise.Weights

def accept (channels kernelSize tile : Int) (available room : Nat) :
    Except Error (Nat × Nat × Layout) :=
  if tile = 0 then .error (.fault .divisionByZero)
  else if available < channels * kernelSize then .error .shortBuffer
  else if room < tileCount tile channels * tile * kernelSize then .error .shortBuffer
  else
    match Shape.resolve? (Buffer.bound available (channels * kernelSize)) [channels, kernelSize],
      Layout.of? channels kernelSize tile room with
    | some [rows, taps], some l => .ok (rows, taps, l)
    | _, _ => .error (.fault .unusableValue)

abbrev Packing := ExceptT Error (StateM Bytes)

def packTile (l : Layout) (tile : Int) (rows taps : Nat) (weights : Bytes) (t : Nat) :
    Packing Unit :=
  if fits l taps (channelsOf tile rows t).2 then
    modify (move weights (tileMoves l tile rows taps t))
  else throw (.fault .unusableValue)

def packInPlace (channels kernelSize tile : Int) (weights : Bytes) : Packing Unit := do
  let size := (← get).size
  let (rows, taps, l) ← (accept channels kernelSize tile weights.size size : Except Error _)
  Counting.forEach (packTile l tile rows taps weights) 0 (tileCount tile channels).toNat

def moveTiles (l : Layout) (tile : Int) (rows taps count : Nat) (weights packed : Bytes) :
    Except Error Bytes :=
  if (List.range count).all fun t ↦ fits l taps (channelsOf tile rows t).2 then
    .ok (move weights ((List.range count).flatMap (tileMoves l tile rows taps)) packed)
  else .error (.fault .unusableValue)

theorem move_append (weights : Bytes) (first second : List (Nat × Nat)) (packed : Bytes) :
    move weights (first ++ second) packed = move weights second (move weights first packed) :=
  List.foldl_append

section Run

variable {l : Layout} {tile : Int} {rows taps : Nat} {weights packed : Bytes} {t : Nat}

theorem packTile_run (h : fits l taps (channelsOf tile rows t).2 = true) :
    (packTile l tile rows taps weights t).run.run packed =
      (.ok (), move weights (tileMoves l tile rows taps t) packed) := by
  rw [packTile, if_pos h]
  rfl

theorem packTile_run_error (h : ¬ fits l taps (channelsOf tile rows t).2 = true) :
    (packTile l tile rows taps weights t).run.run packed =
      (.error (.fault .unusableValue), packed) := by
  rw [packTile, if_neg h]
  rfl

theorem packTiles_run (first count : Nat)
    (h : ∀ t, first ≤ t → t < first + count → fits l taps (channelsOf tile rows t).2 = true) :
    (Counting.forEach (packTile l tile rows taps weights) first count).run.run packed =
      (.ok (), move weights ((List.range' first count).flatMap (tileMoves l tile rows taps))
        packed) := by
  induction count generalizing first packed with
  | zero => rfl
  | succ count ih =>
    have hrest := fun packed ↦ @ih packed (first + 1) fun t ht ht' ↦ h t (by omega) (by omega)
    rw [Counting.forEach, run_bind_ok (packTile_run (h first le_rfl (by omega))), hrest,
      List.range'_succ, List.flatMap_cons, move_append]

theorem packTiles_run_error (first count : Nat)
    (h : ∃ t, first ≤ t ∧ t < first + count ∧ ¬ fits l taps (channelsOf tile rows t).2 = true) :
    ∃ left, (Counting.forEach (packTile l tile rows taps weights) first count).run.run packed =
      (.error (.fault .unusableValue), left) := by
  induction count generalizing first packed with
  | zero =>
    obtain ⟨t, ht, ht', -⟩ := h
    omega
  | succ count ih =>
    obtain ⟨t, ht, ht', hunfit⟩ := h
    rw [Counting.forEach]
    by_cases hfirst : fits l taps (channelsOf tile rows first).2 = true
    · have hne : t ≠ first := by
        rintro rfl
        exact hunfit hfirst
      rw [run_bind_ok (packTile_run hfirst)]
      exact ih (first + 1) ⟨t, by omega, by omega, hunfit⟩
    · exact ⟨packed, run_bind_error (packTile_run_error hfirst)⟩

theorem packTiles_agrees (count : Nat) :
    ∃ left, (Counting.forEach (packTile l tile rows taps weights) 0 count).run.run packed =
        ((moveTiles l tile rows taps count weights packed).map fun _ ↦ (), left) ∧
      ∀ result, moveTiles l tile rows taps count weights packed = .ok result → left = result := by
  unfold moveTiles
  split_ifs with hfits
  · rw [List.all_eq_true] at hfits
    refine ⟨_, packTiles_run 0 count fun t _ ht ↦ hfits t (List.mem_range.2 (by omega)), ?_⟩
    intro result h
    rw [← List.range_eq_range']
    exact Except.ok.inj h
  · rw [List.all_eq_true, not_forall] at hfits
    obtain ⟨t, ht⟩ := hfits
    obtain ⟨hmem, hunfit⟩ := Classical.not_imp.1 ht
    obtain ⟨left, hleft⟩ := @packTiles_run_error l tile rows taps weights packed 0 count
      ⟨t, t.zero_le, by simpa using hmem, hunfit⟩
    refine ⟨left, hleft, ?_⟩
    intro result h
    cases h

end Run

section Agreement

variable {channels kernelSize tile : Int} {weights packed : Bytes} {e : Error}

theorem pack_eq_accept : pack channels kernelSize tile weights packed =
    accept channels kernelSize tile weights.size packed.size >>= fun (rows, taps, l) ↦
      moveTiles l tile rows taps (tileCount tile channels).toNat weights packed := by
  unfold pack accept
  split_ifs
  · rfl
  · rfl
  · rfl
  · rcases Shape.resolve? _ _ with _ | _ | ⟨_, _ | ⟨_, _ | _⟩⟩ <;>
      rcases Layout.of? _ _ _ _ with _ | _ <;> rfl

theorem pack_of_accept_error
    (h : accept channels kernelSize tile weights.size packed.size = .error e) :
    pack channels kernelSize tile weights packed = .error e := by
  rw [pack_eq_accept, h]
  rfl

theorem packInPlace_of_accept_error
    (h : accept channels kernelSize tile weights.size packed.size = .error e) :
    (packInPlace channels kernelSize tile weights).run.run packed = (.error e, packed) :=
  (run_bind_ok rfl).trans (run_bind_error (run_liftM_error h packed))

theorem packInPlace_of_accept {rows taps : Nat} {l : Layout}
    (h : accept channels kernelSize tile weights.size packed.size = .ok (rows, taps, l)) :
    (packInPlace channels kernelSize tile weights).run.run packed =
      (Counting.forEach (packTile l tile rows taps weights) 0
        (tileCount tile channels).toNat).run.run packed :=
  (run_bind_ok rfl).trans (run_bind_ok (run_liftM_ok h packed))

/-- Whatever the counts, packing in place ends as `pack` does and leaves its result behind. -/
theorem packInPlace_run (channels kernelSize tile : Int) (weights packed : Bytes) :
    ∃ left, (packInPlace channels kernelSize tile weights).run.run packed =
        ((pack channels kernelSize tile weights packed).map fun _ ↦ (), left) ∧
      ∀ result, pack channels kernelSize tile weights packed = .ok result → left = result := by
  rw [pack_eq_accept]
  cases haccept : accept channels kernelSize tile weights.size packed.size with
  | error e =>
    refine ⟨packed, packInPlace_of_accept_error haccept, ?_⟩
    intro result h
    cases h
  | ok shape =>
    obtain ⟨rows, taps, l⟩ := shape
    rw [packInPlace_of_accept haccept]
    exact packTiles_agrees _

end Agreement

section Whole

variable {kernelSize tile channels : Nat} {available room : Nat} (htile : 0 < tile)

theorem available_lt_iff :
    (available : Int) < (channels : Int) * kernelSize ↔ available < channels * kernelSize := by
  rw [← Nat.cast_mul, Nat.cast_lt]

include htile

theorem room_lt_iff : (room : Int) < tileCount tile channels * tile * kernelSize ↔
    room < tiles tile channels * kernelSize * tile := by
  rw [tileCount_natCast (by omega), mul_right_comm, ← Nat.cast_mul, ← Nat.cast_mul, Nat.cast_lt]

theorem accept_of_short
    (h : available < channels * kernelSize ∨ room < tiles tile channels * kernelSize * tile) :
    accept channels kernelSize tile available room = .error .shortBuffer := by
  rw [accept, if_neg (by omega)]
  simp only [available_lt_iff, room_lt_iff htile]
  rcases h with h | h
  · rw [if_pos h]
  · rw [if_pos h, ite_self]

variable (havailable : channels * kernelSize ≤ available)
  (hroom : tiles tile channels * kernelSize * tile ≤ room)

include havailable hroom

theorem accept_of_excessive (h : Excessive channels kernelSize tile) :
    accept channels kernelSize tile available room = .error (.fault .unusableValue) := by
  have hzero := (tiles_mul_eq_zero_iff htile).2 h.1
  have hextent : Layout.extent channels kernelSize tile room = 0 := by
    rw [Layout.extent, tileCount_natCast (by omega), ← Nat.cast_mul, ← Nat.cast_mul, hzero,
      Buffer.bound_natCast, Nat.zero_min]
  have hlayout : Layout.of? channels kernelSize tile room = none := by
    rw [Layout.of?, hextent, tileCount_natCast (by omega), Shape.resolve?_of_overlarge]
    rw [overlarge_layout htile]
    exact decide_eq_true h.2
  rw [accept, if_neg (by omega), hlayout]
  simp only [available_lt_iff, room_lt_iff htile]
  rw [if_neg (Nat.not_lt.2 havailable), if_neg (Nat.not_lt.2 hroom)]
  rcases Shape.resolve? _ _ with _ | _ | ⟨_, _ | ⟨_, _ | _⟩⟩ <;> rfl

variable (hspan : ¬ Excessive channels kernelSize tile)

include hspan

theorem accept_ok : accept channels kernelSize tile available room =
    .ok (channels, kernelSize, ⟨tiles tile channels, kernelSize, tile⟩) := by
  have hbound : Buffer.bound available ((channels : Int) * kernelSize) = channels * kernelSize := by
    exact_mod_cast Buffer.bound_of_le havailable
  have hresolve : Shape.resolve? (channels * kernelSize) [(channels : Int), (kernelSize : Int)] =
      some [channels, kernelSize] := by
    rw [Shape.resolve?_of_known]
    · rfl
    · by_cases hzero : channels * kernelSize = 0
      · right
        by_contra hover
        have h := overlarge_weights_of_layout htile (Bool.not_eq_false _ ▸ hover)
        rw [overlarge_layout htile, decide_eq_true_iff] at h
        exact hspan ⟨hzero, h⟩
      · exact .inl hzero
    · simp
    · rw [Shape.known_cons (by omega), Shape.known_cons (by omega), Shape.known_nil, mul_one]
      rfl
  rw [accept, if_neg (by omega), hbound, hresolve, (layout_eq htile hspan hroom).2]
  simp only [available_lt_iff, room_lt_iff htile]
  rw [if_neg (Nat.not_lt.2 havailable), if_neg (Nat.not_lt.2 hroom)]

end Whole

section Pack

variable {kernelSize tile channels : Nat} {weights packed : Bytes} (htile : 0 < tile)
  (hweights : channels * kernelSize ≤ weights.size)
  (hpacked : tiles tile channels * kernelSize * tile ≤ packed.size)
  (hspan : ¬ Excessive channels kernelSize tile)

include htile hweights hpacked hspan

theorem pack_eq : pack channels kernelSize tile weights packed = .ok (move weights
    ((List.range (tiles tile channels)).flatMap
      (tileMoves ⟨tiles tile channels, kernelSize, tile⟩ tile channels kernelSize)) packed) := by
  have hfits : (List.range (tiles tile channels)).all (fun t ↦
      fits ⟨tiles tile channels, kernelSize, tile⟩ kernelSize (channelsOf tile channels t).2) =
        true := by
    rw [List.all_eq_true]
    intro t ht
    simp only [channelsOf_eq htile (List.mem_range.1 ht), fits, decide_true, Bool.true_or,
      Bool.true_and, Bool.or_eq_true, decide_eq_true_eq]
    omega
  rw [pack_eq_accept, accept_ok htile hweights hpacked hspan, tileCount_natCast (by omega)]
  exact if_pos hfits

theorem pack_spec : ∃ result, pack channels kernelSize tile weights packed = .ok result ∧
      result.size = packed.size ∧
      (∀ c < channels, ∀ k < kernelSize,
        result[slot kernelSize tile c k]? = some (weights.getD (c * kernelSize + k) 0)) ∧
      ∀ i, (∀ c < channels, ∀ k < kernelSize, i ≠ slot kernelSize tile c k) →
        result[i]? = packed[i]? := by
  refine ⟨_, pack_eq htile hweights hpacked hspan, size_move _ _ _, ?_, ?_⟩
  · intro c hlt k hk
    apply getElem?_move_of_mem ((mem_moves_iff htile).2 ⟨c, hlt, k, hk, rfl, rfl⟩)
    · intro o ho
      obtain ⟨c', hlt', k', hk', hslot, rfl⟩ := (mem_moves_iff htile).1 ho
      obtain ⟨rfl, rfl⟩ := slot_injective htile hk hk' hslot
      rfl
    · exact (slot_lt htile hlt hk).trans_le hpacked
  · intro i hi
    apply getElem?_move_of_not_mem
    intro o ho
    obtain ⟨c, hlt, k, hk, hslot, -⟩ := (mem_moves_iff htile).1 ho
    exact hi c hlt k hk hslot

end Pack

def target (kernelSize tile c k : Nat) : Nat := c / tile * tile * kernelSize + k * tile + c % tile

theorem target_eq_slot (kernelSize tile c k : Nat) :
    target kernelSize tile c k = slot kernelSize tile c k := by
  rw [target, slot]
  ring

/-- The weights are in places of their own, and everything else is as it was. -/
structure Filled (channels kernelSize tile : Nat) (weights packed result : Bytes) : Prop where
  size_eq : result.size = packed.size
  inside : ∀ c < channels, ∀ k < kernelSize, target kernelSize tile c k < packed.size
  distinct : ∀ c < channels, ∀ k < kernelSize, ∀ c' < channels, ∀ k' < kernelSize,
    target kernelSize tile c k = target kernelSize tile c' k' → c = c' ∧ k = k'
  weight : ∀ c < channels, ∀ k < kernelSize, ∃ w, weights[c * kernelSize + k]? = some w ∧
    result[target kernelSize tile c k]? = some w
  kept : ∀ i, (∀ c < channels, ∀ k < kernelSize, i ≠ target kernelSize tile c k) →
    result[i]? = packed[i]?

section Pack

variable {kernelSize tile channels : Nat} {weights packed : Bytes} (htile : 0 < tile)
  (hweights : channels * kernelSize ≤ weights.size)
  (hpacked : tiles tile channels * kernelSize * tile ≤ packed.size)
  (hspan : ¬ Excessive channels kernelSize tile)

include htile hweights hpacked hspan

theorem pack_filled : ∃ result, pack channels kernelSize tile weights packed = .ok result ∧
    Filled channels kernelSize tile weights packed result := by
  obtain ⟨result, hresult, hsize, hslot, hkept⟩ := pack_spec htile hweights hpacked hspan
  refine ⟨result, hresult, hsize, ?_, ?_, ?_, ?_⟩
  · intro c hc k hk
    rw [target_eq_slot]
    exact (slot_lt htile hc hk).trans_le hpacked
  · intro c hc k hk c' hc' k' hk' h
    rw [target_eq_slot, target_eq_slot] at h
    exact slot_injective htile hk hk' h
  · intro c hc k hk
    have hin : c * kernelSize + k < weights.size := by
      have := Nat.mul_le_mul_right kernelSize (show c + 1 ≤ channels from hc)
      rw [Nat.succ_mul] at this
      omega
    refine ⟨weights[c * kernelSize + k], Array.getElem?_eq_getElem hin, ?_⟩
    rw [target_eq_slot, hslot c hc k hk, Array.getD_eq_getD_getElem?,
      Array.getElem?_eq_getElem hin]
    rfl
  · intro i hi
    refine hkept i fun c hc k hk ↦ ?_
    rw [← target_eq_slot]
    exact hi c hc k hk

end Pack

/-- Short buffers are refused, as is the layout of no weights that spans too much; otherwise the
weights are packed. Nothing is written before a refusal. -/
theorem pack_outcome (channels kernelSize : Nat) {tile : Nat} (htile : 0 < tile)
    (weights packed : Bytes) :
    (weights.size < channels * kernelSize ∨
        packed.size < tiles tile channels * kernelSize * tile →
      pack channels kernelSize tile weights packed = .error .shortBuffer ∧
        Error.shortBuffer.kind = "AssertionError" ∧
        (packInPlace channels kernelSize tile weights).run.run packed =
          (.error .shortBuffer, packed)) ∧
    (channels * kernelSize ≤ weights.size → tiles tile channels * kernelSize * tile ≤ packed.size →
      (Excessive channels kernelSize tile →
        pack channels kernelSize tile weights packed = .error (.fault .unusableValue) ∧
          (Error.fault .unusableValue).kind = "ValueError" ∧
          (packInPlace channels kernelSize tile weights).run.run packed =
            (.error (.fault .unusableValue), packed)) ∧
      (¬ Excessive channels kernelSize tile →
        ∃ result, pack channels kernelSize tile weights packed = .ok result ∧
          (packInPlace channels kernelSize tile weights).run.run packed = (.ok (), result) ∧
          Filled channels kernelSize tile weights packed result)) := by
  refine ⟨fun h ↦ ?_, fun hweights hpacked ↦ ⟨fun h ↦ ?_, fun hspan ↦ ?_⟩⟩
  · have haccept := accept_of_short htile h
    exact ⟨pack_of_accept_error haccept, rfl, packInPlace_of_accept_error haccept⟩
  · have haccept := accept_of_excessive htile hweights hpacked h
    exact ⟨pack_of_accept_error haccept, rfl, packInPlace_of_accept_error haccept⟩
  · obtain ⟨result, hresult, hfilled⟩ := pack_filled htile hweights hpacked hspan
    obtain ⟨left, hrun, hleft⟩ := packInPlace_run channels kernelSize tile weights packed
    refine ⟨result, hresult, ?_, hfilled⟩
    rw [hrun, hleft result hresult, hresult]
    rfl

/-- Five channels in tiles of three: the last tile lacks one, and the buffer has a byte to spare. -/
theorem pack_outcome_partial :
    ∃ result, pack 5 2 3 #[1, 2, 3, 4, 5, 6, 7, 8, 9, 10] (Array.replicate 13 99) = .ok result ∧
      Filled 5 2 3 #[1, 2, 3, 4, 5, 6, 7, 8, 9, 10] (Array.replicate 13 99) result ∧
      result = #[1, 3, 5, 2, 4, 6, 7, 9, 99, 8, 10, 99, 99] := by
  obtain ⟨-, hlong⟩ := @pack_outcome 5 2 3 (by decide) #[1, 2, 3, 4, 5, 6, 7, 8, 9, 10]
    (Array.replicate 13 99)
  obtain ⟨result, hresult, -, hfilled⟩ := (hlong (by decide) (by decide)).2 (by decide)
  have hvalue : pack 5 2 3 #[1, 2, 3, 4, 5, 6, 7, 8, 9, 10] (Array.replicate 13 99) =
      .ok #[1, 3, 5, 2, 4, 6, 7, 9, 99, 8, 10, 99, 99] := by decide +kernel
  exact ⟨result, hresult, hfilled, Except.ok.inj (hresult.symm.trans hvalue)⟩

/-- Enough room alone does not make packing succeed: with no channels there is nothing to pack, yet
a layout of `2 ^ 64` places in each tile is refused. -/
theorem not_forall_pack_filled :
    pack 0 4294967296 4294967296 #[] #[9, 8] = .error (.fault .unusableValue) ∧
      ¬ ∀ (channels kernelSize tile : Nat) (weights packed : Bytes), 0 < tile →
        channels * kernelSize ≤ weights.size →
        tiles tile channels * kernelSize * tile ≤ packed.size →
        ∃ result, pack channels kernelSize tile weights packed = .ok result ∧
          Filled channels kernelSize tile weights packed result := by
  have hrefused : pack 0 4294967296 4294967296 #[] #[9, 8] = .error (.fault .unusableValue) := by
    decide +kernel
  refine ⟨hrefused, fun h ↦ ?_⟩
  obtain ⟨result, hresult, -⟩ :=
    h 0 4294967296 4294967296 #[] #[9, 8] (by decide) (by decide) (by decide)
  exact absurd (hrefused.symm.trans hresult) (by simp)

end Depthwise.Weights
