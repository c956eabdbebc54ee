import Depthwise.Proofs.Binary.Order
import Depthwise.Proofs.Buffers
import Depthwise.Proofs.History

namespace Depthwise

/-- The first place of a list that holds a largest value. -/
structure FirstGreatest (xs : List Double) (i : Nat) (best : Double) : Prop where
  get : xs[i]? = some best
  le : ∀ d ∈ xs, d.rank ≤ best.rank
  lt : ∀ j < i, ∀ d, xs[j]? = some d → d.rank < best.rank

namespace FirstGreatest

variable {xs : List Double} {i j : Nat} {best x : Double}

theorem singleton (x : Double) : FirstGreatest [x] 0 x :=
  ⟨rfl, by simp, by simp⟩

theorem keep (h : FirstGreatest xs i best) (hx : x.rank ≤ best.rank) :
    FirstGreatest (xs ++ [x]) i best := by
  obtain ⟨hi, -⟩ := List.getElem?_eq_some_iff.1 h.get
  refine ⟨?_, ?_, ?_⟩
  · rw [List.getElem?_append_left hi]
    exact h.get
  · intro d hd
    rcases List.mem_append.1 hd with hd | hd
    · exact h.le d hd
    · rw [List.mem_singleton.1 hd]
      exact hx
  · intro j hj d hd
    rw [List.getElem?_append_left (hj.trans hi)] at hd
    exact h.lt j hj d hd

theorem exceed (h : FirstGreatest xs i best) (hx : best.rank < x.rank) :
    FirstGreatest (xs ++ [x]) xs.length x := by
  refine ⟨List.getElem?_concat_length, ?_, ?_⟩
  · intro d hd
    rcases List.mem_append.1 hd with hd | hd
    · exact (h.le d hd).trans hx.le
    · rw [List.mem_singleton.1 hd]
  · intro j hj d hd
    rw [List.getElem?_append_left hj] at hd
    exact (h.le d (List.mem_of_getElem? hd)).trans_lt hx

theorem mem (h : FirstGreatest xs i best) : best ∈ xs := List.mem_of_getElem? h.get

end FirstGreatest

namespace Metrics

/-- The search for the largest error goes on from the first place of the largest one so far. -/
theorem firstGreatest_worstFrom {before rest : List Double} {place : Nat} {best : Double}
    (hbefore : FirstGreatest before place best)
    (hnumbers : ∀ d ∈ before ++ rest, d.isNaN = false) :
    ∃ worst, FirstGreatest (before ++ rest) (worstFrom best place before.length rest) worst := by
  -- on the elements to come; each of them joins the end of those before
  induction rest generalizing before place best with
  | nil =>
    rw [List.append_nil]
    exact ⟨best, hbefore⟩
  | cons x rest ih =>
    have hbest : best.isNaN = false := hnumbers best (List.mem_append_left _ hbefore.mem)
    have hx : x.isNaN = false := hnumbers x (by simp)
    have hsplit : before ++ x :: rest = (before ++ [x]) ++ rest := by simp
    have hlength : before.length + 1 = (before ++ [x]).length := by simp
    rw [hsplit] at hnumbers ⊢
    rw [worstFrom, hbest, hx, Bool.false_or, if_neg Bool.false_ne_true, hlength]
    split_ifs with hlt
    · exact ih (hbefore.exceed ((Binary.lt_iff_rank hbest hx).1 hlt)) hnumbers
    · have hle := not_lt.1 (mt (Binary.lt_iff_rank hbest hx).2 hlt)
      exact ih (hbefore.keep hle) hnumbers

theorem firstGreatest_worstIndex {errors : List Double} (hne : errors ≠ [])
    (hnumbers : ∀ d ∈ errors, d.isNaN = false) :
    ∃ worst, FirstGreatest errors (worstIndex errors) worst := by
  cases errors with
  | nil => exact absurd rfl hne
  | cons x rest => exact firstGreatest_worstFrom (.singleton x) hnumbers

end Metrics

namespace Sample

variable {x y best : Double} {xs : List Double}

theorem larger_spec (hx : x.isNaN = false) (hy : y.isNaN = false) :
    (larger x y = x ∨ larger x y = y) ∧ x.rank ≤ (larger x y).rank ∧
      y.rank ≤ (larger x y).rank := by
  rw [larger, hx, Bool.false_or]
  split_ifs with hlt
  · exact ⟨.inl rfl, le_rfl, ((Binary.lt_iff_rank hy hx).1 hlt).le⟩
  · exact ⟨.inr rfl, not_lt.1 (mt (Binary.lt_iff_rank hy hx).2 hlt), le_rfl⟩

theorem foldl_larger_spec (hbest : best.isNaN = false) (hxs : ∀ x ∈ xs, x.isNaN = false) :
    xs.foldl larger best ∈ best :: xs ∧
      ∀ d ∈ best :: xs, d.rank ≤ (xs.foldl larger best).rank := by
  induction xs generalizing best with
  | nil => simp
  | cons x rest ih =>
    obtain ⟨hx, hrest⟩ := List.forall_mem_cons.1 hxs
    obtain ⟨hchoice, hbest', hx'⟩ := larger_spec hbest hx
    have hnumber : (larger best x).isNaN = false := by
      rcases hchoice with h | h <;> rw [h]
      · exact hbest
      · exact hx
    obtain ⟨hmem, hle⟩ := ih hnumber hrest
    have hstart := hle _ List.mem_cons_self
    rw [List.foldl_cons]
    refine ⟨?_, ?_⟩
    · rcases List.mem_cons.1 hmem with h | h
      · rcases hchoice with h' | h' <;> rw [h, h'] <;> simp
      · exact List.mem_cons_of_mem _ (List.mem_cons_of_mem _ h)
    · intro d hd
      rcases List.mem_cons.1 hd with rfl | hd
      · exact hbest'.trans hstart
      · rcases List.mem_cons.1 hd with rfl | hd
        · exact hx'.trans hstart
        · exact hle d (List.mem_cons_of_mem _ hd)

theorem maximum_spec (hne : xs ≠ []) (hxs : ∀ x ∈ xs, x.isNaN = false) :
    maximum xs ∈ xs ∧ ∀ d ∈ xs, d.rank ≤ (maximum xs).rank := by
  cases xs with
  | nil => exact absurd rfl hne
  | cons x rest =>
    obtain ⟨hx, hrest⟩ := List.forall_mem_cons.1 hxs
    exact foldl_larger_spec hx hrest

end Sample

namespace Metrics

variable {xs : List Double} {tolerance : Double}

/-- No number is past a tolerance exactly when the largest is not. -/
theorem filter_lt_eq_nil_iff (hne : xs ≠ []) (hxs : ∀ x ∈ xs, x.isNaN = false)
    (htolerance : tolerance.isNaN = false) :
    xs.filter tolerance.lt = [] ↔ (Sample.maximum xs).le tolerance = true := by
  obtain ⟨hmem, hmax⟩ := Sample.maximum_spec hne hxs
  rw [List.filter_eq_nil_iff, Binary.le_iff_rank (hxs _ hmem) htolerance]
  constructor
  · intro h
    exact not_lt.1 (mt (Binary.lt_iff_rank htolerance (hxs _ hmem)).2 (h _ hmem))
  · intro h x hx hlt
    exact ((hmax x hx).trans h).not_gt ((Binary.lt_iff_rank htolerance (hxs x hx)).1 hlt)

/-- Among values without a sign the worst place holds the maximum itself. -/
theorem firstGreatest_maximum (hne : xs ≠ []) (hxs : ∀ x ∈ xs, x.isNaN = false)
    (hsigns : ∀ x ∈ xs, x.isNegative = false) :
    FirstGreatest xs (worstIndex xs) (Sample.maximum xs) := by
  obtain ⟨worst, hworst⟩ := firstGreatest_worstIndex hne hxs
  obtain ⟨hmem, hmax⟩ := Sample.maximum_spec hne hxs
  have hrank : worst.rank = (Sample.maximum xs).rank :=
    le_antisymm (hmax worst hworst.mem) (hworst.le _ hmem)
  rwa [Binary.eq_of_rank_eq (hxs _ hworst.mem) (hxs _ hmem) (hsigns _ hworst.mem)
    (hsigns _ hmem) hrank] at hworst

def errorAt (expected : List (List Double)) (observed : List (List Int)) (x c : Nat) :
    Option Double := do
  let e ← expected[x]?.bind (·[c]?)
  let o ← observed[x]?.bind (·[c]?)
  return (e - .ofInt o).abs

section Matrices

variable {rows lanes : Nat} {expected : Nat → Nat → Double} {observed : Nat → Nat → Int}

theorem errorAt_matrix {x c : Nat} (hx : x < rows) (hc : c < lanes) :
    errorAt (matrix rows lanes expected) (matrix rows lanes observed) x c =
      some (expected x c - .ofInt (observed x c)).abs := by
  rw [errorAt, getElem?_matrix expected hx hc, getElem?_matrix observed hx hc]
  rfl

theorem lt_of_errorAt_matrix {x c : Nat} {d : Double}
    (h : errorAt (matrix rows lanes expected) (matrix rows lanes observed) x c = some d) :
    x < rows ∧ c < lanes := by
  have hne : (matrix rows lanes expected)[x]?.bind (·[c]?) ≠ none := by
    intro hnone
    rw [errorAt, hnone] at h
    cases h
  by_contra hout
  apply hne
  rw [matrix]
  by_cases hx : x < rows
  · have hc : ¬ c < lanes := fun hc ↦ hout ⟨hx, hc⟩
    simp [hx, hc]
  · simp [hx]

theorem getElem?_errors {x c : Nat} (hx : x < rows) (hc : c < lanes) :
    (errors rows lanes expected observed)[x * lanes + c]? =
      errorAt (matrix rows lanes expected) (matrix rows lanes observed) x c := by
  rw [errorAt_matrix hx hc, errors, List.getElem?_map, getElem?_cells hx hc]
  rfl

theorem mem_errors_iff {d : Double} : d ∈ errors rows lanes expected observed ↔
    ∃ x < rows, ∃ c < lanes, (expected x c - .ofInt (observed x c)).abs = d := by
  rw [errors, List.mem_map]
  constructor
  · rintro ⟨⟨x, c⟩, hmem, rfl⟩
    obtain ⟨hx, hc⟩ := mem_cells.1 hmem
    exact ⟨x, hx, c, hc, rfl⟩
  · rintro ⟨x, hx, c, hc, rfl⟩
    exact ⟨(x, c), mem_cells.2 ⟨hx, hc⟩, rfl⟩

/-- The first place of a largest error, taken apart by the length of a row, is its position. -/
theorem position_of_firstGreatest {i : Nat} {best : Double}
    (h : FirstGreatest (errors rows lanes expected observed) i best) :
    i / lanes < rows ∧ i % lanes < lanes ∧
      errorAt (matrix rows lanes expected) (matrix rows lanes observed) (i / lanes) (i % lanes) =
        some best ∧
      ∀ a, Precedes a (i / lanes, i % lanes) →
        errorAt (matrix rows lanes expected) (matrix rows lanes observed) a.1 a.2 ≠ some best := by
  have hi : i < rows * lanes := by
    obtain ⟨hi, -⟩ := List.getElem?_eq_some_iff.1 h.get
    rwa [errors, List.length_map, length_cells] at hi
  have hlanes : 0 < lanes := Nat.pos_of_mul_pos_left (Nat.zero_lt_of_lt hi)
  have hx : i / lanes < rows := (Nat.div_lt_iff_lt_mul hlanes).2 hi
  have hc : i % lanes < lanes := Nat.mod_lt i hlanes
  have hsplit : i / lanes * lanes + i % lanes = i := Nat.div_add_mod' i lanes
  refine ⟨hx, hc, ?_, ?_⟩
  · rw [← getElem?_errors hx hc, hsplit]
    exact h.get
  · rintro ⟨x, c⟩ hbefore hbest
    obtain ⟨hx', hc'⟩ := lt_of_errorAt_matrix hbest
    -- an earlier position has an earlier place, whose value is smaller
    have hlt : x * lanes + c < i := by
      rcases hbefore with hrow | ⟨hrow, hlane⟩
      · have hrows := Nat.mul_le_mul_right lanes (show x + 1 ≤ i / lanes from hrow)
        rw [Nat.succ_mul] at hrows
        omega
      · dsimp only at hrow hlane
        rw [hrow]
        omega
    rw [← getElem?_errors hx' hc'] at hbest
    exact (h.lt _ hlt best hbest).false

theorem lanes?_matrix (hrows : 0 < rows) {α : Type} (f : Nat → Nat → α) :
    lanes? (matrix rows lanes f) = some lanes := by
  cases hm : matrix rows lanes f with
  | nil =>
    have hlength := (shaped_matrix f : Shaped rows lanes _).length_eq
    rw [hm, List.length_nil] at hlength
    omega
  | cons row rest =>
    have hlanes := (shaped_matrix f : Shaped rows lanes _).lanes_eq
    rw [hm] at hlanes
    obtain ⟨hrow, hrest⟩ := List.forall_mem_cons.1 hlanes
    rw [lanes?, if_pos ?_, hrow]
    exact List.all_eq_true.2 fun r hr ↦ decide_eq_true ((hrest r hr).trans hrow.symm)

theorem spread_matrix {α : Type} (f : Nat → Nat → α) :
    spread (matrix rows lanes f) rows lanes = matrix rows lanes f := by
  have hlength : (matrix rows lanes f).length = rows := (shaped_matrix f).length_eq
  have hrow : ∀ x < rows, (matrix rows lanes f)[Shape.spread (matrix rows lanes f).length x]?.map
      (fun row ↦ (List.range lanes).filterMap fun c ↦ row[Shape.spread row.length c]?) =
        some ((List.range lanes).map (f x)) := by
    intro x hx
    have hcells : ∀ c ∈ List.range lanes,
        ((List.range lanes).map (f x))[Shape.spread ((List.range lanes).map (f x)).length c]? =
          some (f x c) := by
      intro c hc
      have hc := List.mem_range.1 hc
      rw [List.length_map, List.length_range, Shape.spread_of_lt hc]
      simp [hc]
    rw [hlength, Shape.spread_of_lt hx, matrix, List.getElem?_map, List.getElem?_range hx,
      Option.map_some, Option.map_some, List.filterMap_congr hcells, List.filterMap_eq_map']
  rw [spread, List.filterMap_congr fun x hx ↦ hrow x (List.mem_range.1 hx),
    List.filterMap_eq_map']
  rfl

theorem compare_matrix (hrows : 0 < rows) (tolerance scale : Double) (zeroPoint : Int) :
    compare (matrix rows lanes expected) (matrix rows lanes observed) tolerance scale zeroPoint =
      compute (matrix rows lanes expected) (matrix rows lanes observed) tolerance scale
        zeroPoint := by
  have hlength : (matrix rows lanes expected).length = rows := (shaped_matrix expected).length_eq
  have hlength' : (matrix rows lanes observed).length = rows := (shaped_matrix observed).length_eq
  simp only [compare, hlength, hlength', Shape.common?_self, lanes?_matrix hrows, spread_matrix]

end Matrices

end Metrics

end Depthwise
