import Depthwise.Proofs.Metrics
import Depthwise.Proofs.Session.Comparison

namespace Depthwise

namespace Session

def exceeding (tolerance : Double) (expected : List (List Double)) (observed : List (List Int)) :
    List (Nat × Nat × Double × Int) :=
  (elements expected observed).filter fun (_, _, e, o) ↦ tolerance.lt (e - .ofInt o).abs

theorem firstExceeding_eq_head? (expected : List (List Double)) (observed : List (List Int)) :
    firstExceeding expected observed = (exceeding Affine.tolerance expected observed).head? := by
  rw [exceeding, List.head?_filter]
  rfl

theorem length_exceeding_matrix {rows lanes : Nat} (expected : Nat → Nat → Double)
    (observed : Nat → Nat → Int) (tolerance : Double) :
    (exceeding tolerance (matrix rows lanes expected) (matrix rows lanes observed)).length =
      ((Metrics.errors rows lanes expected observed).filter tolerance.lt).length := by
  rw [exceeding, elements_matrix, Metrics.errors]
  simp only [List.filter_map, List.length_map, Function.comp_def]

end Session

namespace Metrics

open Session (exceeding firstExceeding)

/-- Metrics that tell how far two matrices of one shape are apart: the largest distance, the first
position that has it, and how many positions are past the tolerance. -/
structure Consistent (m : Metrics) (rows lanes : Nat) (expected : List (List Double))
    (observed : List (List Int)) (tolerance : Double) : Prop where
  none_iff : m.numFailures = 0 ↔ m.maxAbsError.le tolerance = true
  failures_nonneg : 0 ≤ m.numFailures
  failures_le : m.numFailures ≤ m.totalElements
  total_eq : m.totalElements = rows * lanes
  largest : ∀ x c d, errorAt expected observed x c = some d → d.le m.maxAbsError = true
  worst : ∃ x < rows, ∃ c < lanes, m.worstPosition = ((x : Int), (c : Int)) ∧
    errorAt expected observed x c = some m.maxAbsError ∧
    ∀ a, Precedes a (x, c) → errorAt expected observed a.1 a.2 ≠ some m.maxAbsError
  failures_eq : m.numFailures = (exceeding tolerance expected observed).length

section Matrices

variable {rows lanes : Nat} {expected : Nat → Nat → Double} {observed : Nat → Nat → Int}

theorem isNaN_of_mem_errors (hexpected : ∀ x < rows, ∀ c < lanes, (expected x c).isFinite = true)
    (hobserved : ∀ x < rows, ∀ c < lanes, -2 ^ 31 ≤ observed x c ∧ observed x c < 2 ^ 31) :
    ∀ d ∈ errors rows lanes expected observed, d.isNaN = false := by
  intro d hd
  obtain ⟨x, hx, c, hc, rfl⟩ := mem_errors_iff.1 hd
  have hword := hobserved x hx c hc
  have hsmall : (observed x c).natAbs < 2 ^ 53 := by omega
  rw [Binary.isNaN_abs]
  exact Binary.isNaN_sub (hexpected x hx c hc) (Binary.toRat_ofInt_double _ hsmall).1

theorem isNegative_of_mem_errors :
    ∀ d ∈ errors rows lanes expected observed, d.isNegative = false := by
  intro d hd
  obtain ⟨x, -, c, -, rfl⟩ := mem_errors_iff.1 hd
  exact Binary.isNegative_abs _

theorem exists_consistent (hrows : 0 < rows) (hlanes : 0 < lanes)
    (hnumbers : ∀ d ∈ errors rows lanes expected observed, d.isNaN = false) {tolerance : Double}
    (htolerance : tolerance.isNaN = false) (scale : Double) (zeroPoint : Int) :
    ∃ m, compute (matrix rows lanes expected) (matrix rows lanes observed) tolerance scale
        zeroPoint = .ok m ∧
      m.Consistent rows lanes (matrix rows lanes expected) (matrix rows lanes observed)
        tolerance := by
  have hlength : (errors rows lanes expected observed).length = rows * lanes := by
    rw [errors, List.length_map, length_cells]
  have hne : errors rows lanes expected observed ≠ [] := by
    intro hnil
    rw [hnil, List.length_nil] at hlength
    exact (Nat.mul_pos hrows hlanes).ne hlength
  obtain ⟨hmem, hmax⟩ := Sample.maximum_spec hne hnumbers
  obtain ⟨hx, hc, hattained, hfirst⟩ := position_of_firstGreatest
    (firstGreatest_maximum hne hnumbers isNegative_of_mem_errors)
  refine ⟨_, compute_matrix hrows hlanes tolerance scale zeroPoint, ?_, ?_, ?_, ?_, ?_, ?_, ?_⟩
  · rw [← filter_lt_eq_nil_iff hne hnumbers htolerance, Int.natCast_eq_zero,
      List.length_eq_zero_iff]
  · exact Int.natCast_nonneg _
  · exact Int.ofNat_le.2 (List.length_filter_le _ _)
  · dsimp only
    rw [hlength, Nat.cast_mul]
  · intro x c d hd
    obtain ⟨hx, hc⟩ := lt_of_errorAt_matrix hd
    rw [← getElem?_errors hx hc] at hd
    have hd := List.mem_of_getElem? hd
    exact (Binary.le_iff_rank (hnumbers d hd) (hnumbers _ hmem)).2 (hmax d hd)
  · exact ⟨_, hx, _, hc, rfl, hattained, hfirst⟩
  · rw [Session.length_exceeding_matrix]

end Matrices

/-- The metrics of matrices of one shape, with finite expected values and 32-bit observed ones, are
consistent, and a trial with failures has a first element past the tolerance. -/
theorem compute_consistent {rows lanes : Nat} (hrows : 0 < rows) (hlanes : 0 < lanes)
    {expected : List (List Double)} {observed : List (List Int)}
    (hexpected : Shaped rows lanes expected) (hobserved : Shaped rows lanes observed)
    (hfinite : ∀ row ∈ expected, ∀ e ∈ row, e.isFinite = true)
    (hwords : ∀ row ∈ observed, ∀ o ∈ row, -2 ^ 31 ≤ o ∧ o < 2 ^ 31) {tolerance : Double}
    (htolerance : tolerance.isNaN = false) (scale : Double) (zeroPoint : Int) :
    ∃ m, compute expected observed tolerance scale zeroPoint = .ok m ∧
      compare expected observed tolerance scale zeroPoint = .ok m ∧
      m.Consistent rows lanes expected observed tolerance ∧
      (0 < m.numFailures → ∃ first, (exceeding tolerance expected observed).head? = some first) ∧
      firstExceeding expected observed = (exceeding Affine.tolerance expected observed).head? := by
  obtain ⟨e, rfl⟩ := hexpected.exists_eq_matrix .nan
  obtain ⟨o, rfl⟩ := hobserved.exists_eq_matrix 0
  have hentries {α : Type} (f : Nat → Nat → α) {x c : Nat} (hx : x < rows) (hc : c < lanes) :
      ∃ row ∈ matrix rows lanes f, f x c ∈ row :=
    ⟨_, List.mem_map.2 ⟨x, List.mem_range.2 hx, rfl⟩, List.mem_map.2 ⟨c, List.mem_range.2 hc, rfl⟩⟩
  have hnumbers : ∀ d ∈ errors rows lanes e o, d.isNaN = false := by
    refine isNaN_of_mem_errors (fun x hx c hc ↦ ?_) (fun x hx c hc ↦ ?_)
    · obtain ⟨row, hrow, hmem⟩ := hentries e hx hc
      exact hfinite row hrow _ hmem
    · obtain ⟨row, hrow, hmem⟩ := hentries o hx hc
      exact hwords row hrow _ hmem
  obtain ⟨m, hm, hconsistent⟩ :=
    exists_consistent hrows hlanes hnumbers htolerance scale zeroPoint
  refine ⟨m, hm, (compare_matrix hrows tolerance scale zeroPoint).trans hm, hconsistent, ?_,
    Session.firstExceeding_eq_head? _ _⟩
  intro hfailures
  rw [hconsistent.failures_eq] at hfailures
  cases hlist : exceeding tolerance (matrix rows lanes e) (matrix rows lanes o) with
  | nil =>
    rw [hlist] at hfailures
    exact absurd hfailures (by decide)
  | cons first rest => exact ⟨first, rfl⟩

def tiedExpected : List (List Double) := [[.ofInt 1, .ofInt 5], [.ofInt 5, .ofInt 0]]

def tiedObserved : List (List Int) := [[1, 2], [8, 0]]

theorem compute_consistent_tied :
    Shaped 2 2 tiedExpected ∧ Shaped 2 2 tiedObserved ∧
      (∀ row ∈ tiedExpected, ∀ e ∈ row, e.isFinite = true) ∧
      (∀ row ∈ tiedObserved, ∀ o ∈ row, -2 ^ 31 ≤ o ∧ o < 2 ^ 31) ∧
      Affine.tolerance.isNaN = false ∧
      ∃ m, compute tiedExpected tiedObserved Affine.tolerance (.ofInt 1) 0 = .ok m ∧
        m.Consistent 2 2 tiedExpected tiedObserved Affine.tolerance ∧
        m.numFailures = 2 ∧ m.worstPosition = (0, 1) := by
  have hexpected : Shaped 2 2 tiedExpected := ⟨rfl, by simp [tiedExpected]⟩
  have hobserved : Shaped 2 2 tiedObserved := ⟨rfl, by simp [tiedObserved]⟩
  have hfinite : ∀ row ∈ tiedExpected, ∀ e ∈ row, e.isFinite = true := by decide +kernel
  have hwords : ∀ row ∈ tiedObserved, ∀ o ∈ row, -2 ^ 31 ≤ o ∧ o < 2 ^ 31 := by
    simp [tiedObserved]
  have htolerance : Affine.tolerance.isNaN = false :=
    Binary.isNaN_of_isFinite Affine.tolerance_spec.1
  have hvalues : (compute tiedExpected tiedObserved Affine.tolerance (.ofInt 1) 0).toOption.map
      (fun m ↦ (m.numFailures, m.worstPosition)) = some (2, (0, 1)) := by decide +kernel
  obtain ⟨m, hm, -, hconsistent, -⟩ := compute_consistent (by decide) (by decide) hexpected
    hobserved hfinite hwords htolerance (.ofInt 1) 0
  rw [hm, Except.toOption, Option.map_some, Option.some.injEq, Prod.mk.injEq] at hvalues
  exact ⟨hexpected, hobserved, hfinite, hwords, htolerance, m, hm, hconsistent, hvalues⟩

end Metrics

end Depthwise
