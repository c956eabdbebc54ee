import Depthwise.Proofs.Binary.Error
import Depthwise.Proofs.Computations
import Depthwise.Proofs.Matrix
import Depthwise.Report.Summary

namespace Depthwise

open Binary

namespace Metrics

variable {rows lanes : Nat} {expected : Nat → Nat → Double} {observed : Nat → Nat → Int}

theorem absErrors_matrix : absErrors (matrix rows lanes expected) (matrix rows lanes observed) =
    matrix rows lanes fun x c ↦ (expected x c - .ofInt (observed x c)).abs := by
  simp only [absErrors, matrix, List.zipWith_map, List.zipWith_self]

def errors (rows lanes : Nat) (expected : Nat → Nat → Double) (observed : Nat → Nat → Int) :
    List Double :=
  (cells rows lanes).map fun a ↦ (expected a.1 a.2 - .ofInt (observed a.1 a.2)).abs

theorem compute_matrix (hrows : 0 < rows) (hlanes : 0 < lanes) (tolerance scale : Double)
    (zeroPoint : Int) :
    compute (matrix rows lanes expected) (matrix rows lanes observed) tolerance scale zeroPoint =
      .ok {
        maxAbsError := Sample.maximum (errors rows lanes expected observed)
        meanAbsError := Sample.mean (errors rows lanes expected observed)
        numFailures := ((errors rows lanes expected observed).filter tolerance.lt).length
        totalElements := (errors rows lanes expected observed).length
        worstPosition := (((worstIndex (errors rows lanes expected observed) / lanes : Nat) : Int),
          ((worstIndex (errors rows lanes expected observed) % lanes : Nat) : Int))
        scale
        zeroPoint } := by
  have hmem : (0, 0) ∈ cells rows lanes := mem_cells.2 ⟨hrows, hlanes⟩
  have hne : errors rows lanes expected observed ≠ [] := by
    simpa [errors] using List.ne_nil_of_mem hmem
  have hcolumns : ((matrix rows lanes fun x c ↦
      (expected x c - .ofInt (observed x c)).abs).headD []).length = lanes := by
    obtain ⟨rows, rfl⟩ := Nat.exists_eq_succ_of_ne_zero hrows.ne'
    rw [matrix, List.range_succ_eq_map, List.map_cons, List.headD_cons, List.length_map,
      List.length_range]
  rw [compute, absErrors_matrix, flatten_matrix, hcolumns]
  exact if_neg hne

theorem compute_ok (hrows : 0 < rows) (hlanes : 0 < lanes) (tolerance scale : Double)
    (zeroPoint : Int) :
    ∃ m, compute (matrix rows lanes expected) (matrix rows lanes observed) tolerance scale
        zeroPoint = .ok m ∧ m.totalElements = (cells rows lanes).length ∧
      m.numFailures = ((cells rows lanes).filter fun a ↦
        tolerance.lt (expected a.1 a.2 - .ofInt (observed a.1 a.2)).abs).length := by
  refine ⟨_, compute_matrix hrows hlanes tolerance scale zeroPoint, ?_, ?_⟩
  · simp only [errors, List.length_map]
  · simp only [errors, List.filter_map, List.length_map, Function.comp_def]

structure Counted (m : Metrics) : Prop where
  total_pos : 0 < m.totalElements
  failures_nonneg : 0 ≤ m.numFailures
  failures_le : m.numFailures ≤ m.totalElements

theorem compute_spec {expected : List (List Double)} {observed : List (List Int)}
    {tolerance scale : Double} {zeroPoint : Int} {m : Metrics}
    (h : compute expected observed tolerance scale zeroPoint = .ok m) :
    m.Counted ∧
      m.numFailures = ((absErrors expected observed).flatten.filter tolerance.lt).length := by
  rw [compute] at h
  split_ifs at h with hne
  cases h
  have hpos := List.length_pos_iff.2 hne
  have hle := List.length_filter_le tolerance.lt (absErrors expected observed).flatten
  exact ⟨⟨Int.natCast_pos.2 hpos, Int.natCast_nonneg _, Int.ofNat_le.2 hle⟩, rfl⟩

variable {m : Metrics} (h : m.Counted)

include h

theorem Counted.failureRate_eq : m.failureRate = .ofRatio m.numFailures m.totalElements :=
  if_pos h.total_pos

theorem Counted.isFinite_failureRate : m.failureRate.isFinite = true := by
  have hshare : |(m.numFailures : Rat) / m.totalElements| ≤ 1 := by
    have hpos : (0 : Rat) < m.totalElements := by exact_mod_cast h.total_pos
    have hnonneg : (0 : Rat) ≤ m.numFailures := by exact_mod_cast h.failures_nonneg
    have hle : (m.numFailures : Rat) ≤ m.totalElements := by exact_mod_cast h.failures_le
    rw [abs_of_nonneg (div_nonneg hnonneg hpos.le), div_le_one hpos]
    exact hle
  rw [h.failureRate_eq]
  rw [← rat_abs_eq] at hshare
  refine (roundMagnitude_spec (by rw [rat_abs_eq]; exact abs_nonneg _) ?_ _).1
  refine hshare.trans_lt (lt_limit_of_bits ?_ (by decide))
  norm_num [Format.double]

theorem Counted.passed_eq_true_iff : m.passed = true ↔ ¬ 0 < m.numFailures := by
  rw [passed, beq_iff_eq]
  exact ⟨fun hzero ↦ by omega, fun hnot ↦ le_antisymm (not_lt.1 hnot) h.failures_nonneg⟩

end Metrics

namespace History

def enter (h : History) (m : Metrics) (info : List (String × Report.Value))
    (config : String) : History :=
  (({ h with metrics := h.metrics.push m } : History).addResult ⟨m, info, m.passed⟩).addToGroup m
    (.text config)

section Records

variable {m : Metrics} {info : List (String × Report.Value)} {config : String} {h : History}

theorem record_ok (hm : m.Counted) (hconfig : info.lookup "config" = some (.text config))
    (h : History) : (record m info).run.run h = (.ok (), h.enter m info config) := by
  simp only [record, hm.isFinite_failureRate, hconfig, Report.Value.isComposite]
  rfl

theorem results_enter : (h.enter m info config).results.toList =
    h.results.toList ++ [⟨m, info, m.passed⟩] := Array.toList_push

/-- A history whose summary can be told from its records: one for each trial, all with elements. -/
structure Collected (h : History) : Prop where
  metrics_eq : h.metrics.toList = h.results.toList.map (·.metrics)
  counted : ∀ m ∈ h.metrics.toList, m.Counted

theorem collected_empty : ({} : History).Collected := ⟨rfl, by simp⟩

theorem Collected.enter (hh : h.Collected) (hm : m.Counted) :
    (h.enter m info config).Collected := by
  have hmetrics : (h.enter m info config).metrics.toList = h.metrics.toList ++ [m] :=
    Array.toList_push
  refine ⟨?_, fun m' hm' ↦ ?_⟩
  · rw [hmetrics, results_enter, hh.metrics_eq, List.map_append, List.map_singleton]
  · rw [hmetrics, List.mem_append, List.mem_singleton] at hm'
    rcases hm' with hm' | rfl
    · exact hh.counted m' hm'
    · exact hm

end Records

end History

namespace Report.Summary

variable {h : History}

theorem rate_eq_bounded {m : Metrics} (hm : 0 < m.totalElements) :
    rate m = bounded m.failureRate := by
  rw [rate, ofRatio?, if_neg hm.ne', Metrics.failureRate, if_pos hm]

theorem rate_eq {m : Metrics} (hm : m.Counted) : rate m = .ok m.failureRate := by
  rw [rate_eq_bounded hm.total_pos, bounded, if_pos hm.isFinite_failureRate]

/-- A history whose trials all have a share of failed elements has a summary. -/
theorem ofHistory_of_rates {rates : List Double} (hne : h.metrics.toList ≠ [])
    (hrates : h.metrics.toList.mapM rate = .ok rates) :
    ∃ s, ofHistory h = .ok (some s) ∧ s.totalTests = h.metrics.toList.length ∧
      s.totalPassed = s.totalTests - s.totalFailed ∧
      s.totalFailed = h.results.toList.countP (!·.passed) := by
  have hsome : ¬ h.metrics.isEmpty = true := by simpa using hne
  rw [ofHistory, if_neg hsome]
  dsimp only
  rw [hrates]
  exact ⟨_, rfl, rfl, rfl, List.countP_eq_length_filter.symm⟩

/-- The summary of a history counts its records. -/
theorem ofHistory_collected (hh : h.Collected) :
    ∃ summary?, ofHistory h = .ok summary? ∧ (summary? = none ↔ h.results.toList = []) ∧
      ∀ summary ∈ summary?, summary.totalPassed = h.results.toList.countP (·.passed) ∧
        summary.totalFailed = h.results.toList.countP (!·.passed) := by
  have hlength : h.metrics.toList.length = h.results.toList.length := by
    rw [hh.metrics_eq, List.length_map]
  have hrates : h.metrics.toList.mapM rate = .ok (h.metrics.toList.map (·.failureRate)) :=
    mapM_ok fun m hm ↦ rate_eq (hh.counted m hm)
  have hempty : h.metrics.toList = [] ↔ h.results.toList = [] := by
    rw [← List.length_eq_zero_iff, hlength, List.length_eq_zero_iff]
  by_cases hnone : h.metrics.toList = []
  · refine ⟨none, ?_, iff_of_true rfl (hempty.1 hnone), by simp⟩
    rw [ofHistory, if_pos (by simpa using hnone)]
    rfl
  · obtain ⟨s, hs, htotal, hpassed, hfailed⟩ := ofHistory_of_rates hnone hrates
    refine ⟨some s, hs, iff_of_false (by simp) (mt hempty.2 hnone), ?_⟩
    rintro _ ⟨⟩
    refine ⟨?_, hfailed⟩
    rw [hpassed, htotal, hfailed, hlength,
      List.length_eq_countP_add_countP (fun r : Record ↦ r.passed)]
    simp only [Bool.not_eq_true, Bool.decide_eq_false, Nat.add_sub_cancel_right]

end Report.Summary

end Depthwise
