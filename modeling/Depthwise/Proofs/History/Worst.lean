import Depthwise.Proofs.History.Bookkeeping
import Depthwise.Proofs.Metrics
import Depthwise.Proofs.Ranking.Runs

namespace Depthwise.History

open Report (Summary)

/-- The record at place `p` goes before the one at place `q`: its error is larger, or it is not
smaller and was recorded earlier. -/
def Outranks (results : List Record) (p q : Nat) : Prop :=
  ∃ a b, results[p]? = some a ∧ results[q]? = some b ∧
    (b.metrics.maxAbsError.lt a.metrics.maxAbsError = true ∨
      (a.metrics.maxAbsError.lt b.metrics.maxAbsError = false ∧ p < q))

/-- The first `count` places of a record, or all if there are not so many: they are in order, and
each goes before every place that is left out. -/
structure Foremost (results : List Record) (count : Nat) (places : List Nat) : Prop where
  length_eq : places.length = min count results.length
  lt_length : ∀ p ∈ places, p < results.length
  nodup : places.Nodup
  ordered : places.Pairwise (Outranks results)
  omitted : ∀ p ∈ places, ∀ q < results.length, q ∉ places → Outranks results p q

structure Ranked (results : List Record) (places : List Nat) : Prop where
  perm : places.Perm (List.range results.length)
  ordered : places.Pairwise (Outranks results)

variable {results : List Record} {places : List Nat}

theorem Ranked.foremost (h : Ranked results places) (count : Nat) :
    Foremost results count (places.take count) := by
  have hlength : places.length = results.length := by rw [h.perm.length_eq, List.length_range]
  have hnodup : places.Nodup := h.perm.nodup_iff.2 List.nodup_range
  refine ⟨by rw [List.length_take, hlength], fun p hp ↦ ?_, hnodup.sublist (List.take_sublist _ _),
    h.ordered.sublist (List.take_sublist _ _), fun p hp q hq hout ↦ ?_⟩
  · exact List.mem_range.1 (h.perm.mem_iff.1 (List.mem_of_mem_take hp))
  · have hmem : q ∈ places := h.perm.mem_iff.2 (List.mem_range.2 hq)
    rw [← List.take_append_drop count places, List.mem_append, or_iff_right hout] at hmem
    exact h.ordered.rel_of_mem_take_of_mem_drop hp hmem

section Numbers

variable (hnumbers : ∀ r ∈ results, r.metrics.maxAbsError.isNaN = false)

include hnumbers

theorem orderedBy_rank : Ranking.OrderedBy (·.metrics.maxAbsError.rank) milder results :=
  fun a ha b hb ↦ Binary.lt_iff_rank (hnumbers a ha) (hnumbers b hb)

theorem worstFirst_eq {h : History} (hresults : h.results.toList = results) :
    h.worstFirst = results.mergeSort
      fun a b ↦ decide (b.metrics.maxAbsError.rank ≤ a.metrics.maxAbsError.rank) := by
  rw [worstFirst, hresults]
  exact Ranking.sortDown_eq_mergeSort (orderedBy_rank hnumbers)

/-- The stable sort of the records is a ranking of their places. -/
theorem exists_ranked {h : History} (hresults : h.results.toList = results) :
    ∃ places, Ranked results places ∧ h.worstFirst.map some = places.map (results[·]?) := by
  rw [worstFirst_eq hnumbers hresults]
  set le : Record → Record → Bool := fun a b ↦
    decide (b.metrics.maxAbsError.rank ≤ a.metrics.maxAbsError.rank) with hle
  -- each record is sorted together with its place, which decides between equal errors
  set sorted := results.zipIdx.mergeSort (List.zipIdxLE le)
  have hperm : sorted.Perm results.zipIdx := List.mergeSort_perm _ _
  have hget : ∀ e ∈ sorted, results[e.2]? = some e.1 := fun e he ↦
    List.mk_mem_zipIdx_iff_getElem?.1 (hperm.mem_iff.1 he)
  have hplaces : (sorted.map Prod.snd).Perm (List.range results.length) := by
    have hmap := hperm.map Prod.snd
    rwa [List.zipIdx_map_snd, ← List.range_eq_range'] at hmap
  have hnodup : sorted.Pairwise fun e f ↦ e.2 ≠ f.2 :=
    List.pairwise_map.1 (hplaces.nodup_iff.2 List.nodup_range)
  have hsorted : sorted.Pairwise fun e f ↦ List.zipIdxLE le e f = true := by
    refine List.pairwise_mergeSort (List.zipIdxLE_trans fun a b c hab hbc ↦ ?_)
      (List.zipIdxLE_total fun a b ↦ ?_) _
    · simp only [hle, decide_eq_true_eq] at hab hbc ⊢
      exact hbc.trans hab
    · simpa only [hle, Bool.or_eq_true, decide_eq_true_eq] using le_total _ _
  refine ⟨sorted.map Prod.snd, ⟨hplaces, ?_⟩, ?_⟩
  · rw [List.pairwise_map]
    refine (hsorted.and hnodup).imp_of_mem fun {e f} he hf hef ↦ ?_
    obtain ⟨hLE, hne⟩ := hef
    have he' := hnumbers e.1 (List.mem_of_getElem? (hget e he))
    have hf' := hnumbers f.1 (List.mem_of_getElem? (hget f hf))
    refine ⟨e.1, f.1, hget e he, hget f hf, ?_⟩
    rw [← Bool.not_eq_true, Binary.lt_iff_rank hf' he', Binary.lt_iff_rank he' hf', not_lt]
    simp only [List.zipIdxLE, hle, decide_eq_true_eq] at hLE
    split_ifs at hLE with hfe hef
    · exact .inr ⟨hfe, lt_of_le_of_ne (of_decide_eq_true hLE) hne⟩
    · exact .inl (not_le.1 hef)
  · rw [← List.mergeSort_zipIdx, List.map_map, List.map_map]
    exact List.map_congr_left fun e he ↦ (hget e he).symm

/-- The first place of a ranking holds an error that no other one exceeds. -/
theorem Foremost.head_greatest {count : Nat} (h : Foremost results count places)
    (hcount : 0 < count) (hne : results ≠ []) :
    ∃ worst ∈ results, (places.map (results[·]?)).head? = some (some worst) ∧
      ∀ r ∈ results, r.metrics.maxAbsError.rank ≤ worst.metrics.maxAbsError.rank := by
  have hpos : 0 < results.length := List.length_pos_iff.2 hne
  have hlength := h.length_eq
  cases places with
  | nil =>
    rw [List.length_nil] at hlength
    omega
  | cons p rest =>
    have hp : p < results.length := h.lt_length p List.mem_cons_self
    have hget : results[p]? = some results[p] := List.getElem?_eq_getElem hp
    refine ⟨results[p], List.getElem_mem hp, ?_, fun r hr ↦ ?_⟩
    · rw [List.map_cons, List.head?_cons, hget]
    · obtain ⟨q, hq, rfl⟩ := List.getElem_of_mem hr
      rcases eq_or_ne q p with rfl | hqp
      · exact le_rfl
      have hbefore : Outranks results p q := by
        by_cases hin : q ∈ p :: rest
        · exact List.rel_of_pairwise_cons h.ordered (List.mem_of_ne_of_mem hqp hin)
        · exact h.omitted p List.mem_cons_self q hq hin
      obtain ⟨a, b, ha, hb, hab⟩ := hbefore
      obtain rfl : results[p] = a := Option.some.inj (hget.symm.trans ha)
      obtain rfl : results[q] = b :=
        Option.some.inj ((List.getElem?_eq_getElem hq).symm.trans hb)
      have hp' := hnumbers _ (List.getElem_mem hp)
      have hq' := hnumbers _ (List.getElem_mem hq)
      rcases hab with hlt | ⟨hnot, -⟩
      · exact ((Binary.lt_iff_rank hq' hp').1 hlt).le
      · rw [← Bool.not_eq_true, Binary.lt_iff_rank hp' hq'] at hnot
        exact not_lt.1 hnot

theorem exists_foremost {h : History} (hresults : h.results.toList = results) {count : Int}
    (hcount : 0 ≤ count) : ∃ places, Foremost results count.toNat places ∧
      (h.worstCases count).map some = places.map (results[·]?) := by
  obtain ⟨places, hranked, hsort⟩ := exists_ranked hnumbers hresults
  obtain ⟨n, rfl⟩ := Int.eq_ofNat_of_zero_le hcount
  refine ⟨places.take n, hranked.foremost n, ?_⟩
  rw [worstCases, Buffer.front, Buffer.bound_natCast, ← List.take_eq_take_min, List.map_take,
    hsort, List.map_take]

/-- A record whose error no other one exceeds has the maximum of the errors, up to the sign of a
zero. -/
theorem greatest_eq_maximum {worst : Record} (hworst : worst ∈ results)
    (hle : ∀ r ∈ results, r.metrics.maxAbsError.rank ≤ worst.metrics.maxAbsError.rank) :
    worst.metrics.maxAbsError.rank =
        (Sample.maximum (results.map (·.metrics.maxAbsError))).rank ∧
      ((∀ r ∈ results, r.metrics.maxAbsError.isNegative = false) →
        worst.metrics.maxAbsError = Sample.maximum (results.map (·.metrics.maxAbsError))) := by
  have herrors : ∀ x ∈ results.map (·.metrics.maxAbsError), x.isNaN = false :=
    List.forall_mem_map.2 hnumbers
  obtain ⟨hmem, hmax⟩ := Sample.maximum_spec (by simpa using List.ne_nil_of_mem hworst) herrors
  obtain ⟨r, hr, hmaximum⟩ := List.mem_map.1 hmem
  rw [← hmaximum] at hmax ⊢
  have hrank : worst.metrics.maxAbsError.rank = r.metrics.maxAbsError.rank :=
    le_antisymm (hmax _ (List.mem_map_of_mem hworst)) (hle r hr)
  exact ⟨hrank, fun hsigns ↦ Binary.eq_of_rank_eq (hnumbers _ hworst) (hnumbers r hr)
    (hsigns _ hworst) (hsigns r hr) hrank⟩

end Numbers

theorem maxErrors_of_ofHistory {h : History} {s : Summary}
    (hs : Summary.ofHistory h = .ok (some s)) :
    s.maxErrors = .ofErrors (h.metrics.toList.map (·.maxAbsError)) := by
  rw [Summary.ofHistory] at hs
  split_ifs at hs with hempty
  · cases hs
  · dsimp only at hs
    rcases hrates : h.metrics.toList.mapM Summary.rate with e | rates <;> rw [hrates] at hs <;>
      cases hs
    rfl

theorem kept_recorded (trials : List Submission) : Kept trials (recorded trials) := by
  obtain ⟨h, hrun, hkept⟩ := kept_nil.recordAll trials
  rw [recorded, hrun]
  exact hkept

/-- The worst cases after any sequence of trials whose errors are numbers: the foremost of the
stored ones. If all trials have elements, either some share of failed elements is past the largest
number, and there is no summary, or the first of the worst cases has the largest error that the
summary finds. -/
theorem worstCases_foremost (trials : List Submission)
    (hnumbers : ∀ t ∈ trials, t.isStored = true → t.metrics.maxAbsError.isNaN = false) (count : Int)
    (hcount : 0 ≤ count) :
    (recorded trials).results.toList = (trials.filter (·.isStored)).map (·.result) ∧
    (∃ places, Foremost (recorded trials).results.toList count.toNat places ∧
      ((recorded trials).worstCases count).map some =
        places.map ((recorded trials).results.toList[·]?)) ∧
    (1 ≤ count → trials ≠ [] → (∀ t ∈ trials, 0 < t.metrics.totalElements) →
      ((∃ t ∈ trials, t.isStored = false) ∧
        Summary.ofHistory (recorded trials) = .error .overflow) ∨
      ∃ worst s, ((recorded trials).worstCases count).head? = some worst ∧
        Summary.ofHistory (recorded trials) = .ok (some s) ∧
        worst.metrics.maxAbsError.rank = s.maxErrors.max.rank ∧
        ((∀ t ∈ trials, t.metrics.maxAbsError.isNegative = false) →
          worst.metrics.maxAbsError = s.maxErrors.max)) := by
  have hkept := kept_recorded trials
  set h := recorded trials
  have hresults : ∀ r ∈ h.results.toList, r.metrics.maxAbsError.isNaN = false := by
    rw [hkept.results_eq]
    intro r hr
    obtain ⟨t, ht, rfl⟩ := List.mem_map.1 hr
    obtain ⟨htrial, hstored⟩ := List.mem_filter.1 ht
    exact hnumbers t htrial hstored
  obtain ⟨places, hforemost, hworst⟩ := exists_foremost hresults rfl hcount
  refine ⟨hkept.results_eq, ⟨places, hforemost, hworst⟩, fun hone hne hpos ↦ ?_⟩
  have htallied := hkept.tallied hpos
  -- a trial that is not stored leaves the summary without a finite rate
  by_cases hall : ∀ t ∈ trials, t.isStored = true
  · right
    obtain ⟨s, hs, -⟩ := htallied.totals hne hall
    have hall' := hkept.results_of_stored hall
    have hmaximum : s.maxErrors.max =
        Sample.maximum (h.results.toList.map (·.metrics.maxAbsError)) := by
      rw [maxErrors_of_ofHistory hs, hkept.metrics_eq, hall', List.map_map, List.map_map]
      rfl
    obtain ⟨worst, hmem, hhead, hle⟩ := hforemost.head_greatest hresults (by omega)
      (by simpa [hall'] using hne)
    rw [← hworst, List.head?_map, Option.map_eq_some_iff] at hhead
    obtain ⟨_, hhead, ⟨⟩⟩ := hhead
    obtain ⟨hrank, hsame⟩ := greatest_eq_maximum hresults hmem hle
    rw [← hmaximum] at hrank hsame
    refine ⟨worst, s, hhead, hs, hrank, fun hsigns ↦ hsame ?_⟩
    rw [hall']
    exact List.forall_mem_map.2 hsigns
  · left
    obtain ⟨t, ht, hunstored⟩ : ∃ t ∈ trials, t.isStored = false := by simpa using hall
    exact ⟨⟨t, ht, hunstored⟩, htallied.overflow ⟨t, ht, hunstored⟩⟩

def erringTrial (place error : Int) : Submission where
  metrics :=
    { (trialOf 0 none).metrics with maxAbsError := .ofInt error, worstPosition := (place, 0) }
  origin? := none

def tiedTrials : List Submission :=
  [erringTrial 0 2, erringTrial 1 3, erringTrial 2 2, erringTrial 3 3, erringTrial 4 1]

theorem worstCases_foremost_tied :
    (∃ places, Foremost (recorded tiedTrials).results.toList 3 places ∧
      ((recorded tiedTrials).worstCases 3).map some =
        places.map ((recorded tiedTrials).results.toList[·]?)) ∧
    ∃ worst s, ((recorded tiedTrials).worstCases 3).head? = some worst ∧
      Summary.ofHistory (recorded tiedTrials) = .ok (some s) ∧
      worst.metrics.maxAbsError = s.maxErrors.max := by
  have hnumbers : ∀ t ∈ tiedTrials, t.isStored = true → t.metrics.maxAbsError.isNaN = false := by
    decide +kernel
  have hstored : ∀ t ∈ tiedTrials, t.isStored = true := by decide +kernel
  have hsigns : ∀ t ∈ tiedTrials, t.metrics.maxAbsError.isNegative = false := by decide +kernel
  obtain ⟨-, hforemost, hhead⟩ := worstCases_foremost tiedTrials hnumbers 3 (by decide)
  refine ⟨hforemost, ?_⟩
  rcases hhead (by decide) (List.cons_ne_nil _ _) (by decide) with ⟨⟨t, ht, hnot⟩, -⟩ | hhead
  · rw [hstored t ht] at hnot
    cases hnot
  · obtain ⟨worst, s, hworst, hs, -, hsame⟩ := hhead
    exact ⟨worst, s, hworst, hs, hsame hsigns⟩

end Depthwise.History
