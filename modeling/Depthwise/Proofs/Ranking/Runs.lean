import Depthwise.Proofs.Ranking.Merge
import Depthwise.Ranking.Runs
import Mathlib.Data.List.Chain

namespace Depthwise.Ranking

variable {α κ : Type} [LinearOrder κ] {key : α → κ} {before : α → α → Bool} {xs ys all : List α}

section Cutting

theorem follow_append (falling : Bool) (x : α) (xs : List α) :
    (follow before falling x xs).1 ++ (follow before falling x xs).2 = xs := by
  fun_induction follow before falling x xs with
  | case1 => rfl
  | case2 x y rest hy run others hfollow ih =>
    rw [hfollow] at ih
    exact congrArg (y :: ·) ih
  | case3 => rfl

theorem follow_isChain (falling : Bool) (x : α) (xs : List α) :
    (x :: (follow before falling x xs).1).IsChain fun a b ↦ before b a = falling := by
  fun_induction follow before falling x xs with
  | case1 => exact List.isChain_singleton _
  | case2 x y rest hy run others hfollow ih =>
    rw [hfollow] at ih
    exact List.isChain_cons_cons.2 ⟨hy, ih⟩
  | case3 => exact List.isChain_singleton _

theorem pairwise_of_isChain {r : α → α → Prop} (hr : ∀ a b c, r a b → r b c → r a c)
    (h : xs.IsChain r) : xs.Pairwise r := by
  have : Trans r r r := ⟨fun {a b c} ↦ hr a b c⟩
  exact h.pairwise

theorem cutRun_spec (hbefore : OrderedBy key before xs) : Sorted key (cutRun before xs).1 ∧
    Stable key xs ((cutRun before xs).1 ++ (cutRun before xs).2) := by
  unfold cutRun
  split
  · exact ⟨List.Pairwise.nil, .refl _⟩
  · exact ⟨List.pairwise_singleton _ _, .refl _⟩
  · next x y rest =>
    dsimp only
    have happend : x :: y :: rest = (x :: y :: (follow before (before y x) y rest).1) ++
        (follow before (before y x) y rest).2 := by
      rw [List.cons_append, List.cons_append, follow_append]
    have hchain : (x :: y :: (follow before (before y x) y rest).1).IsChain
        fun a b ↦ before b a = before y x :=
      List.isChain_cons_cons.2 ⟨rfl, follow_isChain _ y rest⟩
    have hrun : OrderedBy key before (x :: y :: (follow before (before y x) y rest).1) :=
      hbefore.mono (happend ▸ List.subset_append_left _ _)
    rw [happend]
    generalize x :: y :: (follow before (before y x) y rest).1 = run at *
    generalize before y x = falling at *
    cases falling with
    | true =>
      -- no key comes twice in a falling run, so turning it around is stable
      have hfalling : run.Pairwise fun a b ↦ key b < key a :=
        pairwise_of_isChain (fun _ _ _ hab hbc ↦ hbc.trans hab)
          (hchain.imp_of_mem_imp fun a b ha hb ↦ (hrun b hb a ha).1)
      exact ⟨List.pairwise_reverse.2 (hfalling.imp le_of_lt),
        .append (stable_reverse (hfalling.imp ne_of_gt)).symm (.refl _)⟩
    | false =>
      have hrising : Sorted key run := pairwise_of_isChain (fun _ _ _ ↦ le_trans)
        (hchain.imp_of_mem_imp fun a b ha hb hnot ↦ by
          rw [← not_lt, ← hrun b hb a ha, hnot]
          exact Bool.false_ne_true)
      exact ⟨hrising, .refl _⟩

theorem length_cutRun (x : α) (xs : List α) :
    (cutRun before (x :: xs)).2.length ≤ xs.length := by
  cases xs with
  | nil => exact le_rfl
  | cons y rest =>
    have hlength := congrArg List.length (@follow_append α before (before y x) y rest)
    rw [List.length_append] at hlength
    simp only [cutRun, List.length_cons]
    omega

end Cutting

section Filling

/-- A sorted list takes an element behind those whose keys are no larger. -/
theorem insertInto_spec {x : α} (hbefore : OrderedBy key before (xs ++ [x])) (hx : Sorted key xs) :
    Sorted key (insertInto before xs x) ∧ Stable key (xs ++ [x]) (insertInto before xs x) := by
  have hfirst (a : α) (ha : a ∈ xs) : (!before x a) = true ↔ key a ≤ key x := by
    rw [Bool.not_eq_true', ← Bool.not_eq_true,
      hbefore x (List.mem_append_right _ (List.mem_singleton_self x)) a
        (List.mem_append_left _ ha), not_lt]
  have hboundary :=
    boundary_bisect_length .front (hx.pairwise_of_below (· ≤ key x) (fun _ _ ↦ le_trans) hfirst)
  unfold insertInto
  dsimp only
  generalize bisect .front (fun i ↦ xs[i]?.any (!before x ·)) 0 xs.length = place at *
  obtain ⟨htake, hdrop⟩ := hboundary.split_keys (· ≤ key x) hfirst
  rw [← List.take_append_drop place xs] at hx
  obtain ⟨hfront, hback, hcross⟩ := List.pairwise_append.1 hx
  constructor
  · refine List.pairwise_append.2
      ⟨hfront, List.pairwise_cons.2 ⟨fun a ha ↦ (not_le.1 (hdrop a ha)).le, hback⟩, ?_⟩
    intro a ha b hb
    rcases List.mem_cons.1 hb with rfl | hb
    · exact htake a ha
    · exact hcross a ha b hb
  · have hswap : Stable key (xs.drop place ++ [x]) ([x] ++ xs.drop place) :=
      .swap fun a ha b hb ↦ by
        rw [List.mem_singleton.1 hb]
        exact (not_le.1 (hdrop a ha)).ne'
    have hstable := (Stable.refl (xs.take place)).append hswap
    rwa [← List.append_assoc, List.take_append_drop] at hstable

theorem foldl_insertInto (hbefore : OrderedBy key before (xs ++ ys)) (hx : Sorted key xs) :
    Sorted key (ys.foldl (insertInto before) xs) ∧
      Stable key (xs ++ ys) (ys.foldl (insertInto before) xs) := by
  induction ys generalizing xs with
  | nil => exact ⟨hx, by rw [List.append_nil]; exact .refl _⟩
  | cons y ys ih =>
    rw [List.append_cons] at hbefore ⊢
    obtain ⟨hsorted, hstable⟩ :=
      insertInto_spec (hbefore.mono (List.subset_append_left _ _)) hx
    have hinserted := hstable.append (.refl ys)
    obtain ⟨hsorted', hstable'⟩ := ih (hbefore.mono fun a ↦ hinserted.mem_iff.2) hsorted
    exact ⟨hsorted', hinserted.trans hstable'⟩

theorem runs_spec (least : Nat) {fuel : Nat} (hbefore : OrderedBy key before xs)
    (hfuel : xs.length ≤ fuel) : (∀ run ∈ runs before least fuel xs, Sorted key run) ∧
      Stable key xs (runs before least fuel xs).flatten := by
  induction fuel generalizing xs with
  | zero =>
    obtain rfl : xs = [] := List.length_eq_zero_iff.1 (Nat.le_zero.1 hfuel)
    exact ⟨fun run hrun ↦ absurd hrun List.not_mem_nil, .refl _⟩
  | succ fuel ih =>
    cases xs with
    | nil => exact ⟨fun run hrun ↦ absurd hrun List.not_mem_nil, .refl _⟩
    | cons x xs =>
      obtain ⟨hsorted, hstable⟩ := cutRun_spec hbefore
      have hlength := @length_cutRun α before x xs
      rw [runs]
      dsimp only
      rw [if_neg (by simp)]
      generalize (cutRun before (x :: xs)).1 = run at *
      generalize (cutRun before (x :: xs)).2 = others at *
      generalize least - run.length = missing
      have htake_drop : others.take missing ++ others.drop missing = others :=
        List.take_append_drop _ _
      rw [← htake_drop, ← List.append_assoc] at hstable
      have hordered := hbefore.mono fun a ↦ hstable.mem_iff.2
      obtain ⟨hfilled, hstable_filled⟩ :=
        foldl_insertInto (hordered.mono (List.subset_append_left _ _)) hsorted
      -- at least one element went into this run
      obtain ⟨hruns, hstable_runs⟩ := ih (hordered.mono (List.subset_append_right _ _)) (by
        rw [List.length_drop]
        rw [List.length_cons] at hfuel
        omega)
      refine ⟨fun r hr ↦ ?_, ?_⟩
      · rcases List.mem_cons.1 hr with rfl | hr
        · exact hfilled
        · exact hruns r hr
      · rw [List.flatten_cons]
        exact hstable.trans (.append hstable_filled hstable_runs)

end Filling

def laidOut (pending : List (Pending α)) : List α := (pending.reverse.map (·.items)).flatten

theorem laidOut_cons (p : Pending α) (pending : List (Pending α)) :
    laidOut (p :: pending) = laidOut pending ++ p.items := by
  simp [laidOut]

theorem laidOut_append (front rest : List (Pending α)) :
    laidOut (front ++ rest) = laidOut rest ++ laidOut front := by
  simp [laidOut]

/-- The waiting runs are sorted and, laid out in order, a stable rearrangement of `all`. -/
structure Waiting (key : α → κ) (all : List α) (pending : List (Pending α)) : Prop where
  sorted : ∀ p ∈ pending, Sorted key p.items
  stable : Stable key all (laidOut pending)

namespace Waiting

variable {pending rest : List (Pending α)}

theorem cons (h : Waiting key all pending) {run : List α} (hrun : Sorted key run)
    (start depth : Nat) : Waiting key (all ++ run) (⟨run, start, depth⟩ :: pending) := by
  refine ⟨List.forall_mem_cons.2 ⟨hrun, h.sorted⟩, ?_⟩
  rw [laidOut_cons]
  exact h.stable.append (.refl _)

theorem withDepth {last : Pending α} (h : Waiting key all (last :: rest)) (depth : Nat) :
    Waiting key all ({ last with depth } :: rest) := by
  have hstable := h.stable
  rw [laidOut_cons] at hstable
  refine ⟨List.forall_mem_cons.2 (List.forall_mem_cons.1 h.sorted), ?_⟩
  rwa [laidOut_cons]

/-- Two neighbours are merged, whatever waits around them. -/
theorem merge {last previous : Pending α} (front : List (Pending α)) (patience : Nat)
    (h : Waiting key all (front ++ last :: previous :: rest))
    (hbefore : OrderedBy key before all) :
    Waiting key all (front ++
      { previous with items := (mergeRuns before patience previous.items last.items).1 } ::
        rest) := by
  obtain ⟨hsorted, hstable⟩ := h
  rw [laidOut_append, laidOut_cons, laidOut_cons, List.append_assoc (laidOut rest)] at hstable
  have hsub : previous.items ++ last.items ⊆ all := fun a ha ↦ hstable.mem_iff.2
    (List.mem_append_left _ (List.mem_append_right _ ha))
  rw [List.forall_mem_append, List.forall_mem_cons, List.forall_mem_cons] at hsorted
  obtain ⟨hfront, hlast, hprevious, hrest⟩ := hsorted
  obtain ⟨hmerged, hmerged_stable⟩ :=
    mergeRuns_spec patience (hbefore.mono hsub) hprevious hlast
  refine ⟨List.forall_mem_append.2 ⟨hfront, List.forall_mem_cons.2 ⟨hmerged, hrest⟩⟩, ?_⟩
  rw [laidOut_append, laidOut_cons]
  exact hstable.trans (.append (.append (.refl _) hmerged_stable) (.refl _))

end Waiting

namespace Stack

variable {s : Stack α}

theorem waiting_mergeDeeper (h : Waiting key all s.pending) (hbefore : OrderedBy key before all)
    (depth fuel : Nat) : Waiting key all (mergeDeeper before depth fuel s).pending := by
  fun_induction mergeDeeper before depth fuel s with
  | case1 s => exact h
  | case2 fuel s last previous rest hpending hdepth items patience hmerge ih =>
    rw [hpending] at h
    have hmerged := Waiting.merge [] s.patience h hbefore
    rw [hmerge] at hmerged
    exact ih hmerged
  | case3 fuel s last previous rest hpending hdepth => exact h
  | case4 fuel s hshort => exact h

theorem length_mergeDeeper (depth fuel : Nat) (s : Stack α) :
    (mergeDeeper before depth fuel s).pending.length ≤ s.pending.length := by
  fun_induction mergeDeeper before depth fuel s with
  | case1 s => exact le_rfl
  | case2 fuel s last previous rest hpending hdepth items patience hmerge ih =>
    rw [hpending]
    exact ih.trans (Nat.le_succ _)
  | case3 fuel s last previous rest hpending hdepth => exact le_rfl
  | case4 fuel s hshort => exact le_rfl

theorem waiting_push (h : Waiting key all s.pending) {run : List α} (hrun : Sorted key run)
    (hbefore : OrderedBy key before all) (size : Nat) :
    Waiting key (all ++ run) (push before size s run).pending ∧
      (push before size s run).pending.length ≤ s.pending.length + 1 := by
  unfold push
  split
  · next hnone =>
    rw [hnone] at h ⊢
    exact ⟨h.cons hrun 0 0, le_rfl⟩
  · next last rest hpending =>
    dsimp only
    generalize depthOf size size _ _ = depth
    have hdeeper := waiting_mergeDeeper h hbefore depth s.pending.length
    have hlength := @length_mergeDeeper α before depth s.pending.length s
    split
    · next hnone =>
      rw [hnone] at hdeeper
      exact ⟨hdeeper.cons hrun 0 0, Nat.succ_le_succ (Nat.zero_le _)⟩
    · next last rest hpending =>
      rw [hpending] at hdeeper hlength
      exact ⟨(hdeeper.withDepth depth).cons hrun _ 0, Nat.succ_le_succ hlength⟩

theorem waiting_collapse (h : Waiting key all s.pending) (hbefore : OrderedBy key before all) :
    Waiting key all (s.collapse before).pending := by
  unfold collapse
  split
  · next last previous first rest hpending =>
    rw [hpending] at h
    split_ifs
    · exact Waiting.merge [last] s.patience h hbefore
    · exact Waiting.merge [] s.patience h hbefore
  · next last previous hpending =>
    rw [hpending] at h
    exact Waiting.merge [] s.patience h hbefore
  · exact h

theorem length_collapse {count : Nat} (h : s.pending.length ≤ count + 2) :
    (s.collapse before).pending.length ≤ count + 1 := by
  unfold collapse
  split
  · next last previous first rest hpending =>
    rw [hpending] at h
    split_ifs <;> exact Nat.succ_le_succ_iff.1 h
  · exact Nat.succ_le_succ (Nat.zero_le _)
  · next hlong hpair =>
    rcases hpending : s.pending with _ | ⟨last, _ | ⟨previous, _ | ⟨first, rest⟩⟩⟩
    · exact Nat.zero_le _
    · exact Nat.succ_le_succ (Nat.zero_le _)
    · exact (hpair _ _ hpending).elim
    · exact (hlong _ _ _ _ hpending).elim

/-- With a merge for each run but one, a single run is left. -/
theorem toList_spec {fuel : Nat} (h : Waiting key all s.pending)
    (hbefore : OrderedBy key before all) (hfuel : s.pending.length ≤ fuel + 1) :
    Sorted key (s.toList before fuel) ∧ Stable key all (s.toList before fuel) := by
  induction fuel generalizing s with
  | zero =>
    -- the run that is left, if any, is the whole list
    refine ⟨?_, h.stable⟩
    change Sorted key (laidOut s.pending)
    rcases hpending : s.pending with _ | ⟨last, _ | ⟨previous, rest⟩⟩
    · exact List.Pairwise.nil
    · rw [laidOut_cons]
      exact h.sorted last (hpending ▸ List.mem_singleton_self last)
    · rw [hpending, List.length_cons, List.length_cons] at hfuel
      omega
  | succ fuel ih => exact ih (waiting_collapse h hbefore) (length_collapse hfuel)

theorem waiting_foldl_push (h : Waiting key all s.pending) {pieces : List (List α)}
    (hpieces : ∀ run ∈ pieces, Sorted key run)
    (hbefore : OrderedBy key before (all ++ pieces.flatten)) (size : Nat) :
    Waiting key (all ++ pieces.flatten) (pieces.foldl (push before size) s).pending ∧
      (pieces.foldl (push before size) s).pending.length ≤ s.pending.length + pieces.length := by
  induction pieces generalizing all s with
  | nil => exact ⟨by simpa using h, le_rfl⟩
  | cons run pieces ih =>
    obtain ⟨hrun, hpieces⟩ := List.forall_mem_cons.1 hpieces
    rw [List.flatten_cons, ← List.append_assoc] at hbefore ⊢
    obtain ⟨hpushed, hlength⟩ := waiting_push h hrun
      (hbefore.mono fun a ha ↦ List.mem_append_left _ (List.mem_append_left _ ha)) size
    obtain ⟨hwaiting, hcount⟩ := ih hpushed hpieces hbefore
    refine ⟨hwaiting, hcount.trans ?_⟩
    rw [List.length_cons]
    omega

end Stack

/-- The sort by runs rearranges a list stably and leaves it sorted. -/
theorem sort_spec (hbefore : OrderedBy key before xs) :
    Sorted key (sort before xs) ∧ Stable key xs (sort before xs) := by
  unfold sort
  dsimp only
  obtain ⟨hpieces, hstable⟩ := runs_spec (fillLength xs.length 0 xs.length) hbefore le_rfl
  generalize runs before _ xs.length xs = pieces at *
  have hordered := hbefore.mono fun a ↦ hstable.mem_iff.2
  have hempty : Waiting key [] ({} : Stack α).pending := ⟨List.forall_mem_nil _, .refl _⟩
  obtain ⟨hwaiting, hlength⟩ := Stack.waiting_foldl_push hempty hpieces hordered xs.length
  rw [List.length_nil, Nat.zero_add] at hlength
  obtain ⟨hsorted, hstable'⟩ :=
    Stack.toList_spec hwaiting hordered (hlength.trans (Nat.le_succ pieces.length))
  exact ⟨hsorted, hstable.trans hstable'⟩

/-- From the last to the first, the sort agrees with a stable sort by the mirrored order. -/
theorem sortDown_eq_mergeSort (hbefore : OrderedBy key before xs) :
    sortDown before xs = xs.mergeSort fun a b ↦ decide (key b ≤ key a) := by
  -- descending order is ascending order of the mirrored keys
  have hreverse : xs.reverse ⊆ xs := List.reverse_subset.2 (List.Subset.refl xs)
  obtain ⟨hsorted, hstable⟩ := sort_spec (hbefore.mono hreverse)
  have hstable' := hstable.reverse.toDual
  rw [List.reverse_reverse] at hstable'
  exact (sorted_toDual_reverse.2 hsorted).eq_mergeSort hstable'

end Depthwise.Ranking
