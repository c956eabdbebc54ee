import Depthwise.Proofs.Ranking.Reach
import Depthwise.Proofs.Ranking.Stable
import Depthwise.Ranking.Merge
import Mathlib.Tactic.SplitIfs

namespace Depthwise.Ranking

variable {α κ : Type} [LinearOrder κ] {key : α → κ}

section Search

variable {xs : List α} {p : α → Bool} (below : κ → Prop)

theorem Sorted.pairwise_of_below (h : Sorted key xs) (hbelow : ∀ k l, k ≤ l → below l → below k)
    (hp : ∀ a ∈ xs, p a = true ↔ below (key a)) :
    xs.Pairwise fun a b ↦ p b = true → p a = true :=
  h.imp_of_mem fun ha hb hab hpb ↦ (hp _ ha).2 (hbelow _ _ hab ((hp _ hb).1 hpb))

omit [LinearOrder κ] in
theorem Boundary.split_keys {place : Nat} (h : Boundary (fun i ↦ xs[i]?.any p) place)
    (hp : ∀ a ∈ xs, p a = true ↔ below (key a)) :
    (∀ a ∈ xs.take place, below (key a)) ∧ ∀ a ∈ xs.drop place, ¬ below (key a) := by
  obtain ⟨htake, hdrop⟩ := h.split
  refine ⟨fun a ha ↦ (hp a (List.mem_of_mem_take ha)).1 (htake a ha), fun a ha ↦ ?_⟩
  rw [← hp a (List.mem_of_mem_drop ha), Bool.not_eq_true]
  exact hdrop a ha

/-- A search for keys below a bound splits a sorted list at the bound. -/
theorem Sorted.reach_spec (side : Side) (h : Sorted key xs)
    (hbelow : ∀ k l, k ≤ l → below l → below k) (hp : ∀ a ∈ xs, p a = true ↔ below (key a)) :
    (∀ a ∈ xs.take (reach side p xs), below (key a)) ∧
      ∀ a ∈ xs.drop (reach side p xs), ¬ below (key a) :=
  (boundary_reach side (h.pairwise_of_below below hbelow hp)).split_keys below hp

end Search

namespace Merge

/-- A merge on its way to a stable rearrangement of `all`. What has been moved comes before what is
left of either run, of equal keys those of `held` come first, and the last element of `held` comes
after the other run. -/
structure Midway (key : α → κ) (otherFirst : α → α → Bool) (all : List α) (m : Merge α) : Prop where
  held_sorted : Sorted key (m.moved.reverse ++ m.held)
  other_sorted : Sorted key (m.moved.reverse ++ m.other)
  stable : Stable key all (m.moved.reverse ++ m.held ++ m.other)
  last : ∀ x ∈ m.held.getLast?, ∀ y ∈ m.other, key y < key x
  agrees : ∀ x ∈ m.held, ∀ y ∈ m.other, otherFirst x y = true ↔ key y < key x

def remaining (m : Merge α) : Nat := m.held.length + m.other.length

namespace Midway

variable {otherFirst : α → α → Bool} {all : List α} {m : Merge α}
  (h : m.Midway key otherFirst all)

include h

theorem paced (patience : Nat) (pace : Pace) :
    Midway key otherFirst all { m with patience, pace } :=
  ⟨h.held_sorted, h.other_sorted, h.stable, h.last, h.agrees⟩

theorem moveHeld {count : Nat} (hle : ∀ x ∈ m.held.take count, ∀ y ∈ m.other, key x ≤ key y) :
    (m.moveHeld count).Midway key otherFirst all := by
  have hmoved : (m.moveHeld count).moved.reverse = m.moved.reverse ++ m.held.take count := by
    simp [Merge.moveHeld]
  have hheld : m.moved.reverse ++ m.held =
      (m.moveHeld count).moved.reverse ++ (m.moveHeld count).held := by
    rw [hmoved, List.append_assoc]
    exact congrArg _ (List.take_append_drop count m.held).symm
  refine ⟨hheld ▸ h.held_sorted, ?_, ?_, fun x hx ↦ ?_, fun x hx ↦ ?_⟩
  · have hsorted := h.held_sorted.sublist ((List.take_sublist count m.held).append_left _)
    obtain ⟨-, hother, hcross⟩ := List.pairwise_append.1 h.other_sorted
    rw [hmoved]
    refine List.pairwise_append.2 ⟨hsorted, hother, fun a ha b hb ↦ ?_⟩
    rcases List.mem_append.1 ha with ha | ha
    · exact hcross a ha b hb
    · exact hle a ha b hb
  · rw [← hheld]
    exact h.stable
  · refine h.last x ?_
    have hdrop : x ∈ (m.held.drop count).getLast? := hx
    rw [List.getLast?_drop] at hdrop
    split_ifs at hdrop
    · cases hdrop
    · exact hdrop
  · exact h.agrees x (List.mem_of_mem_drop hx)

theorem moveOther {count : Nat} (hlt : ∀ y ∈ m.other.take count, ∀ x ∈ m.held, key y < key x) :
    (m.moveOther count).Midway key otherFirst all := by
  have hmoved : (m.moveOther count).moved.reverse = m.moved.reverse ++ m.other.take count := by
    simp [Merge.moveOther]
  have hother : m.moved.reverse ++ m.other =
      (m.moveOther count).moved.reverse ++ (m.moveOther count).other := by
    rw [hmoved, List.append_assoc]
    exact congrArg _ (List.take_append_drop count m.other).symm
  refine ⟨?_, hother ▸ h.other_sorted, ?_, fun x hx y hy ↦ ?_, fun x hx y hy ↦ ?_⟩
  · have hsorted := h.other_sorted.sublist ((List.take_sublist count m.other).append_left _)
    obtain ⟨-, hheld, hcross⟩ := List.pairwise_append.1 h.held_sorted
    rw [hmoved]
    refine List.pairwise_append.2 ⟨hsorted, hheld, fun a ha b hb ↦ ?_⟩
    rcases List.mem_append.1 ha with ha | ha
    · exact hcross a ha b hb
    · exact (hlt a ha b hb).le
  -- what moves passes all of `held`, where its keys do not occur
  · have hswap : Stable key (m.held ++ m.other.take count) (m.other.take count ++ m.held) :=
      .swap fun x hx y hy ↦ (hlt y hy x hx).ne'
    have hstable := h.stable
    rw [← List.take_append_drop count m.other, List.append_assoc, ← List.append_assoc m.held]
      at hstable
    rw [hmoved, List.append_assoc, List.append_assoc, ← List.append_assoc (m.other.take count)]
    exact hstable.trans (.append (.refl _) (.append hswap (.refl _)))
  · exact h.last x hx y (List.mem_of_mem_drop hy)
  · exact h.agrees x hx y (List.mem_of_mem_drop hy)

theorem sorted_held : Sorted key m.held := (List.pairwise_append.1 h.held_sorted).2.1

theorem sorted_other : Sorted key m.other := (List.pairwise_append.1 h.other_sorted).2.1

theorem moveHeld_one (hle : ∀ x ∈ m.held.head?, ∀ y ∈ m.other.head?, key x ≤ key y) :
    (m.moveHeld 1).Midway key otherFirst all := by
  refine h.moveHeld fun x hx y hy ↦ ?_
  rw [List.take_one, Option.mem_toList] at hx
  obtain ⟨z, hz⟩ := Option.isSome_iff_exists.1 (List.isSome_head?.2 (List.ne_nil_of_mem hy))
  exact (hle x hx z hz).trans (h.sorted_other.head_le hz hy)

theorem moveOther_one (hlt : ∀ x ∈ m.held.head?, ∀ y ∈ m.other.head?, key y < key x) :
    (m.moveOther 1).Midway key otherFirst all := by
  refine h.moveOther fun y hy x hx ↦ ?_
  rw [List.take_one, Option.mem_toList] at hy
  obtain ⟨z, hz⟩ := Option.isSome_iff_exists.1 (List.isSome_head?.2 (List.ne_nil_of_mem hx))
  exact (hlt z hz y hy).trans_le (h.sorted_held.head_le hz hx)

theorem single (heldWins otherWins : Nat) :
    (m.single otherFirst heldWins otherWins).Midway key otherFirst all := by
  unfold Merge.single
  split
  · next x _ y _ hheld hother =>
    have hx : x ∈ m.held := by simp [hheld]
    have hy : y ∈ m.other := by simp [hother]
    by_cases hfirst : otherFirst x y = true
    · rw [if_pos hfirst]
      refine (h.moveOther_one ?_).paced _ _
      simpa [hheld, hother] using (h.agrees x hx y hy).1 hfirst
    · rw [if_neg hfirst]
      refine (h.moveHeld_one ?_).paced _ _
      simpa [hheld, hother] using mt (h.agrees x hx y hy).2 hfirst
  · exact h

theorem reach_held (side : Side) {y : α} (hy : y ∈ m.other) :
    (∀ x ∈ m.held.take (reach side (!otherFirst · y) m.held), key x ≤ key y) ∧
      ∀ x ∈ m.held.drop (reach side (!otherFirst · y) m.held), key y < key x := by
  have hreach := h.sorted_held.reach_spec (· ≤ key y) side (fun _ _ ↦ le_trans) fun x hx ↦ by
    rw [Bool.not_eq_true', ← Bool.not_eq_true, h.agrees x hx y hy, not_lt]
  simpa only [not_le] using hreach

theorem reach_other (side : Side) {x : α} (hx : x ∈ m.held) :
    (∀ y ∈ m.other.take (reach side (otherFirst x ·) m.other), key y < key x) ∧
      ∀ y ∈ m.other.drop (reach side (otherFirst x ·) m.other), key x ≤ key y := by
  have hreach := h.sorted_other.reach_spec (· < key x) side (fun _ _ ↦ lt_of_le_of_lt) fun y hy ↦
    h.agrees x hx y hy
  simpa only [not_lt] using hreach

/-- What goes before the first element of the other run has gone, and that element is next. -/
theorem stretchOfHeld (side : Side) :
    (m.stretchOfHeld side otherFirst).2.Midway key otherFirst all ∧
      ∀ x ∈ (m.stretchOfHeld side otherFirst).2.held.head?,
        ∀ y ∈ (m.stretchOfHeld side otherFirst).2.other.head?, key y < key x := by
  unfold Merge.stretchOfHeld
  dsimp only
  cases hy : m.other.head? with
  | none => exact ⟨h.moveHeld (by simp), fun x _ y hy' ↦ by simp [Merge.moveHeld, hy] at hy'⟩
  | some y =>
    obtain ⟨htake, hdrop⟩ := h.reach_held side (List.mem_of_mem_head? hy)
    refine ⟨h.moveHeld fun x hx z hz ↦ (htake x hx).trans (h.sorted_other.head_le hy hz),
      fun x hx z hz ↦ ?_⟩
    obtain rfl : y = z := Option.some.inj (hy.symm.trans hz)
    exact hdrop x (List.mem_of_mem_head? hx)

theorem stretchOfOther (side : Side) :
    (m.stretchOfOther side otherFirst).2.Midway key otherFirst all ∧
      ∀ x ∈ (m.stretchOfOther side otherFirst).2.held.head?,
        ∀ y ∈ (m.stretchOfOther side otherFirst).2.other.head?, key x ≤ key y := by
  unfold Merge.stretchOfOther
  dsimp only
  cases hx : m.held.head? with
  | none => exact ⟨h.moveOther (by simp), fun x hx' ↦ by simp [Merge.moveOther, hx] at hx'⟩
  | some x =>
    obtain ⟨htake, hdrop⟩ := h.reach_other side (List.mem_of_mem_head? hx)
    refine ⟨h.moveOther fun y hy z hz ↦ (htake y hy).trans_le (h.sorted_held.head_le hx hz),
      fun z hz y hy ↦ ?_⟩
    obtain rfl : x = z := Option.some.inj (hx.symm.trans hz)
    exact hdrop y (List.mem_of_mem_head? hy)

theorem unlessFinished (move : Merge α → Merge α) (hmove : (move m).Midway key otherFirst all) :
    (m.unlessFinished move).Midway key otherFirst all := by
  unfold Merge.unlessFinished
  split_ifs
  · exact h
  · exact hmove

theorem stretches (side : Side) : (m.stretches side otherFirst).2.2.Midway key otherFirst all := by
  cases side with
  | front =>
    obtain ⟨h₁, hnext₁⟩ := h.stretchOfHeld .front
    have h₂ := h₁.unlessFinished (·.moveOther 1) (h₁.moveOther_one hnext₁)
    unfold Merge.stretches
    dsimp only
    split_ifs with hfinished
    · rw [Merge.unlessFinished, if_pos hfinished]
      exact h₂
    · obtain ⟨h₃, hnext₃⟩ := h₂.stretchOfOther .front
      exact h₃.unlessFinished (·.moveHeld 1) (h₃.moveHeld_one hnext₃)
  | back =>
    obtain ⟨h₁, hnext₁⟩ := h.stretchOfOther .back
    have h₂ := h₁.unlessFinished (·.moveHeld 1) (h₁.moveHeld_one hnext₁)
    unfold Merge.stretches
    dsimp only
    split_ifs with hfinished
    · rw [Merge.unlessFinished, if_pos hfinished]
      exact h₂
    · obtain ⟨h₃, hnext₃⟩ := h₂.stretchOfHeld .back
      exact h₃.unlessFinished (·.moveOther 1) (h₃.moveOther_one hnext₃)

theorem step (side : Side) : (m.step side otherFirst).Midway key otherFirst all := by
  unfold Merge.step
  split
  · exact h.single _ _
  · have h' := h.stretches side
    dsimp only
    split_ifs
    · exact h'
    · exact h'.paced _ _
    · exact h'.paced _ _

theorem run (side : Side) (fuel : Nat) :
    (Merge.run side otherFirst fuel m).Midway key otherFirst all := by
  induction fuel generalizing m with
  | zero => exact h
  | succ fuel ih =>
    unfold Merge.run
    split_ifs
    · exact h
    · exact ih (h.step side)

/-- What is left when a merge is finished is in place once it stands behind the other run. -/
theorem result_of_finished (hfinished : m.finished = true) :
    Sorted key m.result ∧ Stable key all m.result := by
  have hlt : ∀ y ∈ m.other, ∀ x ∈ m.held, key y < key x := by
    intro y hy x hx
    refine h.last x ?_ y hy
    have hne : m.other ≠ [] := List.ne_nil_of_mem hy
    have hlength : m.held.length ≤ 1 := by simpa [finished, hne] using hfinished
    obtain ⟨z, hz⟩ := List.length_eq_one_iff.1
      (Nat.le_antisymm hlength (List.length_pos_iff.2 (List.ne_nil_of_mem hx)))
    rw [hz, List.mem_singleton] at hx
    rw [hz, hx]
    rfl
  -- moving all of the other run gives the result
  have h' : (m.moveOther m.other.length).Midway key otherFirst all :=
    h.moveOther fun y hy ↦ hlt y (List.mem_of_mem_take hy)
  have hother : (m.moveOther m.other.length).other = [] := List.drop_length
  have hresult : (m.moveOther m.other.length).moved.reverse ++ (m.moveOther m.other.length).held =
      m.result := by
    simp [Merge.moveOther, result]
  have hstable := h'.stable
  rw [hother, List.append_nil, hresult] at hstable
  exact ⟨hresult ▸ h'.held_sorted, hstable⟩

end Midway

section Progress

variable {otherFirst : α → α → Bool} {m : Merge α}

theorem finished_eq_false_iff : m.finished = false ↔ 1 < m.held.length ∧ 0 < m.other.length := by
  simp [finished, List.length_pos_iff]

theorem remaining_moveHeld (m : Merge α) (count : Nat) :
    (m.moveHeld count).remaining ≤ m.remaining := by
  simp only [remaining, moveHeld, List.length_drop]
  omega

theorem remaining_moveOther (m : Merge α) (count : Nat) :
    (m.moveOther count).remaining ≤ m.remaining := by
  simp only [remaining, moveOther, List.length_drop]
  omega

theorem remaining_moveHeld_lt (hm : m.finished = false) :
    (m.moveHeld 1).remaining < m.remaining := by
  have := finished_eq_false_iff.1 hm
  simp only [remaining, moveHeld, List.length_drop]
  omega

theorem remaining_moveOther_lt (hm : m.finished = false) :
    (m.moveOther 1).remaining < m.remaining := by
  have := finished_eq_false_iff.1 hm
  simp only [remaining, moveOther, List.length_drop]
  omega

def Advanced (m m' : Merge α) : Prop := m'.finished = true ∨ m'.remaining < m.remaining

theorem advanced_unlessFinished {first : Merge α} {move : Merge α → Merge α}
    (hfirst : first.remaining ≤ m.remaining)
    (hmove : first.finished = false → (move first).remaining < first.remaining) :
    m.Advanced (first.unlessFinished move) := by
  unfold unlessFinished
  split_ifs with hfinished
  · exact .inl hfinished
  · exact .inr ((hmove (Bool.not_eq_true _ ▸ hfinished)).trans_le hfirst)

/-- Once a merge has advanced, a second stretch and a move leave it so. -/
theorem Advanced.second {m₁ : Merge α} (h : m.Advanced m₁) {stretch : Merge α → Nat × Merge α}
    {move : Merge α → Merge α} (hstretch : ∀ m' : Merge α, (stretch m').2.remaining ≤ m'.remaining)
    (hmove : ∀ m' : Merge α, (move m').remaining ≤ m'.remaining) :
    m.Advanced ((if m₁.finished then (0, m₁) else stretch m₁).2.unlessFinished move) := by
  split_ifs with hfinished
  · rw [unlessFinished, if_pos hfinished]
    exact .inl hfinished
  · have hlt : m₁.remaining < m.remaining := h.resolve_left hfinished
    unfold unlessFinished
    split_ifs with hfinished'
    · exact .inl hfinished'
    · exact .inr ((hmove _).trans_lt ((hstretch m₁).trans_lt hlt))

theorem remaining_stretchOfHeld (side : Side) (m : Merge α) :
    (m.stretchOfHeld side otherFirst).2.remaining ≤ m.remaining :=
  m.remaining_moveHeld _

theorem remaining_stretchOfOther (side : Side) (m : Merge α) :
    (m.stretchOfOther side otherFirst).2.remaining ≤ m.remaining :=
  m.remaining_moveOther _

theorem advanced_stretches (side : Side) : m.Advanced (m.stretches side otherFirst).2.2 := by
  cases side with
  | front =>
    have h₁ : m.Advanced ((m.stretchOfHeld .front otherFirst).2.unlessFinished (·.moveOther 1)) :=
      advanced_unlessFinished (remaining_stretchOfHeld .front m) remaining_moveOther_lt
    unfold stretches
    dsimp only
    exact h₁.second (remaining_stretchOfOther .front) fun m' ↦ m'.remaining_moveHeld 1
  | back =>
    have h₁ : m.Advanced ((m.stretchOfOther .back otherFirst).2.unlessFinished (·.moveHeld 1)) :=
      advanced_unlessFinished (remaining_stretchOfOther .back m) remaining_moveHeld_lt
    unfold stretches
    dsimp only
    exact h₁.second (remaining_stretchOfHeld .back) fun m' ↦ m'.remaining_moveOther 1

theorem advanced_single (hm : m.finished = false) (heldWins otherWins : Nat) :
    m.Advanced (m.single otherFirst heldWins otherWins) := by
  obtain ⟨hheld, hother⟩ := finished_eq_false_iff.1 hm
  unfold single
  split
  · next x _ y _ _ _ =>
    by_cases hfirst : otherFirst x y = true
    · rw [if_pos hfirst]
      exact .inr (remaining_moveOther_lt hm)
    · rw [if_neg hfirst]
      exact .inr (remaining_moveHeld_lt hm)
  · next hnone =>
    obtain ⟨x, held, hx⟩ := List.exists_cons_of_length_pos (Nat.zero_lt_of_lt hheld)
    obtain ⟨y, other, hy⟩ := List.exists_cons_of_length_pos hother
    exact absurd hy (hnone x held y other hx)

theorem advanced_step (side : Side) (hm : m.finished = false) :
    m.Advanced (m.step side otherFirst) := by
  unfold step
  split
  · exact advanced_single hm _ _
  · have h := @advanced_stretches α otherFirst m side
    dsimp only
    split_ifs
    · exact h
    · exact h
    · exact h

theorem finished_run (side : Side) {fuel : Nat} (hfuel : m.finished = true ∨ m.remaining ≤ fuel) :
    (Merge.run side otherFirst fuel m).finished = true := by
  -- a step that does not finish leaves less than before, at either pace
  induction fuel generalizing m with
  | zero =>
    refine hfuel.elim id fun hzero ↦ ?_
    by_contra hnot
    have hnot : ¬ m.finished = true := hnot
    rw [Bool.not_eq_true, finished_eq_false_iff] at hnot
    unfold remaining at hzero
    omega
  | succ fuel ih =>
    unfold Merge.run
    split_ifs with hfinished
    · exact hfinished
    · have hadvanced := @advanced_step α otherFirst m side (Bool.not_eq_true _ ▸ hfinished)
      refine ih (hadvanced.imp_right fun hlt ↦ ?_)
      have := hfuel.resolve_left hfinished
      omega

end Progress

/-- Merging two runs if the first element of `other` comes before `held` and the last one of `held`
after `other`. -/
theorem ofRuns_spec {otherFirst : α → α → Bool} {held other : List α} (side : Side) (patience : Nat)
    (hheld : Sorted key held) (hother : Sorted key other)
    (hfirst : ∀ x ∈ held.head?, ∀ y ∈ other.head?, key y < key x)
    (hlast : ∀ x ∈ held.getLast?, ∀ y ∈ other, key y < key x)
    (hagrees : ∀ x ∈ held, ∀ y ∈ other, otherFirst x y = true ↔ key y < key x) :
    Sorted key (ofRuns side otherFirst held other patience).result ∧
      Stable key (held ++ other) (ofRuns side otherFirst held other patience).result := by
  have h : Midway key otherFirst (held ++ other) { held, other, patience } :=
    ⟨hheld, hother, .refl _, hlast, hagrees⟩
  have hfinished := @finished_run α otherFirst (moveOther { held, other, patience } 1) side
    (held.length + other.length) (.inr (remaining_moveOther _ 1))
  exact ((h.moveOther_one hfirst).run side _).result_of_finished hfinished

end Merge

section Neighbours

variable {before : α → α → Bool} {xs ys : List α}

theorem mergeTrimmed_spec (patience : Nat) (hbefore : OrderedBy key before (xs ++ ys))
    (hx : Sorted key xs) (hy : Sorted key ys)
    (hfirst : ∀ y ∈ ys.head?, ∀ x ∈ xs, key y < key x)
    (hlast : ∀ x ∈ xs.getLast?, ∀ y ∈ ys, key y < key x) :
    Sorted key (mergeTrimmed before patience xs ys).1 ∧
      Stable key (xs ++ ys) (mergeTrimmed before patience xs ys).1 := by
  have hagrees : ∀ x ∈ xs, ∀ y ∈ ys, before y x = true ↔ key y < key x := fun x hx y hy ↦
    hbefore y (List.mem_append_right _ hy) x (List.mem_append_left _ hx)
  unfold mergeTrimmed
  split_ifs
  · exact Merge.ofRuns_spec .front patience hx hy
      (fun x hx y hy ↦ hfirst y hy x (List.mem_of_mem_head? hx)) hlast hagrees
  · -- from the back everything is mirrored, the keys too
    obtain ⟨hsorted, hstable⟩ := @Merge.ofRuns_spec α κᵒᵈ _ (OrderDual.toDual ∘ key) before
      ys.reverse xs.reverse .back patience (sorted_toDual_reverse.2 hy) (sorted_toDual_reverse.2 hx)
      (fun y hy x hx ↦ by
        rw [List.head?_reverse] at hx hy
        exact hlast x hx y (List.mem_of_mem_getLast? hy))
      (fun y hy x hx ↦ by
        rw [List.getLast?_reverse] at hy
        exact hfirst y hy x (List.mem_reverse.1 hx))
      (fun y hy x hx ↦ hagrees x (List.mem_reverse.1 hx) y (List.mem_reverse.1 hy))
    refine ⟨sorted_toDual_reverse.1 (by rwa [List.reverse_reverse]), ?_⟩
    have hreverse := hstable.of_toDual.reverse
    rwa [List.reverse_append, List.reverse_reverse, List.reverse_reverse] at hreverse

theorem trim_front (hbefore : OrderedBy key before (xs ++ ys)) (hx : Sorted key xs) {y : α}
    (hy : y ∈ ys) :
    (∀ a ∈ xs.take (reach .front (!before y ·) xs), key a ≤ key y) ∧
      ∀ a ∈ xs.drop (reach .front (!before y ·) xs), key y < key a := by
  have hreach := hx.reach_spec (· ≤ key y) .front (fun _ _ ↦ le_trans) fun a ha ↦ by
    rw [Bool.not_eq_true', ← Bool.not_eq_true,
      hbefore y (List.mem_append_right _ hy) a (List.mem_append_left _ ha), not_lt]
  simpa only [not_le] using hreach

theorem trim_back (hbefore : OrderedBy key before (xs ++ ys)) (hy : Sorted key ys) {x : α}
    (hx : x ∈ xs) :
    (∀ b ∈ ys.take (ys.length - reach .back (!before · x) ys.reverse), key b < key x) ∧
      ∀ b ∈ ys.drop (ys.length - reach .back (!before · x) ys.reverse), key x ≤ key b := by
  have hfirst : ∀ b ∈ ys.reverse, (!before b x) = true ↔ key x ≤ key b := by
    intro b hb
    rw [Bool.not_eq_true', ← Bool.not_eq_true,
      hbefore b (List.mem_append_right _ (List.mem_reverse.1 hb)) x (List.mem_append_left _ hx),
      not_lt]
  have hreach := (sorted_toDual_reverse.2 hy).reach_spec
    (fun k ↦ key x ≤ OrderDual.ofDual k) .back (fun _ _ hkl hl ↦ hl.trans hkl) hfirst
  rw [List.take_reverse, List.drop_reverse] at hreach
  simp only [List.mem_reverse, Function.comp_apply, OrderDual.ofDual_toDual, not_le] at hreach
  exact hreach.symm

/-- What is in place at either end may stay there. -/
theorem merged_between {front held other back merged : List α} (hx : Sorted key (front ++ held))
    (hy : Sorted key (other ++ back)) (hmerged : Sorted key merged)
    (hstable : Stable key (held ++ other) merged)
    (hfront : ∀ a ∈ front, ∀ b ∈ other ++ back, key a ≤ key b)
    (hback : ∀ a ∈ front ++ held, ∀ b ∈ back, key a ≤ key b) :
    Sorted key (front ++ merged ++ back) ∧
      Stable key (front ++ held ++ (other ++ back)) (front ++ merged ++ back) := by
  obtain ⟨hfront_sorted, -, hheld⟩ := List.pairwise_append.1 hx
  obtain ⟨-, hback_sorted, hother⟩ := List.pairwise_append.1 hy
  have hmem {a : α} (ha : a ∈ merged) : a ∈ held ∨ a ∈ other :=
    List.mem_append.1 (hstable.mem_iff.2 ha)
  constructor
  · rw [Sorted, List.append_assoc]
    refine List.pairwise_append.2 ⟨hfront_sorted, List.pairwise_append.2
      ⟨hmerged, hback_sorted, fun a ha b hb ↦ ?_⟩, fun a ha b hb ↦ ?_⟩
    · rcases hmem ha with ha | ha
      · exact hback a (List.mem_append_right _ ha) b hb
      · exact hother a ha b hb
    · rcases List.mem_append.1 hb with hb | hb
      · rcases hmem hb with hb | hb
        · exact hheld a ha b hb
        · exact hfront a ha b (List.mem_append_left _ hb)
      · exact hfront a ha b (List.mem_append_right _ hb)
  · rw [List.append_assoc, List.append_assoc, ← List.append_assoc held]
    exact .append (.refl _) (.append hstable (.refl _))

/-- Merging two neighbouring runs gives the sorted rearrangement in which equal keys keep their
order. -/
theorem mergeRuns_spec (patience : Nat) (hbefore : OrderedBy key before (xs ++ ys))
    (hx : Sorted key xs) (hy : Sorted key ys) :
    Sorted key (mergeRuns before patience xs ys).1 ∧
      Stable key (xs ++ ys) (mergeRuns before patience xs ys).1 := by
  have hjoined (hle : ∀ a ∈ xs, ∀ b ∈ ys, key a ≤ key b) :
      Sorted key (xs ++ ys) ∧ Stable key (xs ++ ys) (xs ++ ys) :=
    ⟨List.pairwise_append.2 ⟨hx, hy, hle⟩, .refl _⟩
  unfold mergeRuns
  split
  · next y x hhead hlast =>
    obtain ⟨hfront, hfront'⟩ := trim_front hbefore hx (List.mem_of_mem_head? hhead)
    obtain ⟨hback, hback'⟩ := trim_back hbefore hy (List.mem_of_mem_getLast? hlast)
    dsimp only
    generalize reach .front (!before y ·) xs = front at *
    generalize ys.length - reach .back (!before · x) ys.reverse = back at *
    have hle (a : α) (ha : a ∈ xs.take front) (b : α) (hb : b ∈ ys) : key a ≤ key b :=
      (hfront a ha).trans (hy.head_le hhead hb)
    have hle' (a : α) (ha : a ∈ xs) (b : α) (hb : b ∈ ys.drop back) : key a ≤ key b :=
      (hx.le_getLast hlast ha).trans (hback' b hb)
    split_ifs with hplace
    · refine hjoined fun a ha b hb ↦ ?_
      rcases hplace with rfl | rfl
      · exact hle a (by rwa [List.take_length]) b hb
      · exact hle' a ha b hb
    · -- the last of `xs` and the first of `ys` are in the part that is merged
      have hsub := (List.drop_sublist front xs).append (List.take_sublist back ys)
      obtain ⟨hsorted, hstable⟩ := mergeTrimmed_spec patience (hbefore.mono hsub.subset)
        (hx.sublist (List.drop_sublist _ _)) (hy.sublist (List.take_sublist _ _))
        (fun z hz a ha ↦ by
          rw [List.head?_take, hhead] at hz
          split_ifs at hz
          · cases hz
          · cases hz
            exact hfront' a ha)
        (fun z hz b hb ↦ by
          rw [List.getLast?_drop, hlast] at hz
          split_ifs at hz
          · cases hz
          · cases hz
            exact hback b hb)
      have hxs := List.take_append_drop front xs
      have hys := List.take_append_drop back ys
      have h := merged_between (hxs.symm ▸ hx) (hys.symm ▸ hy) hsorted hstable
        (fun a ha b hb ↦ hle a ha b (hys ▸ hb)) fun a ha b hb ↦ hle' a (hxs ▸ ha) b hb
      rwa [hxs, hys] at h
  · next hnone =>
    refine hjoined fun a ha b hb ↦ ?_
    have hhead := List.head?_eq_some_head (List.ne_nil_of_mem hb)
    exact absurd (List.getLast?_eq_some_getLast (List.ne_nil_of_mem ha)) (hnone _ _ hhead)

end Neighbours

end Depthwise.Ranking
