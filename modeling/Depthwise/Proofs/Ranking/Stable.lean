import Mathlib.Data.List.Sort
import Mathlib.Order.Basic

namespace Depthwise.Ranking

variable {α κ : Type} [LinearOrder κ] (key : α → κ)

def tied (k : κ) (xs : List α) : List α := xs.filter fun a ↦ key a = k

/-- The same elements in both lists, those with one key in the same order. -/
def Stable (xs ys : List α) : Prop := ∀ k, tied key k xs = tied key k ys

def Sorted (xs : List α) : Prop := xs.Pairwise fun a b ↦ key a ≤ key b

/-- The relation compares the keys of elements of the list. -/
def OrderedBy (before : α → α → Bool) (xs : List α) : Prop :=
  ∀ a ∈ xs, ∀ b ∈ xs, before a b = true ↔ key a < key b

variable {key} {xs ys zs ws : List α}

theorem OrderedBy.mono {before : α → α → Bool} (h : OrderedBy key before xs) (hsub : ys ⊆ xs) :
    OrderedBy key before ys := fun a ha b hb ↦ h a (hsub ha) b (hsub hb)

theorem tied_cons (k : κ) (x : α) (xs : List α) :
    tied key k (x :: xs) = if key x = k then x :: tied key k xs else tied key k xs := by
  rw [tied, List.filter_cons]
  simp only [decide_eq_true_iff]
  rfl

theorem tied_append (k : κ) (xs ys : List α) :
    tied key k (xs ++ ys) = tied key k xs ++ tied key k ys := List.filter_append _ _

theorem mem_tied {k : κ} {a : α} : a ∈ tied key k xs ↔ a ∈ xs ∧ key a = k := by
  rw [tied, List.mem_filter, decide_eq_true_iff]

namespace Stable

theorem refl (xs : List α) : Stable key xs xs := fun _ ↦ rfl

theorem symm (h : Stable key xs ys) : Stable key ys xs := fun k ↦ (h k).symm

theorem trans (h : Stable key xs ys) (h' : Stable key ys zs) : Stable key xs zs :=
  fun k ↦ (h k).trans (h' k)

theorem append (h : Stable key xs ys) (h' : Stable key zs ws) :
    Stable key (xs ++ zs) (ys ++ ws) := by
  intro k
  rw [tied_append, tied_append, h k, h' k]

theorem mem_iff (h : Stable key xs ys) {a : α} : a ∈ xs ↔ a ∈ ys := by
  have hk : a ∈ tied key (key a) xs ↔ a ∈ tied key (key a) ys := by rw [h (key a)]
  simpa only [mem_tied, and_true] using hk

theorem reverse (h : Stable key xs ys) : Stable key xs.reverse ys.reverse := by
  intro k
  rw [tied, tied, List.filter_reverse, List.filter_reverse]
  exact congrArg List.reverse (h k)

/-- Two blocks without a common key may change places. -/
theorem swap (h : ∀ a ∈ xs, ∀ b ∈ ys, key a ≠ key b) : Stable key (xs ++ ys) (ys ++ xs) := by
  intro k
  rw [tied_append, tied_append]
  rcases (tied key k xs).eq_nil_or_concat with hnil | ⟨_, a, ha⟩
  · rw [hnil, List.nil_append, List.append_nil]
  · have hmem : a ∈ tied key k xs := by simp [ha]
    obtain ⟨hx, rfl⟩ := mem_tied.1 hmem
    have hnil : tied key (key a) ys = [] := by
      refine List.filter_eq_nil_iff.2 fun b hb ↦ ?_
      simpa using (h a hx b hb).symm
    rw [hnil, List.nil_append, List.append_nil]

end Stable

/-- A list in which no key comes twice may be turned around. -/
theorem stable_reverse (h : xs.Pairwise fun a b ↦ key a ≠ key b) : Stable key xs.reverse xs := by
  induction xs with
  | nil => exact .refl []
  | cons x xs ih =>
    obtain ⟨hx, hxs⟩ := List.pairwise_cons.1 h
    rw [List.reverse_cons]
    refine Stable.trans (.append (ih hxs) (.refl [x])) (.swap fun a ha b hb ↦ ?_)
    rw [List.mem_singleton.1 hb]
    exact (hx a ha).symm

namespace Sorted

theorem head_le (h : Sorted key xs) {x a : α} (hx : x ∈ xs.head?) (ha : a ∈ xs) :
    key x ≤ key a := by
  obtain ⟨rest, rfl⟩ := List.head?_eq_some_iff.1 hx
  rcases List.mem_cons.1 ha with rfl | ha
  · exact le_rfl
  · exact List.rel_of_pairwise_cons h ha

theorem le_getLast (h : Sorted key xs) {x a : α} (hx : x ∈ xs.getLast?) (ha : a ∈ xs) :
    key a ≤ key x := by
  obtain ⟨front, rfl⟩ := List.getLast?_eq_some_iff.1 hx
  rcases List.mem_append.1 ha with ha | ha
  · exact (List.pairwise_append.1 h).2.2 a ha x (List.mem_singleton_self x)
  · rw [List.mem_singleton.1 ha]

/-- Stable rearrangements that are sorted are equal. -/
theorem eq_of_stable (hx : Sorted key xs) (hy : Sorted key ys) (h : Stable key xs ys) :
    xs = ys := by
  induction xs generalizing ys with
  | nil => exact (List.eq_nil_iff_forall_not_mem.2 fun y hy' ↦ by simpa using h.mem_iff.2 hy').symm
  | cons x xs ih =>
    cases ys with
    | nil => exact absurd (h.mem_iff.1 List.mem_cons_self) List.not_mem_nil
    | cons y ys =>
      -- the heads have the least key, and the first elements with this key are the same
      have hkey : key y = key x := le_antisymm (hy.head_le rfl (h.mem_iff.1 List.mem_cons_self))
        (hx.head_le rfl (h.mem_iff.2 List.mem_cons_self))
      have hhead := h (key x)
      rw [tied_cons, tied_cons, if_pos rfl, if_pos hkey] at hhead
      obtain ⟨rfl, -⟩ := List.cons.inj hhead
      refine congrArg (x :: ·) (ih hx.of_cons hy.of_cons fun k ↦ ?_)
      have hk := h k
      rw [tied_cons, tied_cons] at hk
      split_ifs at hk with hxk
      · exact (List.cons.inj hk).2
      · exact hk

end Sorted

section Mirrored

theorem sorted_toDual_reverse : Sorted (OrderDual.toDual ∘ key) xs.reverse ↔ Sorted key xs :=
  List.pairwise_reverse

theorem Stable.of_toDual (h : Stable (OrderDual.toDual ∘ key) xs ys) : Stable key xs ys :=
  fun k ↦ h (OrderDual.toDual k)

theorem Stable.toDual (h : Stable key xs ys) : Stable (OrderDual.toDual ∘ key) xs ys :=
  fun k ↦ h (OrderDual.ofDual k)

end Mirrored

section MergeSort

variable (key) (xs : List α)

theorem decide_key_trans (a b c : α) (hab : decide (key a ≤ key b) = true)
    (hbc : decide (key b ≤ key c) = true) : decide (key a ≤ key c) = true :=
  decide_eq_true ((of_decide_eq_true hab).trans (of_decide_eq_true hbc))

theorem decide_key_total (a b : α) :
    (decide (key a ≤ key b) || decide (key b ≤ key a)) = true := by
  simpa using le_total (key a) (key b)

theorem sorted_mergeSort : Sorted key (xs.mergeSort fun a b ↦ decide (key a ≤ key b)) := by
  have h := List.pairwise_mergeSort (decide_key_trans key) (decide_key_total key) xs
  exact h.imp of_decide_eq_true

theorem stable_mergeSort : Stable key xs (xs.mergeSort fun a b ↦ decide (key a ≤ key b)) := by
  intro k
  have hperm : (xs.mergeSort fun a b ↦ decide (key a ≤ key b)).Perm xs := List.mergeSort_perm _ _
  -- elements with one key are in order already
  have hordered : (tied key k xs).Pairwise fun a b ↦ decide (key a ≤ key b) = true := by
    refine List.pairwise_of_forall_mem_list fun a ha b hb ↦ decide_eq_true ?_
    rw [(mem_tied.1 ha).2, (mem_tied.1 hb).2]
  have hsub := List.sublist_mergeSort (decide_key_trans key) (decide_key_total key) hordered
    List.filter_sublist
  have hfilter := hsub.filter fun a ↦ decide (key a = k)
  rw [tied, List.filter_filter] at hfilter
  simp only [Bool.and_self] at hfilter
  exact hfilter.eq_of_length (hperm.filter _).length_eq.symm

variable {key xs}

/-- There is one way of sorting stably. -/
theorem Sorted.eq_mergeSort (hsorted : Sorted key ys) (hstable : Stable key xs ys) :
    ys = xs.mergeSort fun a b ↦ decide (key a ≤ key b) :=
  hsorted.eq_of_stable (sorted_mergeSort key xs) (hstable.symm.trans (stable_mergeSort key xs))

end MergeSort

end Depthwise.Ranking
