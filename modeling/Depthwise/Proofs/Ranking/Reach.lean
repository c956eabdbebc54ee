import Depthwise.Ranking.Reach
import Mathlib.Data.List.Basic
import Mathlib.Tactic.Common

namespace Depthwise.Ranking

/-- The property holds in front of a place and nowhere behind it. -/
structure Boundary (p : Nat → Bool) (place : Nat) : Prop where
  holds : ∀ i < place, p i = true
  fails : ∀ i, place ≤ i → p i = false

def Falling (p : Nat → Bool) : Prop := ∀ i j, i ≤ j → p j = true → p i = true

variable {p : Nat → Bool}

theorem Falling.eq_false (hp : Falling p) {i j : Nat} (hij : i ≤ j) (hi : p i = false) :
    p j = false := by
  rw [← Bool.not_eq_true] at hi ⊢
  exact mt (hp i j hij) hi

theorem boundary_bisect (side : Side) (hp : Falling p) {low high : Nat} (hle : low ≤ high)
    (hlow : ∀ i < low, p i = true) (hhigh : ∀ i, high ≤ i → p i = false) :
    Boundary p (bisect side p low high) := by
  fun_induction bisect side p low high with
  | case1 low high hlt place hplace ih =>
    have hbounds := side.middle_bounds hlt
    exact ih hbounds.2 (fun i hi ↦ hp i place (Nat.lt_succ_iff.1 hi) hplace) hhigh
  | case2 low high hlt place hplace ih =>
    have hbounds := side.middle_bounds hlt
    rw [Bool.not_eq_true] at hplace
    exact ih hbounds.1 hlow fun i hi ↦ hp.eq_false hi hplace
  | case3 low high hlt =>
    obtain rfl : low = high := by omega
    exact ⟨hlow, hhigh⟩

theorem probe_spec {size last next : Nat} (hlast : p last = true) (hlt : last < next)
    (hsize : ∀ i, size ≤ i → p i = false) (hp : Falling p) :
    p (probe p size last next).1 = true ∧ (probe p size last next).1 < (probe p size last next).2 ∧
      ∀ i, (probe p size last next).2 ≤ i → p i = false := by
  fun_induction probe p size last next with
  | case1 last next hnext hholds ih => exact ih hholds (by omega)
  | case2 last next hnext hfails =>
    rw [Bool.not_eq_true] at hfails
    exact ⟨hlast, hlt, fun i hi ↦ hp.eq_false hi hfails⟩
  | case3 last next hnext =>
    refine ⟨hlast, ?_, hsize⟩
    by_contra hout
    rw [hsize last (by omega)] at hlast
    cases hlast

section Lists

variable {α : Type} {p : α → Bool} {xs : List α}

theorem getElem?_any_of_length_le {i : Nat} (hi : xs.length ≤ i) : xs[i]?.any p = false := by
  rw [List.getElem?_eq_none hi]
  rfl

theorem falling_of_pairwise (h : xs.Pairwise fun a b ↦ p b = true → p a = true) :
    Falling fun i ↦ xs[i]?.any p := by
  intro i j hij hj
  dsimp only at hj ⊢
  have hlt : j < xs.length := by
    by_contra hout
    rw [getElem?_any_of_length_le (Nat.le_of_not_lt hout)] at hj
    cases hj
  rw [List.getElem?_eq_getElem hlt, Option.any_some] at hj
  rw [List.getElem?_eq_getElem (Nat.lt_of_le_of_lt hij hlt), Option.any_some]
  rcases Nat.eq_or_lt_of_le hij with rfl | hij
  · exact hj
  · exact List.pairwise_iff_getElem.1 h i j _ hlt hij hj

theorem boundary_bisect_length (side : Side) (h : xs.Pairwise fun a b ↦ p b = true → p a = true) :
    Boundary (fun i ↦ xs[i]?.any p) (bisect side (fun i ↦ xs[i]?.any p) 0 xs.length) :=
  boundary_bisect side (falling_of_pairwise h) (Nat.zero_le _)
    (fun i hi ↦ absurd hi (Nat.not_lt_zero i)) fun _ ↦ getElem?_any_of_length_le

theorem boundary_reach (side : Side) (h : xs.Pairwise fun a b ↦ p b = true → p a = true) :
    Boundary (fun i ↦ xs[i]?.any p) (reach side p xs) := by
  have hfalling := falling_of_pairwise h
  rw [reach]
  split_ifs with hzero
  · obtain ⟨hlast, hlt, hnext⟩ := probe_spec hzero Nat.zero_lt_one
      (fun _ ↦ getElem?_any_of_length_le) hfalling
    exact boundary_bisect side hfalling hlt
      (fun i hi ↦ hfalling i _ (Nat.lt_succ_iff.1 hi) hlast) hnext
  · exact ⟨fun i hi ↦ absurd hi (Nat.not_lt_zero i),
      fun i _ ↦ hfalling.eq_false (Nat.zero_le i) (Bool.not_eq_true _ ▸ hzero)⟩

/-- A boundary splits a list into the elements with the property and those without. -/
theorem Boundary.split {place : Nat} (h : Boundary (fun i ↦ xs[i]?.any p) place) :
    (∀ a ∈ xs.take place, p a = true) ∧ ∀ a ∈ xs.drop place, p a = false := by
  constructor
  · intro a ha
    obtain ⟨i, hi, rfl⟩ := List.mem_take_iff_getElem.1 ha
    have hholds := h.holds i (by omega)
    rwa [List.getElem?_eq_getElem (by omega), Option.any_some] at hholds
  · intro a ha
    obtain ⟨i, hi, rfl⟩ := List.mem_drop_iff_getElem.1 ha
    have hfails := h.fails (place + i) (by omega)
    rwa [List.getElem?_eq_getElem (by omega), Option.any_some] at hfails

end Lists

end Depthwise.Ranking
