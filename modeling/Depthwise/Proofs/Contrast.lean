import Depthwise.Contrast
import Mathlib.Order.Basic

namespace Depthwise

section Extremes

variable {a low high : Int} {rest : List Int}

theorem foldl_max_spec (h : rest.foldl max a = high) :
    high ∈ a :: rest ∧ ∀ b ∈ a :: rest, b ≤ high :=
  List.max?_eq_some_iff.1 (List.max?_cons'.trans (congrArg some h))

theorem foldl_min_spec (h : rest.foldl min a = low) :
    low ∈ a :: rest ∧ ∀ b ∈ a :: rest, low ≤ b :=
  List.min?_eq_some_iff.1 (List.min?_cons'.trans (congrArg some h))

end Extremes

namespace Contrast

def Uniform (values : List Int) (v : Int) : Prop := 2 ≤ values.length ∧ ∀ a ∈ values, a = v

variable {values : List Int} {v : Int}

theorem common?_eq_some_iff : common? values = some v ↔ Uniform values v := by
  rcases values with _ | ⟨a, _ | ⟨b, rest⟩⟩
  · simp [common?, Uniform]
  · simp [common?, Uniform]
  · obtain ⟨hmax, hle⟩ := foldl_max_spec (rfl : (b :: rest).foldl max a = _)
    obtain ⟨hmin, hge⟩ := foldl_min_spec (rfl : (b :: rest).foldl min a = _)
    rw [common?]
    constructor
    · intro h
      split_ifs at h with heq
      cases h
      exact ⟨by simp, fun c hc ↦ Int.le_antisymm (hle c hc) (heq.trans_le (hge c hc))⟩
    · rintro ⟨-, hall⟩
      rw [if_pos ((hall _ hmax).trans (hall _ hmin).symm), hall _ hmax]

theorem common?_eq_none_iff : common? values = none ↔ ∀ v, ¬ Uniform values v := by
  simp only [← common?_eq_some_iff, Option.eq_none_iff_forall_ne_some]

variable (name : String) (trial seed : Option Int)

theorem checkBuffer_of_uniform (h : Uniform values v) : checkBuffer name values trial seed =
    .error (Failure.raise ⟨.degenerate (.noContrast name values.length v), trial, seed⟩) := by
  rw [checkBuffer, common?_eq_some_iff.2 h]

theorem checkBuffer_ok (h : ∀ v, ¬ Uniform values v) :
    checkBuffer name values trial seed = .ok () := by
  rw [checkBuffer, common?_eq_none_iff.2 h]

theorem checkRange_of_uniform (h : Uniform values v) : checkRange values trial seed =
    .error (Failure.raise ⟨.degenerate (.zeroRange v), trial, seed⟩) := by
  rw [checkRange, common?_eq_some_iff.2 h]

theorem checkRange_ok (h : ∀ v, ¬ Uniform values v) : checkRange values trial seed = .ok () := by
  rw [checkRange, common?_eq_none_iff.2 h]

end Contrast

end Depthwise
