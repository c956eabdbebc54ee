import Depthwise.Proofs.Binary.Conversion
import Mathlib.Order.WithBot

namespace Depthwise.Binary

variable {F : Format}

def rank : Binary F → WithBot (WithTop Rat)
  | .nan => ⊥
  | .infinite negative => if negative then ⊥ else ⊤
  | x@(.finite ..) => ((x.toRat : WithTop Rat) : WithBot (WithTop Rat))

theorem lt_iff_rank {x y : Binary F} (hx : x.isNaN = false) (hy : y.isNaN = false) :
    x.lt y = true ↔ x.rank < y.rank := by
  cases x with
  | nan => cases hx
  | infinite s =>
    cases y with
    | nan => cases hy
    | infinite t => cases s <;> cases t <;> simp [lt, rank]
    | finite t n k hd => cases s <;> simp [lt, rank]
  | finite s m e hc =>
    cases y with
    | nan => cases hy
    | infinite t => cases t <;> simp [lt, rank, ← WithBot.coe_top]
    | finite t n k hd => simp [lt, rank]

theorem le_iff_rank {x y : Binary F} (hx : x.isNaN = false) (hy : y.isNaN = false) :
    x.le y = true ↔ x.rank ≤ y.rank := by
  simp only [le, hx, hy, Bool.not_false, Bool.true_and, Bool.not_eq_true']
  rw [← not_lt, ← lt_iff_rank hy hx, Bool.not_eq_true]

theorem eq_of_rank_eq {x y : Binary F} (hx : x.isNaN = false) (hy : y.isNaN = false)
    (hx' : x.isNegative = false) (hy' : y.isNegative = false) (h : x.rank = y.rank) : x = y := by
  cases x with
  | nan => cases hx
  | infinite s =>
    cases hx'
    cases y with
    | nan => cases hy
    | infinite t => cases hy'; rfl
    | finite t n k hd => simp [rank, ← WithBot.coe_top] at h
  | finite s m e hc =>
    cases hx'
    cases y with
    | nan => cases hy
    | infinite t => cases hy'; simp [rank, ← WithBot.coe_top] at h
    | finite t n k hd =>
      cases hy'
      simp only [rank, WithBot.coe_inj, WithTop.coe_inj, toRat_finite_false] at h
      obtain ⟨rfl, rfl⟩ := hc.eq_of_eq hd h
      rfl

theorem isNaN_ofParts (s : Bool) (m : Nat) (e : Int) :
    (ofParts s m e : Binary F).isNaN = false := by
  unfold ofParts
  split <;> rfl

theorem isNaN_roundMagnitude (s : Bool) (x : Rat) :
    (roundMagnitude s x : Binary F).isNaN = false := by
  unfold roundMagnitude
  dsimp only
  split_ifs <;> exact isNaN_ofParts _ _ _

theorem isNaN_sub {x y : Binary F} (hx : x.isFinite = true) (hy : y.isFinite = true) :
    (x - y).isNaN = false := by
  obtain ⟨s, m, e, hc, rfl⟩ := exists_of_isFinite hx
  obtain ⟨t, n, k, hd, rfl⟩ := exists_of_isFinite hy
  change (add (finite s m e hc) (neg (finite t n k hd))).isNaN = false
  unfold neg add
  dsimp only
  split_ifs
  · exact isNaN_ofParts _ _ _
  · exact isNaN_roundMagnitude _ _

theorem isNaN_abs (x : Binary F) : x.abs.isNaN = x.isNaN := by
  cases x <;> rfl

theorem isNegative_abs (x : Binary F) : x.abs.isNegative = false := by
  cases x <;> rfl

end Depthwise.Binary
