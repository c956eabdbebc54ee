import Depthwise.Buffer
import Depthwise.Shape
import Mathlib.Data.List.Range
import Mathlib.Tactic.Linarith
import Mathlib.Tactic.Ring

namespace Depthwise

namespace Buffer

variable {α : Type}

theorem position?_natCast {size i : Nat} (h : i < size) : position? size i = some i := by
  have hplace : ¬ (i : Int) < 0 := by omega
  have hin : (0 : Int) ≤ i ∧ (i : Int) < size := by omega
  simp only [position?, hplace, if_false, hin, and_self, if_true, Int.toNat_natCast]

theorem isSome_position?_iff {size : Nat} {i : Int} (hi : 0 ≤ i) :
    (position? size i).isSome ↔ i < size := by
  rw [position?, if_neg (not_lt.2 hi)]
  split_ifs with hin
  · simp [hin.2]
  · simpa using fun hlt ↦ hin ⟨hi, hlt⟩

theorem read?_natCast {xs : Array α} {i : Nat} (h : i < xs.size) : read? xs i = some xs[i] := by
  rw [read?, position?_natCast h]
  exact Array.getElem?_eq_getElem h

theorem read?_eq_some {xs : Array α} {i : Nat} {a : α} (h : xs[i]? = some a) :
    read? xs i = some a := by
  obtain ⟨hlt, rfl⟩ := Array.getElem?_eq_some_iff.1 h
  exact read?_natCast hlt

/-- Whether a position can be read depends on the length alone. -/
theorem exists_read?_of_size {xs ys : Array α} (h : ys.size = xs.size) {i : Int} {a : α}
    (ha : read? xs i = some a) : ∃ b, read? ys i = some b := by
  obtain ⟨place, hplace, hget⟩ := Option.bind_eq_some_iff.1 ha
  obtain ⟨hlt, -⟩ := Array.getElem?_eq_some_iff.1 hget
  have hlt' : place < ys.size := h ▸ hlt
  refine ⟨ys[place], ?_⟩
  rw [← h] at hplace
  rw [read?, hplace]
  exact Array.getElem?_eq_getElem hlt'

theorem bound_natCast (size n : Nat) : bound size n = min n size := by
  simp only [bound, Int.toNat_natCast]
  rw [if_neg (by omega)]

theorem bound_of_le {size n : Nat} (h : n ≤ size) : bound size n = n := by
  rw [bound_natCast, Nat.min_eq_left h]

theorem bound_le (size : Nat) (i : Int) : bound size i ≤ size := by
  rw [bound]
  split_ifs <;> omega

theorem length_front (xs : List α) (count : Int) :
    (front xs count).length = bound xs.length count := by
  rw [front, List.length_take, Nat.min_eq_left (bound_le _ _)]

theorem slice_natCast (xs : Array α) {start stop : Nat} (hle : start ≤ stop)
    (h : stop ≤ xs.size) : slice xs start stop = xs.extract start stop := by
  rw [slice, bound_of_le (hle.trans h), bound_of_le h]

theorem size_slice_zero (xs : Array α) (n : Nat) : (slice xs 0 n).size = min n xs.size := by
  have hzero : bound xs.size 0 = 0 := bound_of_le (Nat.zero_le _)
  rw [slice, hzero, bound_natCast, Array.size_extract]
  omega

theorem getD_extract (xs : Array α) {n i : Nat} (h : i < n) (a : α) :
    (xs.extract 0 n).getD i a = xs.getD i a := by
  rw [Array.getD_eq_getD_getElem?, Array.getD_eq_getD_getElem?, Array.getElem?_extract,
    Nat.zero_add]
  split_ifs with hin
  · rfl
  · rw [Array.getElem?_eq_none (by omega)]

theorem stretch?_self (xs : Array α) {n : Nat} (h : xs.size = n) : stretch? xs n = some xs :=
  if_pos h

theorem size_of_stretch? {xs ys : Array α} {n : Nat} (h : stretch? xs n = some ys) :
    ys.size = n := by
  rw [stretch?] at h
  split_ifs at h with hsize
  · rwa [← Option.some.inj h]
  · obtain ⟨a, -, rfl⟩ := Option.map_eq_some_iff.1 h
    exact Array.size_replicate

theorem isSome_stretch?_iff {xs : Array α} {n : Nat} :
    (stretch? xs n).isSome ↔ xs.size = n ∨ xs.size = 1 := by
  unfold stretch?
  split_ifs with hn hone
  · simp [hn]
  · simp [hone]
  · simp [hn, hone]

theorem size_overwrite (xs : Array α) (start : Nat) (values : List α) :
    (overwrite xs start values).size = xs.size := by
  induction values generalizing xs start with
  | nil => rfl
  | cons v rest ih => rw [overwrite, ih, Array.size_setIfInBounds]

theorem getElem?_overwrite (xs : Array α) (start : Nat) (values : List α)
    (h : start + values.length ≤ xs.size) (i : Nat) :
    (overwrite xs start values)[i]? =
      if start ≤ i ∧ i < start + values.length then values[i - start]? else xs[i]? := by
  induction values generalizing xs start with
  | nil => rw [if_neg (by simp), overwrite]
  | cons v rest ih =>
    rw [List.length_cons] at h ⊢
    rw [overwrite, ih _ _ (by rw [Array.size_setIfInBounds]; omega),
      Array.getElem?_setIfInBounds]
    rcases Nat.lt_trichotomy i start with hlt | rfl | hgt
    · rw [if_neg (by omega), if_neg (by omega), if_neg (by omega)]
    · rw [if_neg (by omega), if_pos rfl, if_pos (by omega), if_pos (by omega), Nat.sub_self]
      rfl
    · have hsub : i - start = i - (start + 1) + 1 := by omega
      rw [hsub, List.getElem?_cons_succ]
      by_cases hin : i < start + (rest.length + 1)
      · rw [if_pos (by omega), if_pos (by omega)]
      · rw [if_neg (by omega), if_neg (by omega), if_neg (by omega)]

theorem foldl_setIfInBounds (xs : Array α) (start first count : Nat) (v : Nat → α) :
    (List.range' first count).foldl (fun out c ↦ out.setIfInBounds (start + c) (v c)) xs =
      overwrite xs (start + first) ((List.range' first count).map v) := by
  induction count generalizing xs first with
  | zero => rfl
  | succ count ih =>
    rw [List.range'_succ, List.foldl_cons, List.map_cons, overwrite, ih]
    rfl

theorem row_div {stride c : Nat} (hc : c < stride) (x : Nat) : (x * stride + c) / stride = x := by
  rw [Nat.mul_comm, Nat.mul_add_div (by omega), Nat.div_eq_of_lt hc, Nat.add_zero]

theorem row_mod {stride c : Nat} (hc : c < stride) (x : Nat) : (x * stride + c) % stride = c := by
  rw [Nat.mul_comm, Nat.mul_add_mod, Nat.mod_eq_of_lt hc]

/-- Rows written at equal distances, the row of position `x` from `x * stride` on. -/
def writeRows (stride : Nat) (row : Nat → List α) (count : Nat) (xs : Array α) : Array α :=
  (List.range count).foldl (fun out x ↦ overwrite out (x * stride) (row x)) xs

variable {stride : Nat} {row : Nat → List α}

theorem writeRows_succ (count : Nat) (xs : Array α) :
    writeRows stride row (count + 1) xs =
      overwrite (writeRows stride row count xs) (count * stride) (row count) := by
  rw [writeRows, List.range_succ, List.foldl_append]
  rfl

theorem size_writeRows (count : Nat) (xs : Array α) :
    (writeRows stride row count xs).size = xs.size := by
  induction count with
  | zero => rfl
  | succ count ih => rw [writeRows_succ, size_overwrite, ih]

theorem writeRows_congr {row' : Nat → List α} {count : Nat} (h : ∀ x < count, row x = row' x)
    (xs : Array α) : writeRows stride row count xs = writeRows stride row' count xs := by
  induction count with
  | zero => rfl
  | succ count ih =>
    rw [writeRows_succ, writeRows_succ, ih fun x hx ↦ h x (by omega), h count (by omega)]

variable {lanes : Nat}

theorem row_end_le {count size : Nat} (hfit : 0 < count → (count - 1) * stride + lanes ≤ size)
    {x : Nat} (hx : x < count) : x * stride + lanes ≤ size := by
  have hmul : x * stride ≤ (count - 1) * stride := Nat.mul_le_mul_right _ (by omega)
  have := hfit (by omega)
  omega

theorem getElem?_writeRows_row {count : Nat} {xs : Array α}
    (hlen : ∀ x < count, (row x).length = lanes)
    (hstride : lanes ≤ stride) (hfit : 0 < count → (count - 1) * stride + lanes ≤ xs.size)
    {x c : Nat} (hx : x < count) (hc : c < lanes) :
    (writeRows stride row count xs)[x * stride + c]? = (row x)[c]? := by
  induction count with
  | zero => omega
  | succ count ih =>
    have hroom : count * stride + (row count).length ≤ (writeRows stride row count xs).size := by
      rw [size_writeRows, hlen count (by omega)]
      exact row_end_le hfit (by omega)
    rw [writeRows_succ, getElem?_overwrite _ _ _ hroom, hlen count (by omega)]
    rcases Nat.lt_succ_iff_lt_or_eq.1 hx with hlt | rfl
    · have hbefore : x * stride + stride ≤ count * stride := by
        have := Nat.mul_le_mul_right stride (show x + 1 ≤ count by omega)
        rwa [Nat.succ_mul] at this
      rw [if_neg (by omega)]
      refine ih (fun y hy ↦ hlen y (by omega)) (fun hpos ↦ ?_) hlt
      exact row_end_le hfit (by omega)
    · rw [if_pos (by omega), Nat.add_sub_cancel_left]

theorem getElem?_writeRows_of_outside {count : Nat} {xs : Array α}
    (hlen : ∀ x < count, (row x).length = lanes)
    (hfit : 0 < count → (count - 1) * stride + lanes ≤ xs.size) {i : Nat}
    (hi : ∀ x < count, i < x * stride ∨ x * stride + lanes ≤ i) :
    (writeRows stride row count xs)[i]? = xs[i]? := by
  induction count with
  | zero => rfl
  | succ count ih =>
    have hroom : count * stride + (row count).length ≤ (writeRows stride row count xs).size := by
      rw [size_writeRows, hlen count (by omega)]
      exact row_end_le hfit (by omega)
    have hout := hi count (by omega)
    rw [writeRows_succ, getElem?_overwrite _ _ _ hroom, hlen count (by omega), if_neg (by omega)]
    refine ih (fun y hy ↦ hlen y (by omega)) (fun hpos ↦ ?_) (fun y hy ↦ hi y (by omega))
    exact row_end_le hfit (by omega)

end Buffer

namespace Shape

theorem common?_self (n : Nat) : common? n n = some n := if_pos rfl

theorem common?_eq_some_iff {m n l : Nat} :
    common? m n = some l ↔ m = n ∧ l = m ∨ m = 1 ∧ l = n ∨ n = 1 ∧ l = m := by
  unfold common?
  split_ifs <;> simp only [Option.some.injEq, false_iff] <;> omega

theorem isSome_common?_iff {m n : Nat} : (common? m n).isSome ↔ m = n ∨ m = 1 ∨ n = 1 := by
  unfold common?
  split_ifs <;> simp only [Option.isSome_some, Option.isSome_none, true_iff, Bool.false_eq_true,
    false_iff] <;> omega

theorem spread_of_lt {n i : Nat} (h : i < n) : spread n i = i := by
  unfold spread
  split_ifs <;> omega

theorem filter_given {axes : List Int} (haxes : ∀ a ∈ axes, 0 ≤ a) :
    axes.filter (· < 0) = [] := by
  rw [List.filter_eq_nil_iff]
  intro a ha
  simpa using haxes a ha

/-- Axes whose lengths are all given are those of a table with as many elements, unless it has none
and spans too much all the same. -/
theorem resolve?_of_known {count : Nat} {axes : List Int}
    (hspan : count ≠ 0 ∨ overlarge 1 axes = false) (haxes : ∀ a ∈ axes, 0 ≤ a)
    (hknown : known axes = count) : resolve? count axes = some (axes.map Int.toNat) := by
  have hgap : ¬ (count = 0 ∧ overlarge 1 axes = true) := by
    rintro ⟨hzero, hover⟩
    rcases hspan with hspan | hspan
    · exact hspan hzero
    · rw [hspan] at hover
      cases hover
  rw [resolve?, if_neg hgap, filter_given haxes]
  simp only [hknown, if_true]

theorem resolve?_eq_none {count : Nat} {axes : List Int} (haxes : ∀ a ∈ axes, 0 ≤ a)
    (hknown : known axes ≠ count) : resolve? count axes = none := by
  rw [resolve?, filter_given haxes]
  dsimp only
  rw [if_neg hknown, ite_self]

theorem resolve?_of_overlarge {axes : List Int} (h : overlarge 1 axes = true) :
    resolve? 0 axes = none := if_pos ⟨rfl, h⟩

theorem known_cons {a : Int} (ha : 0 ≤ a) (axes : List Int) :
    known (a :: axes) = a.toNat * known axes := by
  simp [known, ha]

theorem known_nil : known [] = 1 := rfl

theorem known_nonzero_cons (n : Nat) (axes : List Int) :
    known (((n : Int) :: axes).filter (· ≠ 0)) = max n 1 * known (axes.filter (· ≠ 0)) := by
  rcases Nat.eq_zero_or_pos n with rfl | hn
  · rw [List.filter_cons_of_neg (by decide), Nat.max_eq_right (by decide), Nat.one_mul]
  · rw [List.filter_cons_of_pos (by simpa using hn.ne'), known_cons (Int.natCast_nonneg n),
      Int.toNat_natCast, Nat.max_eq_left hn]

end Shape

end Depthwise
