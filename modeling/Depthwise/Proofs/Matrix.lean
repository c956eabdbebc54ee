import Mathlib.Data.List.Pairwise

namespace Depthwise

def matrix {α : Type} (rows lanes : Nat) (f : Nat → Nat → α) : List (List α) :=
  (List.range rows).map fun x ↦ (List.range lanes).map (f x)

def cells (rows lanes : Nat) : List (Nat × Nat) :=
  (List.range rows).flatMap fun x ↦ (List.range lanes).map fun c ↦ (x, c)

def Precedes (a b : Nat × Nat) : Prop := a.1 < b.1 ∨ a.1 = b.1 ∧ a.2 < b.2

structure Shaped {α : Type} (rows lanes : Nat) (m : List (List α)) : Prop where
  length_eq : m.length = rows
  lanes_eq : ∀ row ∈ m, row.length = lanes

section Matrix

variable {α β : Type} {rows lanes : Nat}

/-- Rows of one length are the matrix of their entries. -/
theorem Shaped.exists_eq_matrix {m : List (List α)} (h : Shaped rows lanes m) (a : α) :
    ∃ f, m = matrix rows lanes f := by
  refine ⟨fun x c ↦ (m.getD x []).getD c a, List.ext_getElem ?_ fun x hx hx' ↦ ?_⟩
  · rw [matrix, List.length_map, List.length_range, h.length_eq]
  · have hrow : m[x].length = lanes := h.lanes_eq _ (List.getElem_mem hx)
    simp only [matrix, List.getElem_map, List.getElem_range]
    refine List.ext_getElem ?_ fun c hc hc' ↦ ?_
    · rw [List.length_map, List.length_range, hrow]
    · simp [hx, hc]

theorem shaped_matrix (f : Nat → Nat → α) : Shaped rows lanes (matrix rows lanes f) := by
  refine ⟨?_, fun row hrow ↦ ?_⟩
  · rw [matrix, List.length_map, List.length_range]
  · obtain ⟨x, -, rfl⟩ := List.mem_map.1 hrow
    rw [List.length_map, List.length_range]

theorem mem_cells {a : Nat × Nat} : a ∈ cells rows lanes ↔ a.1 < rows ∧ a.2 < lanes := by
  obtain ⟨x, c⟩ := a
  simp [cells]

theorem pairwise_cells (rows lanes : Nat) : (cells rows lanes).Pairwise Precedes := by
  rw [cells, List.pairwise_flatMap]
  refine ⟨fun x _ ↦ ?_, ?_⟩
  · rw [List.pairwise_map]
    exact List.pairwise_lt_range.imp fun h ↦ .inr ⟨rfl, h⟩
  · refine List.pairwise_lt_range.imp fun h a ha b hb ↦ .inl ?_
    obtain ⟨c, -, rfl⟩ := List.mem_map.1 ha
    obtain ⟨d, -, rfl⟩ := List.mem_map.1 hb
    exact h

theorem length_cells (rows lanes : Nat) : (cells rows lanes).length = rows * lanes := by
  induction rows with
  | zero => simp [cells]
  | succ rows ih =>
    rw [cells, List.range_succ, List.flatMap_append, List.length_append, ← cells, ih]
    simp [Nat.succ_mul]

/-- The place of a cell in the order row by row. -/
theorem getElem?_cells {x c : Nat} (hx : x < rows) (hc : c < lanes) :
    (cells rows lanes)[x * lanes + c]? = some (x, c) := by
  induction rows with
  | zero => omega
  | succ rows ih =>
    have hlast : cells (rows + 1) lanes =
        cells rows lanes ++ (List.range lanes).map fun c ↦ (rows, c) := by
      rw [cells, List.range_succ, List.flatMap_append, List.flatMap_singleton]
      rfl
    rw [hlast]
    rcases Nat.lt_succ_iff_lt_or_eq.1 hx with hx | rfl
    · have hend := Nat.mul_le_mul_right lanes (show x + 1 ≤ rows from hx)
      rw [Nat.succ_mul] at hend
      rw [List.getElem?_append_left (by rw [length_cells]; omega)]
      exact ih hx
    · rw [List.getElem?_append_right (by rw [length_cells]; omega), length_cells]
      simp [hc]

theorem getElem?_matrix (f : Nat → Nat → α) {x c : Nat} (hx : x < rows) (hc : c < lanes) :
    (matrix rows lanes f)[x]?.bind (·[c]?) = some (f x c) := by
  simp [matrix, hx, hc]

theorem map_matrix (f : Nat → Nat → α) (g : α → β) :
    (matrix rows lanes f).map (·.map g) = matrix rows lanes fun x c ↦ g (f x c) := by
  simp only [matrix, List.map_map, Function.comp_def]

theorem flatten_matrix (f : Nat → Nat → α) :
    (matrix rows lanes f).flatten = (cells rows lanes).map fun a ↦ f a.1 a.2 := by
  rw [matrix, cells, List.map_flatMap, List.flatMap_def]
  simp only [List.map_map]
  rfl

theorem matrix_congr {f g : Nat → Nat → α} (h : ∀ x < rows, ∀ c < lanes, f x c = g x c) :
    matrix rows lanes f = matrix rows lanes g :=
  List.map_congr_left fun x hx ↦ List.map_congr_left fun c hc ↦
    h x (List.mem_range.1 hx) c (List.mem_range.1 hc)

/-- The first of some ordered elements with a property comes no later than any that has it. -/
theorem exists_find?_of_pairwise {r : α → α → Prop} {p : α → Bool} {l : List α}
    (hl : l.Pairwise r) {a : α} (ha : a ∈ l) (hp : p a = true) :
    ∃ b ∈ l, l.find? p = some b ∧ p b = true ∧ (b = a ∨ r b a) := by
  induction l with
  | nil => simp at ha
  | cons b rest ih =>
    obtain ⟨hfirst, hrest⟩ := List.pairwise_cons.1 hl
    by_cases hb : p b = true
    · refine ⟨b, List.mem_cons_self, List.find?_cons_of_pos hb, hb, ?_⟩
      rcases List.mem_cons.1 ha with rfl | ha
      · exact .inl rfl
      · exact .inr (hfirst a ha)
    · have ha' : a ∈ rest := by
        rcases List.mem_cons.1 ha with rfl | ha
        · exact absurd hp hb
        · exact ha
      obtain ⟨b', hmem, hfind, hb', hle⟩ := ih hrest ha'
      exact ⟨b', List.mem_cons_of_mem _ hmem, by rwa [List.find?_cons_of_neg hb], hb', hle⟩

/-- In an ordered list the first element with a property is the one that no other precedes. -/
theorem find?_eq_some_iff_first {r : α → α → Prop} {p : α → Bool} {l : List α}
    (hl : l.Pairwise r) (hasymm : ∀ a b, r a b → ¬ r b a) {b : α} :
    l.find? p = some b ↔ b ∈ l ∧ p b = true ∧ ∀ a ∈ l, r a b → p a = false := by
  constructor
  · intro h
    refine ⟨List.mem_of_find?_eq_some h, List.find?_some h, fun a ha hab ↦ ?_⟩
    by_contra hp
    obtain ⟨b', -, hfind, -, hle⟩ := exists_find?_of_pairwise hl ha (eq_true_of_ne_false hp)
    obtain rfl : b = b' := Option.some.inj (h.symm.trans hfind)
    rcases hle with rfl | hba
    · exact hasymm _ _ hab hab
    · exact hasymm _ _ hab hba
  · rintro ⟨hb, hp, hfirst⟩
    obtain ⟨b', hb', hfind, hp', rfl | hle⟩ := exists_find?_of_pairwise hl hb hp
    · exact hfind
    · rw [hfirst b' hb' hle] at hp'
      cases hp'

theorem precedes_asymm (a b : Nat × Nat) : Precedes a b → ¬ Precedes b a := by
  unfold Precedes
  omega

end Matrix

end Depthwise
