import Depthwise.Proofs.Computations
import Depthwise.Random.Stream
import Mathlib.Data.List.Perm.Basic
import Mathlib.Tactic.Linarith

namespace Depthwise.Random

variable {ε α β : Type}

def Yields (P : α → Prop) (d : Draw α) : Prop := ∀ s, P (d.run s).1

theorem Yields.pure {P : α → Prop} {a : α} (h : P a) : Yields P (Pure.pure a : Draw α) :=
  fun _ ↦ h

theorem Yields.bind {P : α → Prop} {Q : β → Prop} {d : Draw α} {f : α → Draw β}
    (hd : Yields P d) (hf : ∀ a, P a → Yields Q (f a)) : Yields Q (d >>= f) :=
  fun s ↦ hf _ (hd s) _

theorem Yields.mono {P Q : α → Prop} {d : Draw α} (hd : Yields P d) (h : ∀ a, P a → Q a) :
    Yields Q d :=
  fun s ↦ h _ (hd s)

theorem Yields.succeeds {P : α → Prop} {d : Draw α} (hd : Yields P d) :
    Succeeds P (liftM d : ExceptT ε Draw α) :=
  fun s ↦ ⟨_, _, rfl, hd s⟩

theorem Yields.mapM {Q : β → Prop} {f : α → Draw β} {l : List α} (h : ∀ a ∈ l, Yields Q (f a)) :
    Yields (fun bs ↦ bs.length = l.length ∧ ∀ b ∈ bs, Q b) (l.mapM f) := by
  induction l with
  | nil => exact .pure (by simp)
  | cons a rest ih =>
    rw [List.mapM_cons]
    refine (h a List.mem_cons_self).bind fun b hb ↦ ?_
    refine (ih fun b hb ↦ h b (List.mem_cons_of_mem _ hb)).bind fun bs ⟨hlength, hbs⟩ ↦ ?_
    exact .pure ⟨congrArg (· + 1) hlength, List.forall_mem_cons.2 ⟨hb, hbs⟩⟩

/-- A fold of draws yields what each of its steps preserves. -/
theorem Yields.foldlM {P : β → Prop} {f : β → α → Draw β} (h : ∀ b a, P b → Yields P (f b a))
    (l : List α) {b : β} (hb : P b) : Yields P (l.foldlM f b) := by
  induction l generalizing b with
  | nil => exact .pure hb
  | cons a rest ih =>
    rw [List.foldlM_cons]
    exact (h b a hb).bind fun b hb ↦ ih hb

theorem yields_next32 : Yields (fun word : UInt32 ↦ word.toNat < wordCount) next32 :=
  fun s ↦ (next32.run s).1.toNat_lt

variable {count : Nat}

theorem yields_scaledWord (hcount : 0 < count) (threshold tries : Nat) :
    Yields (· < wordCount * count) (scaledWord count threshold tries) := by
  induction tries with
  | zero =>
    refine yields_next32.bind fun word hword ↦ .pure ?_
    exact Nat.mul_lt_mul_of_pos_right hword hcount
  | succ tries ih =>
    refine yields_next32.bind fun word hword ↦ ?_
    dsimp only
    split
    · exact ih
    · exact .pure (Nat.mul_lt_mul_of_pos_right hword hcount)

theorem yields_below (hcount : 0 < count) : Yields (· < count) (below count) := by
  unfold below
  split
  · exact .pure hcount
  · refine (yields_scaledWord hcount _ _).bind fun product hproduct ↦ .pure ?_
    exact Nat.div_lt_of_lt_mul hproduct

theorem yields_between {low high : Int} (h : low < high) :
    Yields (fun n ↦ low ≤ n ∧ n < high) (between low high) := by
  have hcount : 0 < (high - low).toNat := by omega
  refine (yields_below hcount).bind fun n hn ↦ .pure ?_
  omega

theorem length_flatMap_bytesOf (words : List UInt32) :
    (words.flatMap bytesOf).length = 4 * words.length := by
  induction words with
  | nil => rfl
  | cons word rest ih =>
    rw [List.flatMap_cons, List.length_append, ih, List.length_cons, bytesOf]
    simp only [List.length_cons, List.length_nil]
    omega

theorem yields_bytes (count : Nat) : Yields (·.size = count) (bytes count) := by
  refine (Yields.mapM fun _ _ ↦ yields_next32).bind fun words ⟨hwords, _⟩ ↦ .pure ?_
  rw [List.length_range] at hwords
  rw [List.size_toArray, List.length_take, length_flatMap_bytesOf]
  omega

theorem exchange_perm (a : Array Nat) (i j : Nat) : (exchange a i j).toList.Perm a.toList := by
  unfold exchange Array.swapIfInBounds
  split
  · split
    · exact (Array.swap_perm _ _).toList
    · exact .refl _
  · exact .refl _

theorem yields_permutation (n : Nat) :
    Yields (·.toList.Perm (List.range n)) (permutation n) := by
  refine Yields.foldlM (fun a i ha s ↦ ?_) _ (.of_eq Array.toList_range)
  exact (exchange_perm a i _).trans ha

end Depthwise.Random
