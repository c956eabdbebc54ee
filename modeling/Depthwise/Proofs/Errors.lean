import Depthwise.Proofs.Computations
import Depthwise.Proofs.Text

namespace Depthwise

/-- A result that can only be an error with a property. -/
def Throws {α : Type} (P : Error → Prop) (r : Except Error α) : Prop := ∀ e, r = .error e → P e

/-- A computation that can only fail with such an error. -/
def Raises {σ α : Type} (P : Error → Prop) (x : ExceptT Error (StateM σ) α) : Prop :=
  ∀ s, Throws P (x.run.run s).1

/-- A property that the errors before the verdict of a trial have, those of the collaborators
apart. -/
structure Ordinary (P : Error → Prop) : Prop where
  fault : ∀ f, P (.fault f)
  shortBuffer : P .shortBuffer
  rejection : ∀ rejection : FixedPoint.Rejection, P rejection.raise
  degenerate : ∀ data trial seed, P (Failure.mk (.degenerate data) trial seed).raise

theorem ordinary_utterable : Ordinary Error.Utterable where
  fault := Error.utterable_fault
  shortBuffer := List.forall_mem_nil _
  rejection rejection := Error.utterable_worded (.rejection rejection)
  degenerate data trial seed := Error.utterable_worded (.failure ⟨.degenerate data, trial, seed⟩)

variable {σ α β : Type} {P : Error → Prop}

namespace Throws

theorem ok (a : α) : Throws P (.ok a) := fun _ h ↦ nomatch h

theorem error {e : Error} (h : P e) : Throws P (.error e : Except Error α) := by
  rintro _ ⟨⟩
  exact h

theorem lift_fault (hP : ∀ f, P (.fault f)) (r : Except Fault α) :
    Throws P (liftM r : Except Error α) := by
  cases r with
  | error f => exact error (hP f)
  | ok a => exact ok a

theorem bind {r : Except Error α} {f : α → Except Error β} (hr : Throws P r)
    (hf : ∀ a, Throws P (f a)) : Throws P (r >>= f) := by
  cases r with
  | error e => exact error (hr e rfl)
  | ok a => exact hf a

theorem mapM {f : α → Except Error β} {l : List α} (h : ∀ a ∈ l, Throws P (f a)) :
    Throws P (l.mapM f) := by
  intro e he
  obtain ⟨a, ha, hrun⟩ := exists_of_mapM_error he
  exact h a ha e hrun

theorem collect {f : Nat → Except Error α} (h : ∀ i, Throws P (f i)) (first count : Nat) :
    Throws P (Counting.collect f first count) := by
  induction count generalizing first with
  | zero => exact ok []
  | succ count ih => exact (h first).bind fun _ ↦ (ih (first + 1)).bind fun _ ↦ ok _

end Throws

namespace Raises

theorem pure (a : α) : Raises P (Pure.pure a : ExceptT Error (StateM σ) α) := fun _ ↦ .ok a

theorem liftM {r : Except Error α} (h : Throws P r) :
    Raises P (MonadLiftT.monadLift r : ExceptT Error (StateM σ) α) := fun _ ↦ h

theorem bind {x : ExceptT Error (StateM σ) α} {f : α → ExceptT Error (StateM σ) β}
    (hx : Raises P x) (hf : ∀ a, Raises P (f a)) : Raises P (x >>= f) := by
  intro s
  rcases hrun : x.run.run s with ⟨e | a, s'⟩
  · have hresult := hx s
    rw [hrun] at hresult
    rw [run_bind_error hrun]
    exact .error (hresult e rfl)
  · rw [run_bind_ok hrun]
    exact hf a s'

theorem forEach {f : Nat → ExceptT Error (StateM σ) Unit} (h : ∀ i, Raises P (f i))
    (first count : Nat) : Raises P (Counting.forEach f first count) := by
  induction count generalizing first with
  | zero => exact .pure ()
  | succ count ih => exact .bind (h first) fun _ ↦ ih (first + 1)

theorem collect {f : Nat → ExceptT Error (StateM σ) α} (h : ∀ i, Raises P (f i))
    (first count : Nat) : Raises P (Counting.collect f first count) := by
  induction count generalizing first with
  | zero => exact .pure []
  | succ count ih => exact .bind (h first) fun _ ↦ .bind (ih (first + 1)) fun _ ↦ .pure _

end Raises

end Depthwise
