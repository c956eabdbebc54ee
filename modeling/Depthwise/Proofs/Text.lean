import Depthwise.Failure
import Mathlib.Algebra.Group.Nat.Defs

namespace Depthwise

namespace Text

variable {m n : Int} {parts : List Part}

theorem Short.of_natAbs_le (hn : Short n) (h : m.natAbs ≤ n.natAbs) : Short m :=
  Nat.lt_of_le_of_lt h hn

/-- A bound on the digits of a number, in place of the number itself. -/
theorem short_of_natAbs_lt (digits : Nat) (h : n.natAbs < 10 ^ digits)
    (hdigits : digits ≤ 4300) : Short n := by
  have hlimit : digits ≤ digitLimit := by rwa [digitLimit]
  exact Nat.lt_of_lt_of_le h (Nat.pow_le_pow_right (by decide) hlimit)

@[simp] theorem Part.short_words (s : String) : (Part.words s).Short := trivial

@[simp] theorem Part.short_number : (Part.number n).Short ↔ Text.Short n := .rfl

theorem write_ok (h : ∀ p ∈ parts, p.Short) : write parts = .ok (plain parts) := if_pos h

theorem write_error (h : ¬ ∀ p ∈ parts, p.Short) : write parts = .error .unusableValue := if_neg h

end Text

namespace Settings

variable {s : Settings}

def Describable (s : Settings) : Prop := ∀ p ∈ s.description, p.Short

instance (s : Settings) : Decidable s.Describable := inferInstanceAs (Decidable (∀ p ∈ _, _))

theorem describe_ok (h : s.Describable) : s.describe = .ok (Text.plain s.description) :=
  Text.write_ok h

theorem describe_error (h : ¬ s.Describable) : s.describe = .error .unusableValue :=
  Text.write_error h

theorem Describable.short_width (h : s.Describable) : Text.Short s.width :=
  h (.number s.width) (by simp [description])

theorem Describable.short_channels (h : s.Describable) : Text.Short s.channels :=
  h (.number s.channels) (by simp [description])

end Settings

namespace Error

variable {wording : List Text.Part} {e : Error}

theorem worded_of_short (h : ∀ p ∈ wording, p.Short) : worded wording e = e := by
  rw [worded, Text.write_ok h]

theorem worded_of_long (h : ¬ ∀ p ∈ wording, p.Short) :
    worded wording e = .fault .unusableValue := by
  rw [worded, Text.write_error h]

theorem worded_cases (wording : List Text.Part) (e : Error) :
    worded wording e = e ∨ worded wording e = .fault .unusableValue := by
  by_cases h : ∀ p ∈ wording, p.Short
  · exact .inl (worded_of_short h)
  · exact .inr (worded_of_long h)

/-- An error that has a text. -/
def Utterable (e : Error) : Prop := ∀ p ∈ e.wording, p.Short

instance (e : Error) : Decidable e.Utterable := inferInstanceAs (Decidable (∀ p ∈ _, _))

theorem utterable_fault (f : Fault) : (fault f).Utterable := List.forall_mem_nil _

theorem utterable_worded (e : Error) : (worded e.wording e).Utterable := by
  by_cases h : ∀ p ∈ e.wording, p.Short
  · rwa [worded_of_short h]
  · rw [worded_of_long h]
    exact utterable_fault _

theorem Utterable.short_listing (h : e.Utterable) : ∀ p ∈ e.listing, p.Short := by
  cases e with
  | failure f => exact h
  | flaw | rejection | shortBuffer | fault | complaint => exact List.forall_mem_cons.2 ⟨trivial, h⟩

end Error

namespace Failure

variable {cause : Cause} {trial seed : Int}

theorem short_wording_iff : (∀ p ∈ (Failure.mk cause (some trial) (some seed)).wording, p.Short) ↔
    (∀ p ∈ cause.wording, p.Short) ∧ Text.Short trial ∧ Text.Short seed := by
  have hwording : (Failure.mk cause (some trial) (some seed)).wording =
      cause.wording ++ [.words " ("] ++ ([.words "trial = ", .number trial, .words ", ",
        .words "seed = ", .number seed] : List Text.Part) ++ [.words ")"] := rfl
  rw [hwording]
  simp [or_imp, forall_and]

theorem raise_of_short (hcause : ∀ p ∈ cause.wording, p.Short) (htrial : Text.Short trial)
    (hseed : Text.Short seed) :
    (Failure.mk cause (some trial) (some seed)).raise = .failure ⟨cause, some trial, some seed⟩ :=
  Error.worded_of_short (short_wording_iff.2 ⟨hcause, htrial, hseed⟩)

theorem raise_of_long (h : ¬ (Text.Short trial ∧ Text.Short seed)) :
    (Failure.mk cause (some trial) (some seed)).raise = .fault .unusableValue :=
  Error.worded_of_long fun hshort ↦ h (short_wording_iff.1 hshort).2

end Failure

end Depthwise
