import Depthwise.Proofs.Config

namespace Depthwise

/-- Settings as they are documented: the rules, and a kernel that has a height and a width. -/
structure Settings.Documented (s : Settings) : Prop extends s.Regular where
  kernelHeight_pos : 1 ≤ s.kernelHeight
  kernelWidth_pos : 1 ≤ s.kernelWidth

def Settings.stages (s : Settings) : List (Settings → Settings) → List Settings
  | [] => [s]
  | change :: changes => s :: stages (change s) changes

/-- The sizes that buffers can have: at least one tap, an entry for each tap, and room for a guard
and a row. -/
structure Settings.Roomy (s : Settings) : Prop where
  kernelSize_pos : 1 ≤ s.kernelSize
  kernelSize_le_tableSize : s.kernelSize ≤ s.tableSize
  le_inputSize : s.channels + guardSize ≤ s.inputSize
  channels_le_outputSize : s.channels ≤ s.outputSize

namespace Settings

variable {s : Settings}

theorem foldl_mem_stages (s : Settings) (changes : List (Settings → Settings)) :
    changes.foldl (fun s change ↦ change s) s ∈ s.stages changes := by
  induction changes generalizing s with
  | nil => exact List.mem_singleton_self s
  | cons change changes ih => exact List.mem_cons_of_mem _ (ih (change s))

theorem Regular.documented_iff (h : s.Regular) :
    s.Documented ↔ 0 ≤ s.kernelHeight ∧ 0 ≤ s.kernelWidth := by
  have hheight := h.kernelHeight_ne
  have hwidth := h.kernelWidth_ne
  constructor
  · intro hs
    have := hs.kernelHeight_pos
    have := hs.kernelWidth_pos
    omega
  · rintro ⟨hheight', hwidth'⟩
    exact ⟨h, by omega, by omega⟩

theorem Documented.roomy (h : s.Documented) : s.Roomy := by
  have hkernelSize := kernelSize_pos h.kernelHeight_pos h.kernelWidth_pos
  have hwidth := h.width_pos
  have hchannels := h.channels_pos
  have htable : s.kernelSize ≤ s.tableSize := by
    have hfirst := h.tap_lt_tableSize h.kernelHeight_pos (x := 0) (by omega)
    omega
  have hrows : 0 ≤ (s.tableSize - 1) * s.effectiveInputStride := by
    have hstride := h.channels_le_inputStride
    exact mul_nonneg (by omega) (by omega)
  have houtput : 0 ≤ (s.width - 1) * s.effectiveOutputStride := by
    have hstride := h.channels_le_outputStride
    exact mul_nonneg (by omega) (by omega)
  refine ⟨hkernelSize, htable, ?_, ?_⟩
  · rw [inputSize]
    omega
  · rw [outputSize]
    omega

end Settings

namespace Config

variable {s : Settings}

def construct (s : Settings) (changes : List (Settings → Settings)) :
    Except Settings.Flaw Config := do
  changes.foldlM revise (← ofSettings s)

theorem ofSettings_eq_ok_iff {c : Config} :
    ofSettings s = .ok c ↔ s.Regular ∧ c.toSettings = s := by
  rw [← Settings.flaw?_eq_none_iff]
  unfold ofSettings
  split
  · next h =>
    rw [Except.ok.injEq]
    refine ⟨?_, ?_⟩
    · rintro rfl
      exact ⟨h, rfl⟩
    · rintro ⟨-, rfl⟩
      rfl
  · next flaw h => simp [h]

theorem construct_cons (change : Settings → Settings) (changes : List (Settings → Settings)) :
    construct s (change :: changes) = (ofSettings s >>= fun _ ↦ construct (change s) changes) := by
  rcases h : ofSettings s with flaw | c
  · rw [construct, h]
    rfl
  · obtain ⟨-, rfl⟩ := ofSettings_eq_ok_iff.1 h
    rw [construct, h]
    rfl

theorem construct_eq_ok_iff {changes : List (Settings → Settings)} {c : Config} :
    construct s changes = .ok c ↔ (∀ r ∈ s.stages changes, r.Regular) ∧
      c.toSettings = changes.foldl (fun s change ↦ change s) s := by
  induction changes generalizing s with
  | nil =>
    rw [Settings.stages, List.forall_mem_singleton, List.foldl_nil,
      ← ofSettings_eq_ok_iff, construct]
    rcases ofSettings s with flaw | c' <;> rfl
  | cons change changes ih =>
    rw [construct_cons, Settings.stages, List.forall_mem_cons, List.foldl_cons, and_assoc, ← ih]
    rcases h : ofSettings s with flaw | c'
    · refine iff_of_false (by rintro ⟨⟩) fun hs ↦ ?_
      obtain ⟨c', hc'⟩ : ∃ c', ofSettings s = .ok c' :=
        ⟨⟨s, Settings.flaw?_of_regular hs.1⟩, ofSettings_eq_ok_iff.2 ⟨hs.1, rfl⟩⟩
      rw [h] at hc'
      cases hc'
    · exact (and_iff_right (ofSettings_eq_ok_iff.1 h).1).symm

theorem exists_construct_iff {changes : List (Settings → Settings)} :
    (∃ c, construct s changes = .ok c) ↔ ∀ r ∈ s.stages changes, r.Regular := by
  simp only [construct_eq_ok_iff, exists_and_left]
  refine and_iff_left_of_imp fun h ↦ ?_
  exact ⟨⟨_, Settings.flaw?_of_regular (h _ (s.foldl_mem_stages changes))⟩, rfl⟩

/-- A chain of settings is accepted exactly when all of them are regular. These are the documented
ones unless an accepted chain has a kernel height or width below zero. A configuration without such
a height or width gives its buffers room. -/
theorem construct_accepts (s : Settings) (changes : List (Settings → Settings)) :
    (∀ c, construct s changes = .ok c ↔ (∀ r ∈ s.stages changes, r.Regular) ∧
      c.toSettings = changes.foldl (fun s change ↦ change s) s) ∧
    ((∃ c, construct s changes = .ok c) ↔ ∀ r ∈ s.stages changes, r.Regular) ∧
    (((∃ c, construct s changes = .ok c) ↔ ∀ r ∈ s.stages changes, r.Documented) ↔
      ((∀ r ∈ s.stages changes, r.Regular) →
        ∀ r ∈ s.stages changes, 0 ≤ r.kernelHeight ∧ 0 ≤ r.kernelWidth)) ∧
    ∀ c, construct s changes = .ok c → 0 ≤ c.kernelHeight → 0 ≤ c.kernelWidth →
      c.toSettings.Roomy := by
  refine ⟨fun c ↦ construct_eq_ok_iff, exists_construct_iff, ?_, fun c _ hheight hwidth ↦
    (c.regular.documented_iff.2 ⟨hheight, hwidth⟩).roomy⟩
  rw [exists_construct_iff]
  constructor
  · intro h hregular r hr
    exact ((hregular r hr).documented_iff).1 (h.1 hregular r hr)
  · intro h
    refine ⟨fun hregular r hr ↦ ?_, fun hdocumented r hr ↦ (hdocumented r hr).toRegular⟩
    exact (hregular r hr).documented_iff.2 (h hregular r hr)

def wideningChanges : List (Settings → Settings) :=
  [fun s ↦ { s with channels := 5, tile := 8 }, fun s ↦ { s with width := 3, inputStride := 7 }]

theorem construct_accepts_widening :
    ∃ c, construct { kernelHeight := 3, kernelWidth := 3 } wideningChanges = .ok c ∧
      c.channels = 5 ∧ 0 ≤ c.kernelHeight ∧ 0 ≤ c.kernelWidth ∧ c.toSettings.Roomy := by
  obtain ⟨heq, -, -, hroomy⟩ :=
    construct_accepts { kernelHeight := 3, kernelWidth := 3 } wideningChanges
  have hc : construct { kernelHeight := 3, kernelWidth := 3 } wideningChanges = .ok
      ⟨⟨3, 3, 3, 1, 5, 8, 7, 0, 0, 255, 3⟩, by decide⟩ := rfl
  exact ⟨_, hc, rfl, by decide, by decide, hroomy _ hc (by decide) (by decide)⟩

/-- A kernel of height -1 is accepted, although a height of at least 1 is documented. It has -1
taps, and its input is shorter than a guard and a row. -/
theorem construct_negativeHeight :
    (∃ c, construct { kernelHeight := -1 } [] = .ok c ∧ c.kernelSize = -1 ∧
        c.tableSize = -1 ∧ c.inputSize < c.channels + Settings.guardSize) ∧
      ¬ ({ kernelHeight := -1 } : Settings).Documented :=
  ⟨⟨⟨{ kernelHeight := -1 }, by decide⟩, rfl, by decide, by decide, by decide⟩,
    fun h ↦ absurd h.kernelHeight_pos (by decide)⟩

end Config

end Depthwise
