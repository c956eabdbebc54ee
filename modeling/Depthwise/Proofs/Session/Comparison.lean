import Depthwise.Proofs.History
import Depthwise.Proofs.Output
import Depthwise.Proofs.Quantization.Expected
import Depthwise.Proofs.Text
import Depthwise.Session.Trial

namespace Depthwise

namespace Session

section Steps

variable {σ α : Type} {s : Session σ} {a : α}

theorem run_liftM_fault_ok {r : Except Fault α} (h : r = .ok a) (s : Session σ) :
    (liftM r : Run σ α).run.run s = (.ok a, s) := by
  subst h
  rfl

theorem run_liftM_fault_error {r : Except Fault α} {e : Fault} (h : r = .error e)
    (s : Session σ) : (liftM r : Run σ α).run.run s = (.error (.fault e), s) := by
  subst h
  rfl

theorem run_call {c : Collaboration σ α} {result : Except Error α} {outside : σ}
    (h : c.run.run s.outside = (result, outside)) :
    (call c).run.run s = (result, { s with outside }) := by
  change ((c.run.run s.outside).1, { s with outside := (c.run.run s.outside).2 }) = _
  rw [h]

theorem run_draw {d : Drawing α} {result : Except Error α} {stream : Random.Stream}
    (h : d.run.run s.stream = (result, stream)) :
    (draw d : Run σ α).run.run s = (result, { s with stream }) := by
  change ((d.run.run s.stream).1, { s with stream := (d.run.run s.stream).2 }) = _
  rw [h]

theorem run_keep_ok {r : Recording α} {history : History}
    (h : r.run.run s.history = (.ok a, history)) :
    (keep r : Run σ α).run.run s = (.ok a, { s with history }) := by
  change ((r.run.run s.history).1.mapError Error.fault,
    { s with history := (r.run.run s.history).2 }) = _
  rw [h]
  rfl

end Steps

variable {σ : Type} {rows lanes : Nat} {expected : Nat → Nat → Double} {observed : Nat → Nat → Int}

/-- Every distance past the tolerance is found, whatever the shapes. -/
theorem lt_eq_false_of_firstExceeding {expected : List (List Double)} {observed : List (List Int)}
    (h : firstExceeding expected observed = none) :
    ∀ d ∈ (Metrics.absErrors expected observed).flatten, Affine.tolerance.lt d = false := by
  intro d hd
  simp only [Metrics.absErrors, ← List.map_uncurry_zip_eq_zipWith, List.mem_flatten, List.mem_map]
    at hd
  obtain ⟨_, ⟨⟨row, codes⟩, hrow, rfl⟩, hd⟩ := hd
  obtain ⟨⟨e, o⟩, hcell, rfl⟩ := List.mem_map.1 hd
  obtain ⟨x, hx⟩ := List.mem_iff_getElem?.1 hrow
  obtain ⟨c, hc⟩ := List.mem_iff_getElem?.1 hcell
  have hmem : (x, c, e, o) ∈ (expected.zip observed).zipIdx.flatMap fun a ↦
      (a.1.1.zip a.1.2).zipIdx.map fun b ↦ (a.2, b.2, b.1.1, b.1.2) :=
    List.mem_flatMap.2 ⟨((row, codes), x), List.mem_zipIdx_iff_getElem?.2 hx,
      List.mem_map.2 ⟨((e, o), c), List.mem_zipIdx_iff_getElem?.2 hc, rfl⟩⟩
  exact Bool.eq_false_iff.2 (List.find?_eq_none.1 h _ hmem)

theorem exists_of_firstExceeding {expected : List (List Double)} {observed : List (List Int)}
    {x c : Nat} {e : Double} {o : Int} (h : firstExceeding expected observed = some (x, c, e, o)) :
    ∃ row, observed[x]? = some row ∧ row[c]? = some o := by
  have hmem := List.mem_of_find?_eq_some h
  obtain ⟨⟨⟨row, codes⟩, x'⟩, hrow, hcell⟩ := List.mem_flatMap.1 hmem
  obtain ⟨⟨⟨e', o'⟩, c'⟩, hcell, heq⟩ := List.mem_map.1 hcell
  cases heq
  rw [List.mem_zipIdx_iff_getElem?, List.getElem?_zip_eq_some] at hrow hcell
  exact ⟨codes, hrow.2, hcell.2⟩

def elements (expected : List (List Double)) (observed : List (List Int)) :
    List (Nat × Nat × Double × Int) :=
  (expected.zip observed).zipIdx.flatMap fun ((row, codes), x) ↦
    (row.zip codes).zipIdx.map fun ((e, o), c) ↦ (x, c, e, o)

theorem elements_matrix : elements (matrix rows lanes expected) (matrix rows lanes observed) =
    (cells rows lanes).map fun a ↦ (a.1, a.2, expected a.1 a.2, observed a.1 a.2) := by
  have hrow : ∀ x, (((List.range lanes).map (expected x)).zip
      ((List.range lanes).map (observed x))).zipIdx.map
        (fun a ↦ (x, a.2, a.1.1, a.1.2)) =
      (List.range lanes).map fun c ↦ (x, c, expected x c, observed x c) := by
    intro x
    rw [List.zip_map', zipIdx_map_range, List.map_map]
    rfl
  rw [elements, matrix, matrix, List.zip_map', zipIdx_map_range, List.flatMap_map, cells,
    List.map_flatMap]
  simp only [hrow, List.map_map, Function.comp_def]

theorem firstExceeding_matrix :
    firstExceeding (matrix rows lanes expected) (matrix rows lanes observed) =
      ((cells rows lanes).find? fun a ↦
        Affine.tolerance.lt (expected a.1 a.2 - .ofInt (observed a.1 a.2)).abs).map fun a ↦
          (a.1, a.2, expected a.1 a.2, observed a.1 a.2) := by
  calc firstExceeding (matrix rows lanes expected) (matrix rows lanes observed)
      = (elements (matrix rows lanes expected) (matrix rows lanes observed)).find?
          fun a ↦ Affine.tolerance.lt (a.2.2.1 - .ofInt a.2.2.2).abs := rfl
    _ = _ := by
      rw [elements_matrix, List.find?_map]
      rfl

variable {config : Config} {written : Bytes}

def originIn (config : Config) (index seed : Int) : List (String × Report.Value) :=
  originOf (Text.plain config.description) index seed

def enterTrial (config : Config) (index seed : Int) (m : Metrics) (h : History) : History :=
  h.enter m (originIn config index seed) (Text.plain config.description)

/-- The history after a trial that has been measured. A trial without a description is not
recorded. -/
def noted (config : Config) (index seed : Int) (m : Metrics) (h : History) : History :=
  if config.Describable then enterTrial config index seed m h else h

def settle (index seed : Int) (m : Metrics) (exceeding? : Option (Nat × Nat × Double × Int))
    (changed : Except Error (Option Int)) : Except Error Metrics :=
  if 0 < m.numFailures then
    match exceeding? with
    | some (x, c, e, o) =>
      .error (Failure.raise ⟨.toleranceExceeded x c e o Affine.tolerance, some index, some seed⟩)
    | none => .error (.fault .indexOutOfRange)
  else
    match changed with
    | .ok none => .ok m
    | .ok (some place) => .error (Failure.raise ⟨.outputCorrupted place, some index, some seed⟩)
    | .error e => .error e

section Measured

variable {output : Affine} {accs : List (List Int)} {rows : List (List UInt8)} {m : Metrics}
  (hrows : Output.rows config.toSettings written = .ok rows)
  (hm : Metrics.compute (accs.map (·.map (output.expected config.qmin config.qmax)))
    (rows.map (·.map fun code ↦ (code.toNat : Int) - output.zeroPoint)) Affine.tolerance
    output.scale output.zeroPoint = .ok m)

include hrows hm

/-- A comparison of codes that could be read records the trial, whatever it gives in the end. -/
theorem compare_recorded (hdescribe : config.Describable) (index seed : Int)
    (padding : List (Int × UInt8)) (s : Session σ) :
    (compare config index seed padding output accs written : Run σ Metrics).run.run s =
      (settle index seed m
        (firstExceeding (accs.map (·.map (output.expected config.qmin config.qmax)))
          (rows.map (·.map fun code ↦ (code.toNat : Int) - output.zeroPoint)))
        (Output.firstChanged padding written),
      { s with history := enterTrial config index seed m s.history }) := by
  have hconfig : (originIn config index seed).lookup "config" =
      some (.text (Text.plain config.description)) := rfl
  have hrecord := History.record_ok (Metrics.compute_spec hm).1 hconfig s.history
  rw [compare]
  refine (run_bind_ok (run_liftM_ok hrows s)).trans ?_
  refine (run_bind_ok (run_liftM_fault_ok hm s)).trans ?_
  refine (run_bind_ok (run_liftM_fault_ok (Settings.describe_ok hdescribe) s)).trans ?_
  refine (run_bind_ok (run_keep_ok hrecord)).trans ?_
  unfold settle
  split_ifs
  · rcases firstExceeding _ _ with _ | ⟨x, c, e, o⟩ <;> rfl
  · rcases Output.firstChanged padding written with e | _ | place <;> rfl

/-- Without a description of its configuration a trial is not recorded. -/
theorem compare_undescribed (hdescribe : ¬ config.Describable) (index seed : Int)
    (padding : List (Int × UInt8)) (s : Session σ) :
    (compare config index seed padding output accs written : Run σ Metrics).run.run s =
      (.error (.fault .unusableValue), s) := by
  rw [compare]
  refine (run_bind_ok (run_liftM_ok hrows s)).trans ?_
  refine (run_bind_ok (run_liftM_fault_ok hm s)).trans ?_
  exact run_bind_error (run_liftM_fault_error (Settings.describe_error hdescribe) s)

end Measured

/-- A comparison fails without a trace or records its trial, and it does so in every session. -/
theorem compare_cases (config : Config) (index seed : Int) (padding : List (Int × UInt8))
    (output : Affine) (accs : List (List Int)) (written : Bytes) :
    (∃ f, ∀ s : Session σ, (compare config index seed padding output accs written :
        Run σ Metrics).run.run s = (.error (.fault f), s)) ∨
      ∃ m r, ∀ s : Session σ, (compare config index seed padding output accs written :
        Run σ Metrics).run.run s =
          (r, { s with history := enterTrial config index seed m s.history }) := by
  rcases hrows : Output.rows config.toSettings written with e | rows
  · obtain ⟨x, -, hrow⟩ := exists_of_mapM_error hrows
    dsimp only at hrow
    split at hrow <;> cases hrow
    exact .inl ⟨_, fun s ↦ run_bind_error (run_liftM_error hrows s)⟩
  rcases hm : Metrics.compute (accs.map (·.map (output.expected config.qmin config.qmax)))
      (rows.map (·.map fun code ↦ (code.toNat : Int) - output.zeroPoint)) Affine.tolerance
      output.scale output.zeroPoint with e | m
  · exact .inl ⟨e, fun s ↦ (run_bind_ok (run_liftM_ok hrows s)).trans
      (run_bind_error (run_liftM_fault_error hm s))⟩
  by_cases hdescribe : config.Describable
  · exact .inr ⟨m, _, compare_recorded hrows hm hdescribe index seed padding⟩
  · exact .inl ⟨_, compare_undescribed hrows hm hdescribe index seed padding⟩

def observedAt (config : Config) (output : Affine) (written : Bytes) (x c : Nat) : Int :=
  ((written.getD (x * config.effectiveOutputStride.toNat + c) 0).toNat : Int) - output.zeroPoint

def exceeds (config : Config) (output : Affine) (acc : Nat → Nat → Int) (written : Bytes)
    (a : Nat × Nat) : Bool :=
  Affine.tolerance.lt (output.expected config.qmin config.qmax (acc a.1 a.2) -
    .ofInt (observedAt config output written a.1 a.2)).abs

theorem abs_observedAt_le {output : Affine}
    (hzero : 0 ≤ output.zeroPoint ∧ output.zeroPoint ≤ 255) (written : Bytes) (x c : Nat) :
    |observedAt config output written x c| ≤ 255 := by
  have hbyte := (written.getD (x * config.effectiveOutputStride.toNat + c) 0).toNat_lt
  rw [observedAt, abs_le]
  constructor <;> omega

theorem exceeds_iff_lt {output : Affine} (hsane : Affine.Sane output.scale)
    (hzero : 0 ≤ output.zeroPoint ∧ output.zeroPoint ≤ 255) {acc : Nat → Nat → Int} {x c : Nat}
    (hacc : |acc x c| ≤ 2 ^ 32) (written : Bytes) :
    exceeds config output acc written (x, c) = true ↔
      3 / 5 < |(output.expected config.qmin config.qmax (acc x c)).toRat -
        observedAt config output written x c| := by
  have hs := config.regular
  exact Affine.tolerance_lt_iff
    (Affine.expected_spec hsane hacc hzero hs.qmin_nonneg hs.qmin_le_qmax hs.qmax_le).1
    ((Affine.abs_expected_le hsane hacc hzero hs.qmin_nonneg hs.qmin_le_qmax hs.qmax_le).trans
      (by norm_num)) ((abs_observedAt_le hzero written x c).trans (by norm_num))

def verdict (config : Config) (index seed : Int) (padding : List (Int × UInt8)) (output : Affine)
    (acc : Nat → Nat → Int) (written : Bytes) (metrics : Metrics) : Except Error Metrics :=
  if config.Describable then
    match (cells config.width.toNat config.channels.toNat).find?
      (exceeds config output acc written) with
    | some (x, c) => .error (Failure.raise ⟨.toleranceExceeded x c
        (output.expected config.qmin config.qmax (acc x c)) (observedAt config output written x c)
        Affine.tolerance, some index, some seed⟩)
    | none =>
      match Output.firstChanged padding written with
      | .ok none => .ok metrics
      | .ok (some place) =>
        .error (Failure.raise ⟨.outputCorrupted place, some index, some seed⟩)
      | .error e => .error e
  else .error (.fault .unusableValue)

theorem exists_metrics (config : Config) (output : Affine) (acc : Nat → Nat → Int)
    (written : Bytes) :
    ∃ m, Metrics.compute
        (matrix config.width.toNat config.channels.toNat fun x c ↦
          output.expected config.qmin config.qmax (acc x c))
        (matrix config.width.toNat config.channels.toNat (observedAt config output written))
        Affine.tolerance output.scale output.zeroPoint = .ok m ∧ 0 ≤ m.numFailures ∧
      (m.numFailures = 0 ↔ ∀ a ∈ cells config.width.toNat config.channels.toNat,
        exceeds config output acc written a = false) := by
  have hwidth := config.regular.width_pos
  have hchannels := config.regular.channels_pos
  obtain ⟨m, hm, -, hfail⟩ :
      ∃ m, Metrics.compute
          (matrix config.width.toNat config.channels.toNat fun x c ↦
            output.expected config.qmin config.qmax (acc x c))
          (matrix config.width.toNat config.channels.toNat (observedAt config output written))
          Affine.tolerance output.scale output.zeroPoint = .ok m ∧
        m.totalElements = (cells config.width.toNat config.channels.toNat).length ∧
        m.numFailures = ((cells config.width.toNat config.channels.toNat).filter
          (exceeds config output acc written)).length :=
    Metrics.compute_ok (by omega) (by omega) _ _ _
  refine ⟨m, hm, by omega, ?_⟩
  rw [hfail, Int.natCast_eq_zero, List.length_eq_zero_iff, List.filter_eq_nil_iff]
  simp only [Bool.not_eq_true]

theorem settle_eq_verdict {output : Affine} {acc : Nat → Nat → Int} {m : Metrics}
    (hdescribe : config.Describable) (hnonneg : 0 ≤ m.numFailures)
    (hnone : m.numFailures = 0 ↔ ∀ a ∈ cells config.width.toNat config.channels.toNat,
      exceeds config output acc written a = false)
    (index seed : Int) (padding : List (Int × UInt8)) :
    settle index seed m
        (firstExceeding
          (matrix config.width.toNat config.channels.toNat fun x c ↦
            output.expected config.qmin config.qmax (acc x c))
          (matrix config.width.toNat config.channels.toNat (observedAt config output written)))
        (Output.firstChanged padding written) =
      verdict config index seed padding output acc written m := by
  cases hfind : (cells config.width.toNat config.channels.toNat).find?
      (exceeds config output acc written) with
  | none =>
    have hzero : m.numFailures = 0 := hnone.2 fun a ha ↦
      Bool.eq_false_iff.2 (List.find?_eq_none.1 hfind a ha)
    unfold settle
    rw [if_neg (by omega), verdict, if_pos hdescribe, hfind]
  | some a =>
    obtain ⟨x, c⟩ := a
    have hne : m.numFailures ≠ 0 := fun hzero ↦ by
      have hfalse := hnone.1 hzero _ (List.mem_of_find?_eq_some hfind)
      rw [List.find?_some hfind] at hfalse
      cases hfalse
    have hfirst : firstExceeding
        (matrix config.width.toNat config.channels.toNat fun x c ↦
          output.expected config.qmin config.qmax (acc x c))
        (matrix config.width.toNat config.channels.toNat (observedAt config output written)) =
          some (x, c, output.expected config.qmin config.qmax (acc x c),
            observedAt config output written x c) := by
      rw [firstExceeding_matrix]
      exact congrArg (Option.map _) hfind
    unfold settle
    rw [if_pos (by omega), verdict, if_pos hdescribe, hfind, hfirst]

/-- A comparison records the trial and gives its verdict. -/
theorem compare_run (output : Affine) (acc : Nat → Nat → Int)
    (hsize : (written.size : Int) = config.outputSize) (index seed : Int)
    (padding : List (Int × UInt8)) (s : Session σ) :
    ∃ metrics, Metrics.compute
        (matrix config.width.toNat config.channels.toNat fun x c ↦
          output.expected config.qmin config.qmax (acc x c))
        (matrix config.width.toNat config.channels.toNat (observedAt config output written))
        Affine.tolerance output.scale output.zeroPoint = .ok metrics ∧
      (metrics.numFailures = 0 ↔ ∀ a ∈ cells config.width.toNat config.channels.toNat,
        exceeds config output acc written a = false) ∧
      (compare config index seed padding output
        (matrix config.width.toNat config.channels.toNat acc) written : Run σ Metrics).run.run s =
        (verdict config index seed padding output acc written metrics,
          { s with history := noted config index seed metrics s.history }) := by
  have hrows := Output.rows_ok config.regular hsize
  obtain ⟨m, hm, hnonneg, hnone⟩ := exists_metrics config output acc written
  have hcompute : Metrics.compute
      ((matrix config.width.toNat config.channels.toNat acc).map
        (·.map (output.expected config.qmin config.qmax)))
      ((matrix config.width.toNat config.channels.toNat fun x c ↦
        written.getD (x * config.effectiveOutputStride.toNat + c) 0).map
          (·.map fun code ↦ (code.toNat : Int) - output.zeroPoint))
      Affine.tolerance output.scale output.zeroPoint = .ok m := by
    rw [map_matrix, map_matrix]
    exact hm
  refine ⟨m, hm, hnone, ?_⟩
  by_cases hdescribe : config.Describable
  · have hsettle := settle_eq_verdict hdescribe hnonneg hnone index seed padding
    rw [compare_recorded hrows hcompute hdescribe, map_matrix, map_matrix, noted, if_pos hdescribe]
    exact congrArg (·, _) hsettle
  · rw [compare_undescribed hrows hcompute hdescribe, verdict, noted, if_neg hdescribe,
      if_neg hdescribe]

/-- A trial whose verdict can be written: no number that it names has too many digits. -/
structure Legible (s : Settings) (index seed : Int) : Prop where
  describable : s.Describable
  index : Text.Short index
  seed : Text.Short seed

instance (s : Settings) (index seed : Int) : Decidable (Legible s index seed) :=
  decidable_of_iff (s.Describable ∧ Text.Short index ∧ Text.Short seed)
    ⟨fun h ↦ ⟨h.1, h.2.1, h.2.2⟩, fun h ↦ ⟨h.describable, h.index, h.seed⟩⟩

/-- What a code past the tolerance raises where its configuration can be described. -/
theorem raise_exceeded {index seed : Int} (hdescribe : config.Describable) {x c : Nat}
    (hx : x < config.width.toNat) (hc : c < config.channels.toNat) (e : Double) {o : Int}
    (ho : |o| ≤ 255) :
    (Failure.mk (.toleranceExceeded x c e o Affine.tolerance) (some index) (some seed)).raise =
      if Legible config.toSettings index seed then
        .failure ⟨.toleranceExceeded x c e o Affine.tolerance, some index, some seed⟩
      else .fault .unusableValue := by
  split_ifs with h
  · have hrow : Text.Short x := hdescribe.short_width.of_natAbs_le (by omega)
    have hlane : Text.Short c := hdescribe.short_channels.of_natAbs_le (by omega)
    have hcode : Text.Short o := by
      have := abs_le.1 ho
      refine Text.short_of_natAbs_lt 4 ?_ (by decide)
      omega
    refine Failure.raise_of_short ?_ h.index h.seed
    simp [Failure.Cause.wording, hrow, hlane, hcode]
  · exact Failure.raise_of_long fun hshort ↦ h ⟨hdescribe, hshort.1, hshort.2⟩

end Session

end Depthwise
