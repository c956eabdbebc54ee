import Depthwise.Proofs.Random.Draws
import Depthwise.Proofs.Trial.Sizes

namespace Depthwise

open Depthwise.Random (Yields yields_between yields_bytes yields_permutation)

variable {α β : Type}

/-- A drawing that succeeds, with a value of a property, exactly when a condition on its sizes
holds, and that refuses them otherwise. -/
def Sized (H : Prop) (P : α → Prop) (d : Drawing α) : Prop :=
  (H → Succeeds P d) ∧ (¬ H → ∀ s, ∃ s', d.run.run s = (.error (.fault .unusableValue), s'))

namespace Sized

variable {H K : Prop} {P : α → Prop} {Q : β → Prop} {d : Drawing α}

theorem of_succeeds (h : Succeeds P d) : Sized True P d :=
  ⟨fun _ ↦ h, fun hfalse ↦ (hfalse trivial).elim⟩

theorem bind {f : α → Drawing β} (hd : Sized H P d) (hf : ∀ a, P a → Sized K Q (f a)) :
    Sized (H ∧ K) Q (d >>= f) := by
  refine ⟨fun ⟨hH, hK⟩ ↦ (hd.1 hH).bind fun a ha ↦ (hf a ha).1 hK, fun hrefused s ↦ ?_⟩
  by_cases hH : H
  · obtain ⟨a, s', hrun, ha⟩ := hd.1 hH s
    rw [run_bind_ok hrun]
    exact (hf a ha).2 (fun hK ↦ hrefused ⟨hH, hK⟩) s'
  · obtain ⟨s', hrun⟩ := hd.2 hH s
    exact ⟨s', run_bind_error hrun⟩

theorem bind_succeeds {f : α → Drawing β} (hd : Sized H P d) (hf : ∀ a, P a → Succeeds Q (f a)) :
    Sized H Q (d >>= f) := by
  have h := hd.bind fun a ha ↦ of_succeeds (hf a ha)
  rwa [and_true] at h

theorem succeeds_bind {f : α → Drawing β} (hd : Succeeds P d) (hf : ∀ a, P a → Sized K Q (f a)) :
    Sized K Q (d >>= f) := by
  have h := (of_succeeds hd).bind hf
  rwa [true_and] at h

theorem congr (h : Sized H P d) (hiff : H ↔ K) : Sized K P d :=
  propext hiff ▸ h

theorem mono {P' : α → Prop} (h : Sized H P d) (hP : ∀ a, P a → P' a) : Sized H P' d :=
  ⟨fun hH ↦ (h.1 hH).mono hP, h.2⟩

end Sized

namespace Trial

def Storable (width : Nat) (count : Int) : Prop := 0 ≤ count ∧ count * width ≤ largestBuffer

theorem sized_sizeOf (width : Nat) (count : Int) :
    Sized (Storable width count) (fun n : Nat ↦ (n : Int) = count)
      (liftM (sizeOf width count)) := by
  constructor
  · rintro ⟨hcount, hroom⟩ s
    have hsize : sizeOf width count = .ok count.toNat := if_neg (by omega)
    exact ⟨_, s, run_liftM_ok hsize s, Int.toNat_of_nonneg hcount⟩
  · intro hrefused s
    have hsize : sizeOf width count = .error (.fault .unusableValue) :=
      if_pos (by unfold Storable at hrefused; omega)
    exact ⟨s, run_liftM_error hsize s⟩

theorem sized_drawBytes (size : Int) :
    Sized (Storable 1 size) (fun bytes ↦ (bytes.size : Int) = size) (drawBytes size) := by
  refine (sized_sizeOf 1 size).bind_succeeds fun count hcount ↦ ?_
  exact ((yields_bytes count).mono fun bytes hbytes ↦ by rw [hbytes, hcount]).succeeds

theorem toInt_ofInt_of_limit {n : Int} (h : -biasLimit ≤ n ∧ n < biasLimit + 1) :
    -biasLimit ≤ (Int32.ofInt n).toInt ∧ (Int32.ofInt n).toInt ≤ biasLimit := by
  have hlimit : biasLimit = 10000 := rfl
  rw [Int32.toInt_ofInt_of_le (by omega) (by omega)]
  omega

theorem sized_drawBias (size : Int) :
    Sized (Storable 4 size)
      (fun bias ↦ (bias.size : Int) = size ∧
        ∀ b ∈ bias, -biasLimit ≤ b.toInt ∧ b.toInt ≤ biasLimit)
      (drawBias size) := by
  refine (sized_sizeOf 4 size).bind_succeeds fun count hcount ↦ ?_
  have hdraw := yields_between (show -biasLimit < biasLimit + 1 by decide)
  refine .bind (.mapM fun _ _ ↦ hdraw.succeeds) fun values ⟨hlength, hvalues⟩ ↦
    .pure ⟨?_, fun b hb ↦ ?_⟩
  · rw [List.size_toArray, List.length_map, hlength, List.length_range, hcount]
  · rw [List.mem_toArray, List.mem_map] at hb
    obtain ⟨n, hn, rfl⟩ := hb
    exact toInt_ofInt_of_limit (hvalues n hn)

theorem numbers_perm (order : RowOrder) (count : Nat) :
    (order.numbers count).toList.Perm (List.range count) := by
  cases order with
  | identity => exact .of_eq Array.toList_range
  | reverse =>
    rw [RowOrder.numbers, Array.toList_reverse, Array.toList_range]
    exact List.reverse_perm _

/-- In whatever order its numbers stand, no view is left out and none is repeated. -/
theorem arrange_perm {views : Array View} {order : Array Nat}
    (h : order.toList.Perm (List.range views.size)) :
    (arrange views order).toList.Perm views.toList := by
  have hall : (List.range views.size).map (views[·]?) = views.toList.map some := by
    apply List.ext_getElem
    · simp
    · intro i h₁ h₂
      simp
  have hviews : (List.range views.size).filterMap (views[·]?) = views.toList := by
    rw [← Function.id_comp (views[·]?), ← List.filterMap_map, hall]
    simp
  rw [arrange, Array.toList_filterMap]
  exact (h.filterMap _).trans (.of_eq hviews)

theorem yields_drawTable (s : Settings) (order? : Option RowOrder) (inputSize : Nat) :
    Yields (·.toList.Perm (rowViews s inputSize).toList) (drawTable s order? inputSize) := by
  cases order? with
  | some order => exact .pure (arrange_perm (numbers_perm order _))
  | none => exact (yields_permutation _).bind fun order horder ↦ .pure (arrange_perm horder)

structure Allocatable (s : Settings) : Prop where
  input : Storable 1 s.inputSize
  weights : Storable 1 (s.channels * s.kernelSize)
  packed : Storable 1 (s.kernelSize * s.packedChannels)
  bias : Storable 4 s.packedChannels
  output : Storable 1 s.outputSize

theorem allocatable_iff_storable {s : Settings} : Allocatable s ↔
    Storable 1 s.inputSize ∧ Storable 1 (s.channels * s.kernelSize) ∧
      Storable 1 (s.kernelSize * s.packedChannels) ∧ Storable 4 s.packedChannels ∧
      Storable 1 s.outputSize :=
  ⟨fun h ↦ ⟨h.input, h.weights, h.packed, h.bias, h.output⟩,
    fun ⟨hinput, hweights, hpacked, hbias, houtput⟩ ↦ ⟨hinput, hweights, hpacked, hbias, houtput⟩⟩

/-- No weight is packed yet: each packed byte stands for a weight of zero. -/
def Unpacked (t : Trial) : Prop := ∀ b ∈ t.buffers.packed, (b.toNat : Int) = kernelZeroPoint

/-- A trial is drawn with the sizes and ranges of its settings, or refused if one of its buffers
cannot exist. -/
theorem sized_draw_unpacked (s : Settings) (order? : Option RowOrder) :
    Sized (Allocatable s) (fun t ↦ t.Drawn s ∧ t.Unpacked) (draw s { order? }) := by
  refine .congr ?_ allocatable_iff_storable.symm
  refine (sized_drawBytes _).bind fun input hinput ↦ ?_
  refine (sized_drawBytes _).bind fun weights hweights ↦ ?_
  refine (sized_sizeOf 1 _).bind fun packedSize hpacked ↦ ?_
  refine (sized_drawBias _).bind fun bias ⟨hbias, hrange⟩ ↦ ?_
  refine .succeeds_bind (yields_drawTable s order? input.size).succeeds fun table htable ↦ ?_
  refine (sized_drawBytes _).bind_succeeds fun output houtput ↦ .pure ?_
  refine ⟨⟨hinput, hweights, ?_, hbias, houtput, hrange, htable⟩, fun b hb ↦ ?_⟩
  · rw [Array.size_replicate, hpacked]
  · rw [(Array.mem_replicate.1 hb).2]
    rfl

theorem sized_draw (s : Settings) (order? : Option RowOrder) :
    Sized (Allocatable s) (Drawn s) (draw s { order? }) :=
  (sized_draw_unpacked s order?).mono fun _ ht ↦ ht.1

end Trial

end Depthwise
