import Depthwise.Counting
import Mathlib.Data.List.Range

namespace Depthwise

variable {ε σ α β : Type}

theorem run_bind_ok {x : ExceptT ε (StateM σ) α} {f : α → ExceptT ε (StateM σ) β} {s s' : σ} {a : α}
    (h : x.run.run s = (.ok a, s')) : (x >>= f).run.run s = (f a).run.run s' := by
  change (ExceptT.bindCont f (x.run.run s).1).run (x.run.run s).2 = _
  rw [h]
  rfl

theorem run_bind_error {x : ExceptT ε (StateM σ) α} {f : α → ExceptT ε (StateM σ) β} {s s' : σ}
    {e : ε} (h : x.run.run s = (.error e, s')) : (x >>= f).run.run s = (.error e, s') := by
  change (ExceptT.bindCont f (x.run.run s).1).run (x.run.run s).2 = _
  rw [h]
  rfl

theorem exists_of_run_bind {x : ExceptT ε (StateM σ) α} {f : α → ExceptT ε (StateM σ) β}
    {s s' : σ} {b : β} (h : (x >>= f).run.run s = (.ok b, s')) : ∃ a between,
      x.run.run s = (.ok a, between) ∧ (f a).run.run between = (.ok b, s') := by
  rcases hrun : x.run.run s with ⟨e | a, between⟩
  · rw [run_bind_error hrun] at h
    cases h
  · rw [run_bind_ok hrun] at h
    exact ⟨a, between, rfl, h⟩

theorem run_liftM_error {x : Except ε α} {e : ε} (h : x = .error e) (s : σ) :
    (liftM x : ExceptT ε (StateM σ) α).run.run s = (.error e, s) := by
  subst h
  rfl

theorem run_liftM_ok {x : Except ε α} {a : α} (h : x = .ok a) (s : σ) :
    (liftM x : ExceptT ε (StateM σ) α).run.run s = (.ok a, s) := by
  subst h
  rfl

theorem eq_ok_of_run_liftM {x : Except ε α} {a : α} {s s' : σ}
    (h : (liftM x : ExceptT ε (StateM σ) α).run.run s = (.ok a, s')) : x = .ok a :=
  congrArg Prod.fst h

/-- A computation that keeps an invariant of its state, also where it fails. -/
def Keeps (I : σ → Prop) (x : ExceptT ε (StateM σ) α) : Prop := ∀ s, I s → I (x.run.run s).2

namespace Keeps

variable {I : σ → Prop}

theorem pure (a : α) : Keeps I (Pure.pure a : ExceptT ε (StateM σ) α) := fun _ hs ↦ hs

theorem liftM (x : Except ε α) : Keeps I (MonadLiftT.monadLift x : ExceptT ε (StateM σ) α) :=
  fun _ hs ↦ hs

theorem bind {x : ExceptT ε (StateM σ) α} {f : α → ExceptT ε (StateM σ) β} (hx : Keeps I x)
    (hf : ∀ a, Keeps I (f a)) : Keeps I (x >>= f) := by
  intro s hs
  have hbetween := hx s hs
  rcases hrun : x.run.run s with ⟨e | a, s'⟩
  · rw [hrun] at hbetween
    rw [run_bind_error hrun]
    exact hbetween
  · rw [hrun] at hbetween
    rw [run_bind_ok hrun]
    exact hf a s' hbetween

theorem mapM {f : α → ExceptT ε (StateM σ) β} {l : List α} (h : ∀ a ∈ l, Keeps I (f a)) :
    Keeps I (l.mapM f) := by
  induction l with
  | nil => exact .pure []
  | cons a rest ih =>
    rw [List.mapM_cons]
    refine .bind (h a List.mem_cons_self) fun b ↦ ?_
    exact .bind (ih fun b hb ↦ h b (List.mem_cons_of_mem _ hb)) fun _ ↦ .pure _

theorem forEach {f : Nat → ExceptT ε (StateM σ) Unit} (h : ∀ i, Keeps I (f i))
    (first count : Nat) : Keeps I (Counting.forEach f first count) := by
  induction count generalizing first with
  | zero => exact .pure ()
  | succ count ih => exact .bind (h first) fun _ ↦ ih (first + 1)

theorem collect {f : Nat → ExceptT ε (StateM σ) α} (h : ∀ i, Keeps I (f i))
    (first count : Nat) : Keeps I (Counting.collect f first count) := by
  induction count generalizing first with
  | zero => exact .pure []
  | succ count ih => exact .bind (h first) fun _ ↦ .bind (ih (first + 1)) fun _ ↦ .pure _

end Keeps

/-- A computation that always succeeds, with a result that has a property. -/
def Succeeds (P : α → Prop) (x : ExceptT ε (StateM σ) α) : Prop :=
  ∀ s, ∃ a s', x.run.run s = (.ok a, s') ∧ P a

namespace Succeeds

variable {P : α → Prop} {Q : β → Prop}

theorem pure {a : α} (h : P a) : Succeeds P (Pure.pure a : ExceptT ε (StateM σ) α) :=
  fun s ↦ ⟨a, s, rfl, h⟩

theorem bind {x : ExceptT ε (StateM σ) α} {f : α → ExceptT ε (StateM σ) β} (hx : Succeeds P x)
    (hf : ∀ a, P a → Succeeds Q (f a)) : Succeeds Q (x >>= f) := by
  intro s
  obtain ⟨a, s', hrun, ha⟩ := hx s
  rw [run_bind_ok hrun]
  exact hf a ha s'

theorem mono {P' : α → Prop} {x : ExceptT ε (StateM σ) α} (hx : Succeeds P x)
    (hP : ∀ a, P a → P' a) : Succeeds P' x := by
  intro s
  obtain ⟨a, s', hrun, ha⟩ := hx s
  exact ⟨a, s', hrun, hP a ha⟩

theorem mapM {f : α → ExceptT ε (StateM σ) β} {l : List α} (h : ∀ a ∈ l, Succeeds Q (f a)) :
    Succeeds (fun bs ↦ bs.length = l.length ∧ ∀ b ∈ bs, Q b) (l.mapM f) := by
  induction l with
  | nil => exact .pure (by simp)
  | cons a rest ih =>
    rw [List.mapM_cons]
    refine .bind (h a List.mem_cons_self) fun b hb ↦ ?_
    refine .bind (ih fun b hb ↦ h b (List.mem_cons_of_mem _ hb)) fun bs ⟨hlength, hbs⟩ ↦ ?_
    exact .pure ⟨congrArg (· + 1) hlength, List.forall_mem_cons.2 ⟨hb, hbs⟩⟩

end Succeeds

/-- A computation that succeeds exactly where a condition holds, with a result that has a property.
Elsewhere it fails, with an error of some kind. -/
def Settles (E : ε → Prop) (H : Prop) (P : α → Prop) : Except ε α → Prop
  | .ok a => H ∧ P a
  | .error e => ¬ H ∧ E e

namespace Settles

variable {E : ε → Prop} {H K : Prop} {P P' : α → Prop} {Q : β → Prop} {x : Except ε α}

theorem congr (h : Settles E H P x) (hiff : H ↔ K) : Settles E K P x := by
  cases x with
  | ok a => exact ⟨hiff.1 h.1, h.2⟩
  | error e => exact ⟨fun hK ↦ h.1 (hiff.2 hK), h.2⟩

theorem mono (h : Settles E H P x) (hP : ∀ a, P a → P' a) : Settles E H P' x := by
  cases x with
  | ok a => exact ⟨h.1, hP a h.2⟩
  | error e => exact h

/-- A condition on the whole that asks for what the first part needs. -/
theorem bind {f : α → Except ε β} (hx : Settles E H P x) (hKH : K → H)
    (hf : ∀ a, H → P a → Settles E K Q (f a)) : Settles E K Q (x >>= f) := by
  cases x with
  | ok a => exact hf a hx.1 hx.2
  | error e => exact ⟨fun hK ↦ hx.1 (hKH hK), hx.2⟩

theorem exists_ok (h : Settles E H P x) (hH : H) : ∃ a, x = .ok a ∧ P a := by
  cases x with
  | ok a => exact ⟨a, rfl, h.2⟩
  | error e => exact (h.1 hH).elim

theorem exists_error (h : Settles E H P x) (hH : ¬ H) : ∃ e, x = .error e ∧ E e := by
  cases x with
  | ok a => exact (hH h.1).elim
  | error e => exact ⟨e, rfl, h.2⟩

/-- A list is gone through up to its first fault. -/
theorem mapM {f : α → Except ε β} {fault? : α → Option ε} {R : α → β → Prop} {l : List α}
    (h : ∀ a ∈ l, Settles (fault? a = some ·) (fault? a = none) (R a) (f a)) :
    Settles (l.findSome? fault? = some ·) (∀ a ∈ l, fault? a = none) (List.Forall₂ R l)
      (l.mapM f) := by
  induction l with
  | nil => exact ⟨by simp, .nil⟩
  | cons a rest ih =>
    obtain ⟨ha, hrest⟩ := List.forall_mem_cons.1 h
    rw [List.mapM_cons]
    rcases hf : f a with e | b
    · rw [hf] at ha
      refine ⟨fun hall ↦ ha.1 (hall a List.mem_cons_self), ?_⟩
      simp [ha.2]
    · rw [hf] at ha
      have hfind : (a :: rest).findSome? fault? = rest.findSome? fault? := by simp [ha.1]
      rw [hfind, List.forall_mem_cons]
      have hstep := ih hrest
      rcases hmap : rest.mapM f with e | bs
      · rw [hmap] at hstep
        exact ⟨fun hall ↦ hstep.1 hall.2, hstep.2⟩
      · rw [hmap] at hstep
        exact ⟨⟨ha.1, hstep.1⟩, .cons ha.2 hstep.2⟩

end Settles

/-- A computation with a state that settles so from all states that meet an invariant, and keeps
the invariant where it succeeds. -/
def SettlesFrom (I : σ → Prop) (E : ε → Prop) (H : Prop) (x : ExceptT ε (StateM σ) α) : Prop :=
  ∀ s, I s → Settles E H (fun _ ↦ I (x.run.run s).2) (x.run.run s).1

namespace SettlesFrom

variable {I : σ → Prop} {E : ε → Prop} {H K : Prop}

theorem congr {x : ExceptT ε (StateM σ) α} (h : SettlesFrom I E H x) (hiff : H ↔ K) :
    SettlesFrom I E K x :=
  fun s hs ↦ (h s hs).congr hiff

theorem bind {x : ExceptT ε (StateM σ) α} {f : α → ExceptT ε (StateM σ) β}
    (hx : SettlesFrom I E H x) (hKH : K → H) (hf : ∀ a, H → SettlesFrom I E K (f a)) :
    SettlesFrom I E K (x >>= f) := by
  intro s hs
  have hfirst := hx s hs
  rcases hrun : x.run.run s with ⟨e | a, s'⟩
  · rw [hrun] at hfirst
    rw [run_bind_error hrun]
    exact ⟨fun hK ↦ hfirst.1 (hKH hK), hfirst.2⟩
  · rw [hrun] at hfirst
    rw [run_bind_ok hrun]
    exact hf a hfirst.1 s' hfirst.2

theorem liftM_bind {x : Except ε α} {f : α → ExceptT ε (StateM σ) β} {P : α → Prop}
    (hx : Settles E H P x) (hKH : K → H) (hf : ∀ a, H → P a → SettlesFrom I E K (f a)) :
    SettlesFrom I E K (liftM x >>= f) := by
  intro s hs
  rcases hrun : x with e | a
  · rw [hrun] at hx
    exact ⟨fun hK ↦ hx.1 (hKH hK), hx.2⟩
  · rw [hrun] at hx
    exact hf a hx.1 hx.2 s hs

end SettlesFrom

theorem exists_of_mem_right {R : α → β → Prop} {l : List α} {l' : List β}
    (h : List.Forall₂ R l l') {b : β} (hb : b ∈ l') : ∃ a ∈ l, R a b := by
  induction h with
  | nil => simp at hb
  | @cons a b' rest rest' hab _ ih =>
    rcases List.mem_cons.1 hb with rfl | hb
    · exact ⟨a, List.mem_cons_self, hab⟩
    · obtain ⟨a', hmem, ha'⟩ := ih hb
      exact ⟨a', List.mem_cons_of_mem _ hmem, ha'⟩

theorem exists_of_bind_eq_ok {x : Except ε α} {f : α → Except ε β} {b : β}
    (h : (x >>= f) = .ok b) : ∃ a, x = .ok a ∧ f a = .ok b := by
  cases x with
  | error e => cases h
  | ok a => exact ⟨a, rfl, h⟩

def errorOf? : Except ε α → Option ε
  | .ok _ => none
  | .error e => some e

theorem settles_errorOf? (x : Except ε α) :
    Settles (errorOf? x = some ·) (errorOf? x = none) (x = .ok ·) x := by
  cases x with
  | ok a => exact ⟨rfl, rfl⟩
  | error e => exact ⟨by simp [errorOf?], rfl⟩

theorem forall₂_of_mapM {f : α → Except ε β} {l : List α} {l' : List β}
    (h : l.mapM f = .ok l') : List.Forall₂ (fun a b ↦ f a = .ok b) l l' := by
  have hall := Settles.mapM fun a (_ : a ∈ l) ↦ settles_errorOf? (f a)
  rw [h] at hall
  exact hall.2

theorem exists_of_mem_mapM {f : α → Except ε β} {l : List α} {l' : List β}
    (h : l.mapM f = .ok l') {b : β} (hb : b ∈ l') : ∃ a ∈ l, f a = .ok b :=
  exists_of_mem_right (forall₂_of_mapM h) hb

theorem exists_of_mapM_error {f : α → Except ε β} {l : List α} {e : ε}
    (h : l.mapM f = .error e) : ∃ a ∈ l, f a = .error e := by
  have hall := Settles.mapM fun a (_ : a ∈ l) ↦ settles_errorOf? (f a)
  rw [h] at hall
  obtain ⟨a, ha, herror⟩ := List.exists_of_findSome?_eq_some hall.2
  refine ⟨a, ha, ?_⟩
  cases hf : f a with
  | ok b => simp [errorOf?, hf] at herror
  | error e' => simpa [errorOf?, hf] using herror

/-- With one kind of error only, it does not matter which element fails first. -/
theorem mapM_error {f : α → Except ε β} {l : List α} {e : ε}
    (honly : ∀ a ∈ l, ∀ e', f a = .error e' → e' = e) (hfail : ∃ a ∈ l, f a = .error e) :
    l.mapM f = .error e := by
  induction l with
  | nil => simp at hfail
  | cons a rest ih =>
    obtain ⟨ha, hrest⟩ := List.forall_mem_cons.1 honly
    rw [List.mapM_cons]
    rcases hf : f a with e' | b
    · cases ha e' hf
      rfl
    · obtain ⟨a', hmem, hfa'⟩ := hfail
      rcases List.mem_cons.1 hmem with rfl | hmem
      · rw [hf] at hfa'
        cases hfa'
      · rw [ih hrest ⟨a', hmem, hfa'⟩]
        rfl

theorem mapM_ok {f : α → Except ε β} {g : α → β} {l : List α} (h : ∀ a ∈ l, f a = .ok (g a)) :
    l.mapM f = .ok (l.map g) := by
  induction l with
  | nil => rfl
  | cons a rest ih =>
    rw [List.mapM_cons, h a List.mem_cons_self, ih fun b hb ↦ h b (List.mem_cons_of_mem _ hb)]
    rfl

theorem countP_or {p q : α → Bool} (h : ∀ a, p a = true → ¬ q a = true) (l : List α) :
    l.countP (fun a ↦ p a || q a) = l.countP p + l.countP q := by
  induction l with
  | nil => rfl
  | cons a rest ih =>
    simp only [List.countP_cons, ih]
    have hdisjoint := h a
    cases hp : p a
    · simp only [Bool.false_or, Bool.false_eq_true, if_false]
      omega
    · simp only [Bool.true_or, if_true, if_neg (hdisjoint hp)]
      omega

theorem zipIdx_map_range (g : Nat → α) (n : Nat) :
    ((List.range n).map g).zipIdx = (List.range n).map fun k ↦ (g k, k) := by
  apply List.ext_getElem
  · simp
  · intro i h₁ h₂
    simp

namespace Counting

variable {f : Nat → ExceptT ε (StateM σ) Unit} {g : Nat → σ → σ}

/-- A loop whose steps succeed and keep an invariant goes through all of them. -/
theorem forEach_run {I : σ → Prop} (first count : Nat)
    (h : ∀ i, first ≤ i → i < first + count → ∀ s, I s →
      (f i).run.run s = (.ok (), g i s) ∧ I (g i s)) (s : σ) (hs : I s) :
    (forEach f first count).run.run s =
        (.ok (), (List.range' first count).foldl (fun s i ↦ g i s) s) ∧
      I ((List.range' first count).foldl (fun s i ↦ g i s) s) := by
  induction count generalizing first s with
  | zero => exact ⟨rfl, hs⟩
  | succ count ih =>
    obtain ⟨hstep, hnext⟩ := h first le_rfl (by omega) s hs
    obtain ⟨hrest, hend⟩ := ih (first + 1) (fun i hi hi' ↦ h i (by omega) (by omega)) _ hnext
    rw [List.range'_succ, List.foldl_cons]
    refine ⟨?_, hend⟩
    rw [forEach, run_bind_ok hstep]
    exact hrest

theorem forEach_congr {m : Type → Type} [Monad m] {f g : Nat → m Unit} (first count : Nat)
    (h : ∀ i, first ≤ i → i < first + count → f i = g i) :
    forEach f first count = forEach g first count := by
  induction count generalizing first with
  | zero => rfl
  | succ count ih =>
    rw [forEach, forEach, h first le_rfl (by omega)]
    simp only [ih (first + 1) fun i hi hi' ↦ h i (by omega) (by omega)]

theorem forall_steps_succ_iff {H : Nat → Prop} {first count : Nat} :
    (∀ i, first ≤ i → i < first + (count + 1) → H i) ↔
      H first ∧ ∀ i, first + 1 ≤ i → i < first + 1 + count → H i := by
  constructor
  · intro h
    exact ⟨h first le_rfl (by omega), fun i hi hi' ↦ h i (by omega) (by omega)⟩
  · rintro ⟨hfirst, hrest⟩ i hi hi'
    rcases hi.eq_or_lt with rfl | hlt
    · exact hfirst
    · exact hrest i hlt (by omega)

/-- A loop goes through all its steps exactly where the condition of each step holds. -/
theorem settlesFrom_forEach {I : σ → Prop} {E : ε → Prop} {H : Nat → Prop} (first count : Nat)
    (h : ∀ i, first ≤ i → i < first + count → SettlesFrom I E (H i) (f i)) :
    SettlesFrom I E (∀ i, first ≤ i → i < first + count → H i) (forEach f first count) := by
  induction count generalizing first with
  | zero => exact fun s hs ↦ ⟨fun i hi hi' ↦ absurd hi' (by omega), hs⟩
  | succ count ih =>
    refine (h first le_rfl (by omega)).bind (fun hall ↦ (forall_steps_succ_iff.1 hall).1)
      fun _ hfirst ↦ ?_
    refine (ih (first + 1) fun i hi hi' ↦ h i (by omega) (by omega)).congr ?_
    rw [forall_steps_succ_iff]
    exact (and_iff_right hfirst).symm

theorem collect_ok {f : Nat → Except ε α} {g : Nat → α} (first count : Nat)
    (h : ∀ i, first ≤ i → i < first + count → f i = .ok (g i)) :
    collect f first count = .ok ((List.range' first count).map g) := by
  induction count generalizing first with
  | zero => rfl
  | succ count ih =>
    have hrest := ih (first + 1) fun i hi hi' ↦ h i (by omega) (by omega)
    rw [collect, h first le_rfl (by omega), hrest, List.range'_succ]
    rfl

end Counting

end Depthwise
