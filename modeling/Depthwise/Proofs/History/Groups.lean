import Depthwise.History
import Mathlib.Data.List.Perm.Basic

namespace Depthwise

open Report (Value)

namespace Report.Value

variable {u v w : Value}

/-- Numbers name one group if they are equal; anything else has to be the same value. -/
theorem names_iff : v.names w = true ↔
    v.amount? = w.amount? ∧ (v.amount? = none → v = w ∧ v.isComposite = false) := by
  unfold names
  split
  next a b hv hw => simp [hv, hw]
  next hv hw =>
    rw [hv, hw]
    split
    next => simp [isComposite]
    next => simp [isComposite]
    next => simp [isComposite]
    next hnull htext hnumber =>
      refine iff_of_false Bool.false_ne_true fun ⟨_, hsame⟩ ↦ ?_
      obtain ⟨rfl, hname⟩ := hsame rfl
      cases v with
      | null => exact hnull rfl rfl
      | bool b => simp [amount?] at hv
      | int n => simp [amount?] at hv
      | number x => exact hnumber x x rfl rfl
      | text s => exact htext s s rfl rfl
      | list items => simp [isComposite] at hname
      | record fields => simp [isComposite] at hname
  next hsome hnone =>
    refine iff_of_false Bool.false_ne_true fun ⟨hamount, _⟩ ↦ ?_
    cases hv : v.amount? with
    | none => exact hnone hv (hamount.symm.trans hv)
    | some a => exact hsome a a hv (hamount.symm.trans hv)

theorem names_self (h : v.isComposite = false) : v.names v = true :=
  names_iff.2 ⟨rfl, fun _ ↦ ⟨rfl, h⟩⟩

theorem names_of_names (hv : v.names w = true) (hu : u.names w = true) : u.names v = true := by
  rw [names_iff] at hv hu ⊢
  obtain ⟨hamount, hsame⟩ := hv
  obtain ⟨hamount', hsame'⟩ := hu
  refine ⟨hamount'.trans hamount.symm, fun hnone ↦ ?_⟩
  obtain ⟨rfl, hname⟩ := hsame' hnone
  obtain ⟨rfl, -⟩ := hsame (hamount.trans hnone)
  exact ⟨rfl, hname⟩

end Report.Value

namespace History

variable {entries : List (Value × Metrics)} {groups : List (Value × List Metrics)}

def grouped (entries : List (Value × Metrics)) : List (Value × List Metrics) :=
  entries.foldl (fun groups e ↦ addTo e.2 e.1 groups) []

/-- The first group takes the trials that it names and leaves the others to the groups after it. -/
theorem foldl_addTo_cons (c : Value) (ms : List Metrics) (groups : List (Value × List Metrics))
    (entries : List (Value × Metrics)) :
    entries.foldl (fun groups e ↦ addTo e.2 e.1 groups) ((c, ms) :: groups) =
      (c, ms ++ (entries.filter (c.names ·.1)).map (·.2)) ::
        (entries.filter (!c.names ·.1)).foldl (fun groups e ↦ addTo e.2 e.1 groups) groups := by
  induction entries generalizing ms groups with
  | nil => simp
  | cons e rest ih =>
    rw [List.foldl_cons, addTo]
    cases hname : c.names e.1
    · simp [ih, hname]
    · simp [ih, hname]

theorem grouped_cons (c : Value) (m : Metrics) (rest : List (Value × Metrics)) :
    grouped ((c, m) :: rest) = (c, m :: (rest.filter (c.names ·.1)).map (·.2)) ::
      grouped (rest.filter (!c.names ·.1)) :=
  foldl_addTo_cons c [m] [] rest

/-- The recursion of `grouped_cons`: from the trials that the first group leaves to all of them. -/
theorem entries_induction {P : List (Value × Metrics) → Prop} (nil : P [])
    (cons : ∀ c m rest, P (rest.filter (!c.names ·.1)) → P ((c, m) :: rest)) :
    ∀ entries, P entries
  | [] => nil
  | (c, m) :: rest => cons c m rest (entries_induction nil cons _)
termination_by entries => entries.length
decreasing_by exact Nat.lt_succ_of_le (List.length_filter_le _ rest)

theorem keys_sublist (entries : List (Value × Metrics)) :
    ((grouped entries).map (·.1)).Sublist (entries.map (·.1)) := by
  induction entries using entries_induction with
  | nil => exact .slnil
  | cons c m rest ih =>
    rw [grouped_cons, List.map_cons, List.map_cons]
    exact (ih.trans (List.filter_sublist.map _)).cons_cons c

/-- A group after the first one is named by a trial that the first one left. -/
theorem not_names_of_mem {c : Value} {g : Value × List Metrics}
    (hg : g ∈ grouped (entries.filter (!c.names ·.1))) : c.names g.1 = false := by
  have hkey := (keys_sublist _).subset (List.mem_map_of_mem hg)
  obtain ⟨e, he, hname⟩ := List.mem_map.1 hkey
  rw [← hname]
  simpa using (List.mem_filter.1 he).2

/-- Groups that hold every trial once, in order and under the first value that named its group. -/
structure Partition (entries : List (Value × Metrics)) (groups : List (Value × List Metrics)) :
    Prop where
  keys_eq : groups.map (·.1) = (entries.map (·.1)).eraseDupsBy fun later first ↦ first.names later
  apart : groups.Pairwise fun g g' ↦ g.1.names g'.1 = false
  trials_eq : ∀ g ∈ groups, g.2 = (entries.filter (g.1.names ·.1)).map (·.2)
  perm : (groups.flatMap (·.2)).Perm (entries.map (·.2))

/-- The groups of the trials that the first one leaves, with the first one before them. -/
theorem Partition.cons {c : Value} {m : Metrics} {rest : List (Value × Metrics)}
    (hc : c.isComposite = false) (hgroups : ∀ g ∈ groups, c.names g.1 = false)
    (h : Partition (rest.filter (!c.names ·.1)) groups) :
    Partition ((c, m) :: rest) ((c, m :: (rest.filter (c.names ·.1)).map (·.2)) :: groups) where
  keys_eq := by
    rw [List.map_cons, h.keys_eq, List.map_cons, List.eraseDupsBy_cons, List.filter_map]
    simp [Function.comp_def]
  apart := List.pairwise_cons.2 ⟨hgroups, h.apart⟩
  trials_eq := by
    refine List.forall_mem_cons.2 ⟨?_, fun g hg ↦ ?_⟩
    · simp [Report.Value.names_self hc]
    · have hleft : ∀ v : Value, g.1.names v = true → c.names v = false := by
        intro v hv
        by_contra hnames
        have hc' := Report.Value.names_of_names hv (by simpa using hnames)
        rw [hgroups g hg] at hc'
        cases hc'
      have hfirst : ¬ g.1.names c = true := by
        intro hname
        have hself := hleft c hname
        rw [Report.Value.names_self hc] at hself
        cases hself
      have hrest : ∀ e ∈ rest, (g.1.names e.1 && !c.names e.1) = g.1.names e.1 := by
        intro e _
        cases hname : g.1.names e.1
        · rfl
        · rw [hleft e.1 hname]
          rfl
      rw [h.trials_eq g hg, List.filter_filter, List.filter_congr hrest]
      simp [hfirst]
  perm := by
    rw [List.flatMap_cons, List.map_cons, List.cons_append]
    refine .cons m ((h.perm.append_left _).trans ?_)
    rw [← List.map_append]
    exact (List.filter_append_perm (c.names ·.1) rest).map _

theorem partition_grouped (h : ∀ e ∈ entries, e.1.isComposite = false) :
    Partition entries (grouped entries) := by
  induction entries using entries_induction with
  | nil => exact ⟨rfl, .nil, by simp [grouped], .nil⟩
  | cons c m rest ih =>
    obtain ⟨hc, hrest⟩ := List.forall_mem_cons.1 h
    rw [grouped_cons]
    exact (ih fun e he ↦ hrest e (List.mem_of_mem_filter he)).cons hc fun g ↦ not_names_of_mem

end History

end Depthwise
