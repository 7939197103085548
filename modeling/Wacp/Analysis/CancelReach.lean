import Mathlib.Logic.Relation
import Wacp.Analysis.TaskPlacement

/-!
# What a cancellation reaches

`SchedulingOps::cancel_task` is a depth-first search along the forward edges through the tasks that
wait; the graph may have cycles. No waiting task is left behind a cancelled one (`Swept`).
-/

namespace Wacp

open Library Relation List Option Wacp.Runtime

namespace TaskGraph

def IsCancelled (g : TaskGraph) (id : TaskId) : Prop :=
  ∃ t, g.tasks.get id = some t ∧ t.status = .cancelled

def Waits (g : TaskGraph) (id : TaskId) : Prop :=
  ∃ t, g.tasks.get id = some t ∧ (t.status = .draft ∨ t.status = .pending)

def cancelAll (g : TaskGraph) (ids : List TaskId) : TaskGraph :=
  ids.foldl (fun g id => g.setStatus id .cancelled) g

def WaitingEdge (g : TaskGraph) (a b : TaskId) : Prop := b ∈ g.forward.getList a ∧ g.Waits b

def Reaches (g : TaskGraph) : TaskId → TaskId → Prop := ReflTransGen g.WaitingEdge

variable {g g' : TaskGraph} {id : TaskId} {ids ids' : List TaskId}

theorem cancel_eq {s s' : TaskStatus} (h : TaskFsm.transition s .cancel = .ok s') :
    s' = .cancelled := by
  cases s <;> cases h <;> rfl

theorem transition_cancel {status : TaskStatus} (h : g.transition id .cancel = .ok (status, g')) :
    ∃ t, g.tasks.get id = some t ∧ t.status.isTerminal = false ∧ status = .cancelled ∧
      g' = g.setStatus id .cancelled := by
  obtain ⟨t, ht, hopen, htr, rfl⟩ := transition_ok h
  rw [cancel_eq htr]
  exact ⟨t, ht, hopen, rfl, rfl⟩

theorem Waits.transition (h : g.Waits id) :
    g.transition id .cancel = .ok (.cancelled, g.setStatus id .cancelled) := by
  obtain ⟨t, ht, hst⟩ := h
  unfold TaskGraph.transition
  obtain hst | hst := hst
  · simp only [ht, hst]
    rfl
  · simp only [ht, hst]
    rfl

theorem cancelAll_append : g.cancelAll (ids ++ ids') = (g.cancelAll ids).cancelAll ids' :=
  foldl_append

theorem forward_cancelAll : (g.cancelAll ids).forward = g.forward := by
  induction ids generalizing g with
  | nil => rfl
  | cons id ids ih => exact ih

theorem get_cancelAll (d : TaskId) : (g.cancelAll ids).tasks.get d =
    if d ∈ ids then (g.tasks.get d).map fun t => { t with status := .cancelled }
    else g.tasks.get d := by
  induction ids generalizing g with
  | nil => rfl
  | cons id ids ih =>
    have hcons : g.cancelAll (id :: ids) = (g.setStatus id .cancelled).cancelAll ids := rfl
    rw [hcons, ih, get_setStatus]
    by_cases hd : d = id
    · cases g.tasks.get d <;> simp [hd]
    · simp [hd]

theorem isCancelled_cancelAll {d : TaskId} {t : Task} (hd : d ∈ ids)
    (ht : g.tasks.get d = some t) : (g.cancelAll ids).IsCancelled d :=
  ⟨_, by rw [get_cancelAll, if_pos hd, ht]; rfl, rfl⟩

theorem waits_cancelAll {d : TaskId} : (g.cancelAll ids).Waits d ↔ d ∉ ids ∧ g.Waits d := by
  unfold Waits
  rw [get_cancelAll]
  by_cases hd : d ∈ ids
  · simp [hd]
  · simp [hd]

theorem Reaches.of_cancelAll {a b : TaskId} (h : (g.cancelAll ids).Reaches a b) :
    g.Reaches a b := by
  have hedges : (g.cancelAll ids).WaitingEdge ≤ g.WaitingEdge := by
    rintro c d ⟨hedge, hwaits⟩
    rw [forward_cancelAll] at hedge
    exact ⟨hedge, (waits_cancelAll.mp hwaits).2⟩
  exact ReflTransGen.mono hedges a b h

def uncancelled (g : TaskGraph) : Finset TaskId :=
  g.tasks.keys.filter fun k => (g.tasks.get k).map Task.status ≠ some .cancelled

theorem uncancelled_cancelAll : (g.cancelAll ids).uncancelled ⊆ g.uncancelled := by
  intro k hk
  unfold uncancelled at hk ⊢
  rw [Finset.mem_filter, Table.mem_keys, get_cancelAll] at hk
  rw [Finset.mem_filter, Table.mem_keys]
  split_ifs at hk with hmem
  · obtain ⟨⟨v, hv⟩, hst⟩ := hk
    obtain ⟨t, ht, -⟩ := map_eq_some_iff.mp hv
    rw [ht] at hst
    exact absurd rfl hst
  · exact hk

theorem card_uncancelled_transition {status : TaskStatus}
    (h : g.transition id .cancel = .ok (status, g')) :
    g'.uncancelled.card < g.uncancelled.card := by
  obtain ⟨t, ht, hopen, -, rfl⟩ := transition_cancel h
  apply Finset.card_lt_card
  refine ⟨(uncancelled_cancelAll : (g.cancelAll [id]).uncancelled ⊆ g.uncancelled), ?_⟩
  intro hsub
  have hmem : id ∈ g.uncancelled := by
    unfold uncancelled
    rw [Finset.mem_filter, Table.mem_keys]
    refine ⟨⟨t, ht⟩, ?_⟩
    rw [ht]
    intro heq
    have hst : t.status = .cancelled := Option.some.inj heq
    rw [hst] at hopen
    cases hopen
  have hafter := hsub hmem
  unfold uncancelled at hafter
  rw [Finset.mem_filter, get_setStatus, ht] at hafter
  simp at hafter

theorem card_uncancelled_lt (g : TaskGraph) : g.uncancelled.card < g.tasks.keys.card + 1 :=
  Nat.lt_succ_of_le (Finset.card_filter_le _ _)

end TaskGraph

namespace SchedulingOps

open TaskGraph

/-- A sweep from some tasks: the waiting tasks reached from them, each once. -/
structure Swept (g : TaskGraph) (starts ids : List TaskId) : Prop where
  nodup : ids.Nodup
  reached : ∀ d ∈ ids, g.Waits d ∧ ∃ s ∈ starts, g.Waits s ∧ g.Reaches s d
  closed : ∀ d ∈ ids, ∀ e ∈ g.forward.getList d, ¬ (g.cancelAll ids).Waits e
  started : ∀ s ∈ starts, ¬ (g.cancelAll ids).Waits s

variable {g : TaskGraph} {n : ℕ} {cancel : TaskGraph → TaskId → Option (List TaskId × TaskGraph)}

theorem Swept.append {starts starts' ids ids' : List TaskId} (h : Swept g starts ids)
    (h' : Swept (g.cancelAll ids) starts' ids') : Swept g (starts ++ starts') (ids ++ ids') := by
  have hlater {d : TaskId} (hd : ¬ (g.cancelAll ids).Waits d) :
      ¬ (g.cancelAll (ids ++ ids')).Waits d := by
    rw [cancelAll_append]
    exact fun hw => hd (waits_cancelAll.mp hw).2
  have hwaits {d : TaskId} (hd : (g.cancelAll ids).Waits d) : d ∉ ids ∧ g.Waits d :=
    waits_cancelAll.mp hd
  refine ⟨?_, ?_, ?_, ?_⟩
  · rw [nodup_append]
    refine ⟨h.nodup, h'.nodup, ?_⟩
    rintro a ha b hb rfl
    exact (hwaits (h'.reached a hb).1).1 ha
  · intro d hd
    obtain hd | hd := mem_append.mp hd
    · obtain ⟨hw, s, hs, hsw, hpath⟩ := h.reached d hd
      exact ⟨hw, s, mem_append_left _ hs, hsw, hpath⟩
    · obtain ⟨hw, s, hs, hsw, hpath⟩ := h'.reached d hd
      exact ⟨(hwaits hw).2, s, mem_append_right _ hs, (hwaits hsw).2, hpath.of_cancelAll⟩
  · intro d hd e he
    obtain hd | hd := mem_append.mp hd
    · exact hlater (h.closed d hd e he)
    · rw [cancelAll_append]
      have hfwd : (g.cancelAll ids).forward = g.forward := forward_cancelAll
      rw [← hfwd] at he
      exact h'.closed d hd e he
  · intro s hs
    obtain hs | hs := mem_append.mp hs
    · exact hlater (h.started s hs)
    · rw [cancelAll_append]
      exact h'.started s hs

/-- On graphs with less than `n` tasks to cancel the call returns the sweep from a waiting task. -/
def Sweeps (n : ℕ) (cancel : TaskGraph → TaskId → Option (List TaskId × TaskGraph)) : Prop :=
  ∀ g id, g.uncancelled.card < n → g.Waits id →
    ∃ ids, cancel g id = some (ids, g.cancelAll ids) ∧ Swept g [id] ids

theorem Sweeps.loop (h : Sweeps n cancel) (deps acc : List TaskId) (hn : g.uncancelled.card < n) :
    ∃ ids, deps.foldlM (cancelStep cancel) (acc, g) = some (acc ++ ids, g.cancelAll ids) ∧
      Swept g deps ids := by
  induction deps generalizing acc g with
  | nil => exact ⟨[], by rw [append_nil]; rfl, nodup_nil, by simp, by simp, by simp⟩
  | cons dep deps ih =>
    obtain ⟨ids, hstep, hswept⟩ : ∃ ids,
        cancelStep cancel (acc, g) dep = some (acc ++ ids, g.cancelAll ids) ∧
          Swept g [dep] ids := by
      by_cases hw : g.Waits dep
      · obtain ⟨ids, hcancel, hswept⟩ := h g dep hn hw
        obtain ⟨t, ht, hst⟩ := hw
        refine ⟨ids, ?_, hswept⟩
        have hget : g.get dep = some t := ht
        unfold cancelStep
        simp [hget, hst, hcancel]
      · refine ⟨[], ?_, nodup_nil, by simp, by simp, by simpa [cancelAll] using hw⟩
        unfold cancelStep
        cases hget : g.get dep with
        | none => simp [cancelAll]
        | some t =>
          have hst : ¬ (t.status = .draft ∨ t.status = .pending) := fun hst => hw ⟨t, hget, hst⟩
          simp [hst, cancelAll]
    have hn' : (g.cancelAll ids).uncancelled.card < n :=
      (Finset.card_le_card uncancelled_cancelAll).trans_lt hn
    obtain ⟨ids', hrest, hswept'⟩ := ih (acc ++ ids) hn'
    refine ⟨ids ++ ids', ?_, hswept.append hswept'⟩
    rw [foldlM_cons, hstep, cancelAll_append, ← append_assoc]
    exact hrest

/-- **The call for a task that can be cancelled**: it, and a sweep from its dependents. -/
theorem Sweeps.call {fuel : ℕ} (h : Sweeps fuel (cancelTaskFuel fuel)) {id : TaskId}
    {status : TaskStatus} {g₁ : TaskGraph} (htr : g.transition id .cancel = .ok (status, g₁))
    (hn : g.uncancelled.card < fuel + 1) :
    ∃ ids, cancelTaskFuel (fuel + 1) g id = some (id :: ids, g.cancelAll (id :: ids)) ∧
      Swept (g.cancelAll [id]) (g.forward.getList id) ids := by
  have hlt := card_uncancelled_transition htr
  obtain ⟨t, ht, -, -, rfl⟩ := transition_cancel htr
  have hless : (g.cancelAll [id]).uncancelled.card < fuel := by
    change (g.setStatus id .cancelled).uncancelled.card < fuel
    omega
  obtain ⟨ids, hloop, hswept⟩ := h.loop (g.forward.getList id) [id] hless
  refine ⟨ids, ?_, hswept⟩
  unfold cancelTaskFuel
  rw [htr]
  exact hloop

section

variable {id : TaskId} {ids : List TaskId} (h : Swept (g.cancelAll [id]) (g.forward.getList id) ids)
include h

theorem Swept.mem_cons_iff (d : TaskId) : d ∈ id :: ids ↔ g.Reaches id d := by
  have hafter : g.cancelAll (id :: ids) = (g.cancelAll [id]).cancelAll ids := rfl
  constructor
  · intro hd
    obtain rfl | hd := mem_cons.mp hd
    · exact .refl
    · obtain ⟨-, s, hs, hsw, hpath⟩ := h.reached d hd
      exact .head ⟨hs, (waits_cancelAll.mp hsw).2⟩ hpath.of_cancelAll
  · intro hpath
    induction hpath with
    | refl => exact mem_cons_self
    | tail _ hedge ih =>
      -- whatever waits behind a listed task is listed
      obtain ⟨hedge, hwaits⟩ := hedge
      by_contra hnot
      have hstill := waits_cancelAll.mpr ⟨hnot, hwaits⟩
      rw [hafter] at hstill
      obtain rfl | hmem := mem_cons.mp ih
      · exact h.started _ hedge hstill
      · have hfwd : (g.cancelAll [id]).forward = g.forward := forward_cancelAll
        rw [← hfwd] at hedge
        exact h.closed _ hmem _ hedge hstill

theorem Swept.nodup_cons : (id :: ids).Nodup := by
  rw [List.nodup_cons]
  refine ⟨?_, h.nodup⟩
  intro hmem
  have hw := (waits_cancelAll.mp (h.reached id hmem).1).1
  exact hw (mem_singleton.mpr rfl)

end

theorem sweeps_cancelTaskFuel (fuel : ℕ) : Sweeps fuel (cancelTaskFuel fuel) := by
  induction fuel with
  | zero =>
    intro g id hcard
    omega
  | succ fuel ih =>
    intro g id hcard hw
    obtain ⟨ids, hcall, hswept⟩ := ih.call hw.transition hcard
    refine ⟨id :: ids, hcall, hswept.nodup_cons, ?_, ?_, ?_⟩
    · intro d hd
      have hpath := (hswept.mem_cons_iff d).mp hd
      obtain rfl | hd := mem_cons.mp hd
      · exact ⟨hw, d, mem_singleton.mpr rfl, hw, hpath⟩
      · exact ⟨(waits_cancelAll.mp (hswept.reached d hd).1).2, id, mem_singleton.mpr rfl, hw, hpath⟩
    · intro d hd e he
      rw [waits_cancelAll]
      rintro ⟨hnot, hwaits⟩
      have hpath := (hswept.mem_cons_iff d).mp hd
      exact hnot ((hswept.mem_cons_iff e).mpr (hpath.tail ⟨he, hwaits⟩))
    · intro s hs
      rw [mem_singleton] at hs
      rw [waits_cancelAll, hs]
      exact fun hwaits => hwaits.1 mem_cons_self

theorem cancelTask_sweep {id : TaskId} {status : TaskStatus} {g₁ : TaskGraph}
    (htr : g.transition id .cancel = .ok (status, g₁)) :
    ∃ ids, cancelTask g id = some (id :: ids, g.cancelAll (id :: ids)) ∧
      Swept (g.cancelAll [id]) (g.forward.getList id) ids :=
  (sweeps_cancelTaskFuel _).call htr (card_uncancelled_lt g)

/-- **What a cancellation reaches**: the tasks on paths through waiting tasks change, each once in
the list, the task itself first. -/
theorem cancelTask_reaches (g : TaskGraph) (x : TaskId) :
    (∀ e, g.transition x .cancel = .error e → cancelTask g x = some ([], g)) ∧
    ∀ status g₁, g.transition x .cancel = .ok (status, g₁) →
      ∃ ids g', cancelTask g x = some (x :: ids, g') ∧ (x :: ids).Nodup ∧
        (∀ d, d ∈ x :: ids ↔ g.Reaches x d) ∧
        (∀ d, (g'.tasks.get d).map Task.status ≠ (g.tasks.get d).map Task.status ↔ g.Reaches x d) ∧
        (∀ d, g.Reaches x d → g'.IsCancelled d) ∧
        ∀ d, ¬ g.Reaches x d → g'.tasks.get d = g.tasks.get d := by
  constructor
  · intro e htr
    unfold cancelTask cancelTaskFuel
    rw [htr]
  · intro status g₁ htr
    obtain ⟨ids, hcall, hswept⟩ := cancelTask_sweep htr
    obtain ⟨t, ht, hopen, -⟩ := transition_cancel htr
    -- each of the tasks is there and not cancelled
    have hthere (d : TaskId) (hd : g.Reaches x d) :
        ∃ t, g.tasks.get d = some t ∧ t.status ≠ .cancelled := by
      obtain rfl | hmem := mem_cons.mp ((hswept.mem_cons_iff d).mpr hd)
      · refine ⟨t, ht, ?_⟩
        intro hst
        rw [hst] at hopen
        cases hopen
      · obtain ⟨t', ht', hst'⟩ := (waits_cancelAll.mp (hswept.reached d hmem).1).2
        refine ⟨t', ht', ?_⟩
        intro hst
        rw [hst] at hst'
        obtain hst' | hst' := hst' <;> cases hst'
    have hsame (d : TaskId) (hd : ¬ g.Reaches x d) :
        (g.cancelAll (x :: ids)).tasks.get d = g.tasks.get d := by
      rw [get_cancelAll, if_neg fun h => hd ((hswept.mem_cons_iff d).mp h)]
    have hcancelled (d : TaskId) (hd : g.Reaches x d) : (g.cancelAll (x :: ids)).IsCancelled d := by
      obtain ⟨t', ht', -⟩ := hthere d hd
      exact isCancelled_cancelAll ((hswept.mem_cons_iff d).mpr hd) ht'
    refine ⟨ids, g.cancelAll (x :: ids), hcall, hswept.nodup_cons, hswept.mem_cons_iff, ?_,
      hcancelled, hsame⟩
    intro d
    constructor
    · intro hchanged
      by_contra hd
      exact hchanged (by rw [hsame d hd])
    · intro hd heq
      obtain ⟨t', ht', hst'⟩ := hthere d hd
      obtain ⟨t'', ht'', hst''⟩ := hcancelled d hd
      rw [ht', ht'', map_some, map_some, hst''] at heq
      exact hst' (Option.some.inj heq).symm

end SchedulingOps

def Runtime.chainRuntime : Runtime :=
  (new.decompose [⟨"build", "", []⟩, ⟨"test", "", ["task-decompose-0"]⟩]).1

open SchedulingOps in

theorem cancelTask_reaches_dependent :
    ∃ ids g', cancelTask chainRuntime.graph ⟨"task-decompose-0"⟩ =
      some (⟨"task-decompose-0"⟩ :: ids, g') ∧ ⟨"task-decompose-1"⟩ ∈ ids ∧
        g'.IsCancelled ⟨"task-decompose-1"⟩ := by
  obtain ⟨ids, g', hcall, -, hmem, -, hcancelled, -⟩ :=
    (cancelTask_reaches chainRuntime.graph ⟨"task-decompose-0"⟩).2 _ _ rfl
  have hpath : chainRuntime.graph.Reaches ⟨"task-decompose-0"⟩ ⟨"task-decompose-1"⟩ := by
    refine .single ⟨by decide, ?_⟩
    exact ⟨_, rfl, by decide⟩
  refine ⟨ids, g', hcall, ?_, hcancelled _ hpath⟩
  exact mem_of_ne_of_mem (by decide) ((hmem _).mpr hpath)

end Wacp
