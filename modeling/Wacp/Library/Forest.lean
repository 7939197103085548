import Mathlib.Logic.Relation
import Mathlib.Data.Finset.Card
import Mathlib.Data.List.Nodup
import Mathlib.Data.Finset.Basic

/-!
# Forests given by parent pointers

A forest is a partial function `parent : K → Option K`; `Up parent a b` is one step towards the
root. Two loops with fuel: `climb` follows parent pointers, `bfs` child lists with a queue. On a
finite forest both return, and more fuel changes no answer. `reroot` and `relist` hang one node
under another.
-/

namespace Wacp.Library.Forest

open Relation List ReflTransGen

variable {K : Type}

def Up (parent : K → Option K) (a b : K) : Prop := parent a = some b

def Below (parent : K → Option K) : K → K → Prop := TransGen (Up parent)

section Ancestors

variable {parent : K → Option K} {a : K}

theorem Up.unique {b c : K} (hb : Up parent a b) (hc : Up parent a c) : b = c :=
  Option.some.inj (hb.symm.trans hc)

theorem not_below_self {root w : K} (hroot : parent root = none)
    (h : ReflTransGen (Up parent) w root) : ¬ Below parent w w := by
  induction h using head_induction_on with
  | refl =>
    intro hc
    obtain ⟨b, hb, -⟩ := TransGen.head'_iff.mp hc
    simp [Up, hroot] at hb
  | head hstep _ ih =>
    intro hc
    obtain ⟨b, hb, hrest⟩ := TransGen.head'_iff.mp hc
    have hbc := Up.unique hb hstep
    subst hbc
    -- the cycle through the child is a cycle through its parent
    exact ih (TransGen.tail' hrest hstep)

theorem below_iff_of_up {d p : K} (h : Up parent d p) :
    Below parent d a ↔ a = p ∨ Below parent p a := by
  constructor
  · intro hd
    obtain ⟨b, hb, hrest⟩ := TransGen.head'_iff.mp hd
    rw [Up.unique hb h] at hrest
    rcases (reflTransGen_iff_eq_or_transGen.mp hrest) with rfl | ht
    · exact .inl rfl
    · exact .inr ht
  · rintro (rfl | hp)
    · exact TransGen.single h
    · exact TransGen.head h hp

theorem not_below_of_none {d : K} (h : parent d = none) : ¬ Below parent d a := by
  intro hd
  obtain ⟨b, hb, -⟩ := TransGen.head'_iff.mp hd
  simp [Up, h] at hb

end Ancestors

/-! ## Climbing -/

def climb (parent : K → Option K) : ℕ → K → List K → Option (List K)
  | 0, _, _ => none
  | fuel + 1, current, chain =>
    match parent current with
    | some p => climb parent fuel p (chain ++ [p])
    | none => some chain

/-- `Ascends parent w l`: from `w`, the parents met one after the other are `l`, and the
last of them has no parent. -/
def Ascends (parent : K → Option K) : K → List K → Prop
  | w, [] => parent w = none
  | w, p :: l => parent w = some p ∧ Ascends parent p l

section Climb

variable {parent : K → Option K} {root w : K}

/-- A node that reaches a parentless root has an ascending list, which ends in
the root unless the node is the root. -/
theorem exists_ascends (hroot : parent root = none) (h : ReflTransGen (Up parent) w root) :
    ∃ l, Ascends parent w l ∧ (w :: l).getLast? = some root := by
  induction h using head_induction_on with
  | refl => exact ⟨[], hroot, rfl⟩
  | head hstep _ ih =>
    obtain ⟨l, hl, hlast⟩ := ih
    exact ⟨_ :: l, ⟨hstep, hl⟩, by rw [getLast?_cons_cons]; exact hlast⟩

variable {l : List K}

theorem Ascends.mem_iff {a : K} (h : Ascends parent w l) : a ∈ l ↔ Below parent w a := by
  induction l generalizing w with
  | nil => simp [not_below_of_none (show parent w = none from h)]
  | cons p l ih =>
    rw [mem_cons, below_iff_of_up h.1, ih h.2]

theorem Ascends.nodup (h : Ascends parent w l) (hacyc : ∀ x, ¬ Below parent x x) : l.Nodup := by
  induction l generalizing w with
  | nil => exact nodup_nil
  | cons p l ih =>
    refine nodup_cons.mpr ⟨fun hp => ?_, ih h.2⟩
    exact hacyc p ((h.2.mem_iff).mp hp)

theorem climb_of_ascends (h : Ascends parent w l) (fuel : ℕ) (hfuel : l.length < fuel)
    (chain : List K) : climb parent fuel w chain = some (chain ++ l) := by
  induction l generalizing w fuel chain with
  | nil =>
    obtain ⟨n, rfl⟩ : ∃ n, fuel = n + 1 := ⟨fuel - 1, by simp at hfuel; omega⟩
    simp [climb, show parent w = none from h]
  | cons p l ih =>
    obtain ⟨n, rfl⟩ : ∃ n, fuel = n + 1 := ⟨fuel - 1, by simp at hfuel; omega⟩
    simp only [climb, h.1]
    rw [ih h.2 n (by simp at hfuel; omega)]
    simp

theorem climb_mono {fuel fuel' : ℕ} (hle : fuel ≤ fuel') {chain r : List K}
    (h : climb parent fuel w chain = some r) : climb parent fuel' w chain = some r := by
  induction fuel generalizing fuel' w chain with
  | zero => simp [climb] at h
  | succ n ih =>
    obtain ⟨m, rfl⟩ : ∃ m, fuel' = m + 1 := ⟨fuel' - 1, by omega⟩
    simp only [climb] at h ⊢
    cases hp : parent w with
    | none => simpa [hp] using h
    | some =>
      simp only [hp] at h
      exact ih (by omega) h

/-- **Climbing returns the proper ancestors**, when every parent is one of
finitely many nodes and the start reaches the root. -/
theorem climb_eq_some {S : Finset K} (hS : ∀ a b, Up parent a b → b ∈ S)
    (hroot : parent root = none) (hw : ReflTransGen (Up parent) w root)
    (hacyc : ∀ x, ¬ Below parent x x) :
    ∃ l, climb parent (S.card + 1) w [] = some l ∧ (w :: l).getLast? = some root ∧
      ∀ a, a ∈ l ↔ Below parent w a := by
  classical
  obtain ⟨l, hl, hlast⟩ := exists_ascends hroot hw
  have hsub : l.toFinset ⊆ S := by
    intro a ha
    obtain ⟨b, -, hb⟩ := TransGen.tail'_iff.mp ((hl.mem_iff).mp (mem_toFinset.mp ha))
    exact hS _ _ hb
  have hlen : l.length ≤ S.card := by
    rw [← toFinset_card_of_nodup (hl.nodup hacyc)]
    exact Finset.card_le_card hsub
  refine ⟨l, ?_, hlast, fun a => hl.mem_iff⟩
  simpa using climb_of_ascends hl (S.card + 1) (by omega) []

end Climb

/-! ## Breadth-first descent -/

/-- Pop the front of the queue, append its children to the queue and to the result. -/
def bfs (children : K → List K) : ℕ → List K → List K → Option (List K)
  | _, [], result => some result
  | 0, _ :: _, _ => none
  | fuel + 1, current :: queue, result =>
    bfs children fuel (queue ++ children current) (result ++ children current)

theorem bfs_mono {children : K → List K} {fuel fuel' : ℕ} (hle : fuel ≤ fuel')
    {queue result r : List K} (h : bfs children fuel queue result = some r) :
    bfs children fuel' queue result = some r := by
  induction fuel generalizing fuel' queue result with
  | zero =>
    cases queue with
    | nil => cases fuel' <;> simpa [bfs] using h
    | cons => simp [bfs] at h
  | succ n ih =>
    cases queue with
    | nil => cases fuel' <;> simpa [bfs] using h
    | cons =>
      obtain ⟨m, rfl⟩ : ∃ m, fuel' = m + 1 := ⟨fuel' - 1, by omega⟩
      simp only [bfs] at h ⊢
      exact ih (by omega) h

/-- A forest seen from both sides: a finite set of nodes, duplicate-free child lists that
agree with the parent pointers, and no cycles. -/
structure Listed (parent : K → Option K) (children : K → List K) (S : Finset K) : Prop where
  mem_children : ∀ x c, c ∈ children x ↔ parent c = some x
  nodup : ∀ x, (children x).Nodup
  node : ∀ a b, Up parent a b → a ∈ S
  acyclic : ∀ x, ¬ Below parent x x

/-- The state of a descent from `start` when `visited` has been popped, `queue` is waiting
and `result` has been collected. -/
structure Frontier (parent : K → Option K) (children : K → List K) (start : K)
    (visited queue result : List K) : Prop where
  split : start :: result = visited ++ queue
  nodup : (start :: result).Nodup
  below : ∀ r ∈ result, Below parent r start
  origin : ∀ r ∈ result, ∃ v ∈ visited, parent r = some v
  closed : ∀ v ∈ visited, ∀ c ∈ children v, c ∈ result

section Descent

variable {parent : K → Option K} {children : K → List K} {S : Finset K} {start : K}
  {visited queue result : List K}

variable (hF : Listed parent children S)
include hF

theorem Frontier.step {current : K}
    (h : Frontier parent children start visited (current :: queue) result) :
    Frontier parent children start (visited ++ [current]) (queue ++ children current)
      (result ++ children current) := by
  have hcur : current ∈ start :: result := by rw [h.split]; simp
  have hbelow : ∀ c ∈ children current, Below parent c start := by
    intro c hc
    have hup : Up parent c current := (hF.mem_children current c).mp hc
    rcases mem_cons.mp hcur with rfl | hr
    · exact TransGen.single hup
    · exact TransGen.head hup (h.below current hr)
  have hnotvis : current ∉ visited := by
    have hnd := h.nodup
    rw [h.split, nodup_append] at hnd
    exact fun hv => hnd.2.2 current hv current (by simp) rfl
  -- a child of `current` met before would have come from a visited parent
  have hfresh : ∀ c ∈ children current, c ∉ start :: result := by
    intro c hc hmem
    rcases mem_cons.mp hmem with rfl | hr
    · exact hF.acyclic c (hbelow c hc)
    · obtain ⟨v, hv, hpv⟩ := h.origin c hr
      have hpc := (hF.mem_children current c).mp hc
      rw [hpc] at hpv
      exact hnotvis (Option.some.inj hpv ▸ hv)
  refine ⟨?_, ?_, ?_, ?_, ?_⟩
  · rw [← cons_append, h.split]; simp
  · rw [← cons_append, nodup_append]
    refine ⟨h.nodup, hF.nodup current, ?_⟩
    intro a ha b hb hab
    exact hfresh b hb (hab ▸ ha)
  · intro r hr
    rcases mem_append.mp hr with hr | hr
    · exact h.below r hr
    · exact hbelow r hr
  · intro r hr
    rcases mem_append.mp hr with hr | hr
    · obtain ⟨v, hv, hpv⟩ := h.origin r hr
      exact ⟨v, mem_append_left _ hv, hpv⟩
    · exact ⟨current, by simp, (hF.mem_children current r).mp hr⟩
  · intro v hv c hc
    rcases mem_append.mp hv with hv | hv
    · exact mem_append_left _ (h.closed v hv c hc)
    · rw [mem_singleton.mp hv] at hc
      exact mem_append_right _ hc

theorem Frontier.length_le (h : Frontier parent children start visited queue result) :
    visited.length + queue.length ≤ S.card + 1 := by
  classical
  have hsub : result.toFinset ⊆ S := by
    intro r hr
    obtain ⟨b, hb, -⟩ := TransGen.head'_iff.mp (h.below r (mem_toFinset.mp hr))
    exact hF.node _ _ hb
  have hlen : result.length ≤ S.card := by
    rw [← toFinset_card_of_nodup (nodup_cons.mp h.nodup).2]
    exact Finset.card_le_card hsub
  have := congrArg List.length h.split
  simp only [length_cons, length_append] at this
  omega

theorem Frontier.complete (h : Frontier parent children start visited [] result) (d : K) :
    d ∈ result ↔ Below parent d start := by
  refine ⟨h.below d, fun hd => ?_⟩
  have hvis : visited = start :: result := by simpa using h.split.symm
  -- induction from the start downwards: a child of a collected node is collected
  induction hd using TransGen.head_induction_on with
  | single hup =>
    exact h.closed start (by simp [hvis]) _ ((hF.mem_children _ _).mpr hup)
  | head hup _ ih =>
    exact h.closed _ (by rw [hvis]; exact mem_cons_of_mem _ ih) _ ((hF.mem_children _ _).mpr hup)

/-- From any frontier the descent returns, given fuel for the nodes not yet
popped. -/
theorem bfs_of_frontier {fuel : ℕ} (h : Frontier parent children start visited queue result)
    (hfuel : S.card + 1 ≤ fuel + visited.length) :
    ∃ r, bfs children fuel queue result = some r ∧ r.Nodup ∧
      ∀ d, d ∈ r ↔ Below parent d start := by
  induction fuel generalizing visited queue result with
  | zero =>
    cases queue with
    | nil => exact ⟨result, by simp [bfs], (nodup_cons.mp h.nodup).2, h.complete hF⟩
    | cons =>
      have := h.length_le hF
      simp only [length_cons] at this
      omega
  | succ n ih =>
    cases queue with
    | nil => exact ⟨result, by simp [bfs], (nodup_cons.mp h.nodup).2, h.complete hF⟩
    | cons =>
      exact ih (h.step hF) (by simp only [length_append, length_singleton]; omega)

/-- **The descent returns the proper descendants, each once.** -/
theorem bfs_eq_some (start : K) : ∃ r, bfs children (S.card + 1) [start] [] = some r ∧ r.Nodup ∧
      ∀ d, d ∈ r ↔ Below parent d start := by
  have hstart : Frontier parent children start [] [start] [] :=
    ⟨rfl, by simp, by simp, by simp, by simp⟩
  exact bfs_of_frontier hF hstart (by simp)

end Descent

/-! ## Hanging a node under another one -/

section Reroot

variable [DecidableEq K] {parent : K → Option K} {children : K → List K} {c p root w : K}

def reroot (parent : K → Option K) (c p : K) : K → Option K :=
  fun w => if w = c then some p else parent w

/-- The child lists after `c` has been hung under `p`: dropped where it was, last under
`p`. -/
def relist (children : K → List K) (c p : K) : K → List K :=
  fun x => (children x).filter (· ≠ c) ++ if x = p then [c] else []

theorem mem_relist (h : ∀ x d, d ∈ children x ↔ parent d = some x) (x d : K) :
    d ∈ relist children c p x ↔ reroot parent c p d = some x := by
  unfold relist reroot
  by_cases hd : d = c
  · subst hd
    by_cases hx : x = p
    · simp [hx]
    · simp [hx, Ne.symm hx]
  · have hlist : d ∉ (if x = p then [c] else []) := by
      split <;> simp [hd]
    simp [hd, hlist, h x d]

theorem nodup_relist (h : ∀ x, (children x).Nodup) (x : K) : (relist children c p x).Nodup := by
  unfold relist
  rw [nodup_append]
  refine ⟨(h x).filter _, ?_, ?_⟩
  · split <;> simp
  · intro a ha b hb hab
    subst hab
    have hac : a ≠ c := by simpa using (mem_filter.mp ha).2
    split at hb
    · exact hac (mem_singleton.mp hb)
    · simp at hb

/-- After hanging a node under the root, every node that reached the root still
does. -/
theorem reaches_reroot (h : ReflTransGen (Up parent) w root) :
    ReflTransGen (Up (reroot parent c root)) w root := by
  induction h using head_induction_on with
  | refl => exact refl
  | @head a b hstep _ ih =>
    by_cases hac : a = c
    · exact single (by simp [Up, reroot, hac])
    · exact head (by simpa [Up, reroot, hac] using hstep) ih

theorem reaches_reroot_of_none (hc : parent c = none) (h : ReflTransGen (Up parent) w root) :
    ReflTransGen (Up (reroot parent c p)) w root := by
  induction h using head_induction_on with
  | refl => exact refl
  | @head a b hstep _ ih =>
    have hac : a ≠ c := by
      intro hac
      rw [hac, Up, hc] at hstep
      cases hstep
    exact head (by simpa [Up, reroot, hac] using hstep) ih

end Reroot

end Wacp.Library.Forest
