import Mathlib.Data.List.Nodup

/-!
# Depth-first search

`visit` marks a key, visits what its node depends on, and then appends the node. Where nodes rank
above their dependencies, the key at hand is below all keys under way, and dependencies come first.
-/

namespace Wacp.Library.DepthFirst

open List

variable {K N : Type} (find : K → Option N) (deps : N → List K) {key : N → K} {rank : K → ℕ}

structure Search (K N : Type) where
  visited : List K
  finished : List N

def visit [DecidableEq K] : ℕ → Search K N → K → Option (Search K N)
  | 0, _, _ => none
  | fuel + 1, s, k =>
    if k ∈ s.visited then some s
    else match find k with
      | none => some ⟨k :: s.visited, s.finished⟩
      | some n => do
        let t ← (deps n).foldlM (visit fuel) ⟨k :: s.visited, s.finished⟩
        return ⟨t.visited, t.finished ++ [n]⟩

/-- The state of a search with the keys of `path` under way. -/
structure Sound (key : N → K) (path : List K) (s : Search K N) : Prop where
  nodup : s.visited.Nodup
  perm : s.visited.Perm (s.finished.map key ++ path)
  found : ∀ n ∈ s.finished, find (key n) = some n
  ordered : ∀ pre n post, s.finished = pre ++ n :: post → ∀ d ∈ deps n, d ∈ pre.map key

variable {find deps} {path : List K} {s t : Search K N}

/-- **A node is finished** once its dependencies were visited with it under way. -/
theorem Sound.finish {n : N} (h : Sound find deps key (key n :: path) t)
    (hfind : find (key n) = some n) (hpath : ∀ o ∈ path, rank (key n) < rank o)
    (hdeps : ∀ d ∈ deps n, d ∈ t.visited ∧ rank d < rank (key n)) :
    Sound find deps key path ⟨t.visited, t.finished ++ [n]⟩ := by
  refine ⟨h.nodup, by simpa using h.perm, ?_, ?_⟩
  · simpa [or_imp, forall_and] using ⟨h.found, hfind⟩
  · intro pre m post heq
    rcases eq_nil_or_concat' post with rfl | ⟨post, x, rfl⟩
    · obtain ⟨rfl, hm⟩ := append_inj' heq rfl
      cases hm
      intro d hd
      obtain ⟨hvisited, hlt⟩ := hdeps d hd
      rw [h.perm.mem_iff, mem_append, mem_cons] at hvisited
      -- a dependency under way would have a higher rank
      refine hvisited.resolve_right ?_
      rintro (rfl | ho)
      · exact Nat.lt_irrefl _ hlt
      · exact Nat.lt_asymm hlt (hpath d ho)
    · rw [← cons_append, ← append_assoc] at heq
      exact h.ordered pre m post (append_inj' heq rfl).1

/-- **The search returns** with more fuel than the ranks, and has visited what it started from. -/
theorem exists_search [DecidableEq K] (hfind : ∀ k n, find k = some n →
      key n = k ∧ ∀ d ∈ deps n, find d ≠ none ∧ rank d < rank k) (fuel : ℕ) {ks : List K}
    (hs : Sound find deps key path s)
    (hks : ∀ k ∈ ks, find k ≠ none ∧ rank k < fuel ∧ ∀ o ∈ path, rank k < rank o) :
    ∃ t, ks.foldlM (visit find deps fuel) s = some t ∧ Sound find deps key path t ∧
      ks ++ s.visited ⊆ t.visited := by
  -- the fuel bounds the depth; at each depth the keys are visited in turn
  induction fuel generalizing ks path s with
  | zero =>
    obtain rfl := eq_nil_iff_forall_not_mem.mpr fun k hk => Nat.not_lt_zero _ (hks k hk).2.1
    exact ⟨s, rfl, hs, fun _ => id⟩
  | succ fuel ih =>
    induction ks generalizing s with
    | nil => exact ⟨s, rfl, hs, fun _ => id⟩
    | cons k ks ihks =>
      obtain ⟨⟨hknown, hrank, hpath⟩, hks⟩ := forall_mem_cons.mp hks
      have hvisit : ∃ t, visit find deps (fuel + 1) s k = some t ∧ Sound find deps key path t ∧
          k :: s.visited ⊆ t.visited := by
        by_cases hk : k ∈ s.visited
        · exact ⟨s, by simp [visit, hk], hs, cons_subset.mpr ⟨hk, fun _ => id⟩⟩
        obtain ⟨n, hn⟩ := Option.ne_none_iff_exists'.mp hknown
        obtain ⟨rfl, hdeps⟩ := hfind k n hn
        have hmark : Sound find deps key (key n :: path) ⟨key n :: s.visited, s.finished⟩ :=
          ⟨nodup_cons.mpr ⟨hk, hs.nodup⟩, (hs.perm.cons _).trans perm_middle.symm, hs.found,
            hs.ordered⟩
        obtain ⟨t, ht, hsound, hsub⟩ := ih hmark fun d hd => by
          obtain ⟨hd, hlt⟩ := hdeps d hd
          exact ⟨hd, by omega, forall_mem_cons.mpr ⟨hlt, fun o ho => Nat.lt_trans hlt (hpath o ho)⟩⟩
        rw [append_subset] at hsub
        exact ⟨_, by simp [visit, hk, hn, ht],
          hsound.finish hn hpath fun d hd => ⟨hsub.1 hd, (hdeps d hd).2⟩, hsub.2⟩
      obtain ⟨t, ht, hsound, hsub⟩ := hvisit
      obtain ⟨u, hu, hsound, hsub'⟩ := ihks hsound hks
      rw [cons_subset] at hsub
      rw [append_subset] at hsub'
      refine ⟨u, by simp [ht, hu], hsound, ?_⟩
      rw [cons_append, cons_subset, append_subset]
      exact ⟨hsub'.2 hsub.1, hsub'.1, fun o ho => hsub'.2 (hsub.2 ho)⟩

end Wacp.Library.DepthFirst
