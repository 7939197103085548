import Mathlib.Data.Set.Function
import Wacp.Library.HashChain
import Wacp.Model.Chain

/-!
# The hash chain is tamper-evident

Two accepted lists with the same last hash are the same, unless two hashed messages collide or one
is hashed to the genesis hash.
-/

namespace Wacp

open Library List HashChain ChainHash

section Sha

variable {sha256 : List UInt8 → ChainHash}

def previousHash (entries : List TrailRecord) (i : ℕ) : ChainHash :=
  last genesis (entries.take i)

def HashMatches (sha256 : List UInt8 → ChainHash) (entries : List TrailRecord) (i : ℕ) : Prop :=
  ∀ record, entries[i]? = some record →
    record.2 = computeChainHash sha256 (previousHash entries i) record.1

def messages (entries : List TrailRecord) : List (List UInt8) :=
  (steps genesis entries).map fun step => step.1.bytes ++ step.2

theorem messages_injective {a b : ChainHash × List UInt8}
    (h : a.1.bytes ++ a.2 = b.1.bytes ++ b.2) : a = b := by
  obtain ⟨hhash, hentry⟩ := append_inj h (by rw [a.1.size, b.1.size])
  have hfst : a.1 = b.1 := by
    cases ha : a.1 with
    | mk =>
      cases hb : b.1 with
      | mk =>
        rw [ha, hb] at hhash
        simp only [mk.injEq]
        exact hhash
  exact Prod.ext hfst hentry

/-! ## The loop -/

variable {entries : List TrailRecord}

theorem verifyChainLoop_ok_iff {previous : ChainHash} {i : ℕ} :
    verifyChainLoop sha256 previous i entries = .ok () ↔
      Linked (computeChainHash sha256) previous entries := by
  induction entries generalizing previous i with
  | nil => exact ⟨fun _ => trivial, fun _ => rfl⟩
  | cons record entries ih =>
    rw [verifyChainLoop, Linked]
    by_cases hmatch : computeChainHash sha256 previous record.1 = record.2
    · rw [if_neg (not_not.mpr hmatch), ih]
      exact ⟨fun h => ⟨hmatch.symm, h⟩, fun h => h.2⟩
    · rw [if_pos hmatch]
      refine ⟨fun h => ?_, fun h => absurd h.1.symm hmatch⟩
      cases h

/-- **A rejection reports the first mismatch.** -/
theorem verifyChainLoop_error {previous : ChainHash} {i : ℕ}
    {e : ChainVerificationError} (h : verifyChainLoop sha256 previous i entries = .error e) :
    ∃ before record after, entries = before ++ record :: after ∧ e.index = i + before.length ∧
      Linked (computeChainHash sha256) previous before ∧
      e.expected = record.2 ∧
      e.computed = computeChainHash sha256 (last previous before) record.1 ∧
      e.computed ≠ e.expected := by
  induction entries generalizing previous i with
  | nil => cases h
  | cons record entries ih =>
    rw [verifyChainLoop] at h
    by_cases hmatch : computeChainHash sha256 previous record.1 = record.2
    · rw [if_neg (not_not.mpr hmatch)] at h
      obtain ⟨before, bad, after, rfl, hindex, hlinked, hexp, hcomp, hne⟩ := ih h
      refine ⟨record :: before, bad, after, rfl, ?_, ⟨hmatch.symm, hlinked⟩, hexp, ?_, hne⟩
      · rw [hindex, length_cons]
        omega
      · rw [last_cons]
        exact hcomp
    · rw [if_pos hmatch] at h
      cases h
      exact ⟨[], record, entries, rfl, rfl, trivial, rfl, rfl, hmatch⟩

/-! ## The chain -/

/-- **The chain is tamper-evident**; a rejection names the first hash that does not match. -/
theorem chain_tamper_evident (sha256 : List UInt8 → ChainHash) (entries : List TrailRecord) :
    (verifyChain sha256 entries = .ok () ↔ ∀ i, HashMatches sha256 entries i) ∧
    (∀ entries', Set.InjOn sha256 {m | m ∈ messages entries ∨ m ∈ messages entries'} →
      (∀ m, m ∈ messages entries ∨ m ∈ messages entries' → sha256 m ≠ genesis) →
      verifyChain sha256 entries = .ok () → verifyChain sha256 entries' = .ok () →
      last genesis entries = last genesis entries' →
      entries = entries') ∧
    (∀ e, verifyChain sha256 entries = .error e →
      (∀ j < e.index, HashMatches sha256 entries j) ∧
      ∃ record, entries[e.index]? = some record ∧ e.expected = record.2 ∧
        e.computed = computeChainHash sha256 (previousHash entries e.index) record.1 ∧
        e.computed ≠ e.expected) := by
  refine ⟨?_, ?_, ?_⟩
  · exact verifyChainLoop_ok_iff.trans (linked_iff _ _ _)
  · intro entries' hinj hzero h h' hlast
    have hmem : ∀ {l : List TrailRecord} {a : ChainHash × List UInt8},
        a ∈ steps genesis l → a.1.bytes ++ a.2 ∈ messages l :=
      fun ha => mem_map_of_mem ha
    refine eq_of_last_eq ?_ ?_ (verifyChainLoop_ok_iff.mp h) (verifyChainLoop_ok_iff.mp h') hlast
    · intro a ha b hb heq
      exact messages_injective (hinj (.inl (hmem ha)) (.inr (hmem hb)) heq)
    · intro a ha
      rcases mem_append.mp ha with ha | ha
      · exact hzero _ (.inl (hmem ha))
      · exact hzero _ (.inr (hmem ha))
  · intro e he
    obtain ⟨before, record, after, hentries, hindex, hlinked, hexp, hcomp, hne⟩ :=
      verifyChainLoop_error he
    rw [Nat.zero_add] at hindex
    have htake : ∀ j ≤ before.length, entries.take j = before.take j := by
      intro j hj
      rw [hentries, take_append_of_le_length hj]
    have hprevious : previousHash entries e.index = last genesis before := by
      rw [previousHash, hindex, htake _ (Nat.le_refl _), take_length]
    constructor
    · intro j hj x hx
      rw [hindex] at hj
      rw [hentries, getElem?_append_left hj] at hx
      have hx' := (linked_iff _ _ before).mp hlinked j x hx
      rwa [← htake j (by omega)] at hx'
    · refine ⟨record, ?_, hexp, ?_, hne⟩
      · rw [hentries, hindex, getElem?_append_right (Nat.le_refl _), Nat.sub_self]
        rfl
      · rw [hprevious]
        exact hcomp

end Sha

def firstHash : ChainHash :=
  ⟨
    [65, 160, 55, 12, 61, 159, 66, 119, 58, 89, 232, 224, 22, 81, 145, 28, 244, 59, 30, 63,
     102, 148, 76, 187, 105, 0, 41, 222, 188, 78, 182, 71],
    rfl⟩

def secondHash : ChainHash :=
  ⟨
    [171, 204, 190, 155, 36, 210, 187, 211, 170, 19, 96, 214, 5, 20, 122, 132, 29, 208, 81,
     19, 1, 49, 198, 146, 157, 96, 4, 225, 174, 71, 150, 232],
    rfl⟩

def tamperedHash : ChainHash :=
  ⟨
    [39, 26, 36, 91, 55, 161, 242, 203, 183, 186, 31, 215, 246, 171, 20, 208, 15, 216, 36, 1,
     204, 187, 255, 29, 70, 198, 232, 177, 169, 227, 250, 188],
    rfl⟩

def sampleSha256 (message : List UInt8) : ChainHash :=
  if message = genesis.bytes ++ [97] then firstHash
  else if message = firstHash.bytes ++ [98] then secondHash
  else tamperedHash

def sampleChain : List TrailRecord := [([97], firstHash), ([98], secondHash)]

theorem chain_tamper_evident_two_entries :
    (∀ i, HashMatches sampleSha256 sampleChain i) ∧
    (Set.InjOn sampleSha256 {m | m ∈ messages sampleChain ∨ m ∈ messages sampleChain} ∧
      verifyChain sampleSha256 sampleChain = .ok () ∧ sampleChain = sampleChain) ∧
    (∀ j < 1, HashMatches sampleSha256 [([97], firstHash), ([99], secondHash)] j) ∧
    verifyChain sampleSha256 [([97], firstHash), ([99], secondHash)] =
      .error { index := 1, expected := secondHash, computed := tamperedHash } := by
  have hok : verifyChain sampleSha256 sampleChain = .ok () := by decide
  have hbad : verifyChain sampleSha256 [([97], firstHash), ([99], secondHash)] =
      .error { index := 1, expected := secondHash, computed := tamperedHash } := by decide
  obtain ⟨haccept, hsame, -⟩ := chain_tamper_evident sampleSha256 sampleChain
  obtain ⟨-, -, hreject⟩ := chain_tamper_evident sampleSha256 [([97], firstHash), ([99], secondHash)]
  have hdistinct : ∀ m ∈ messages sampleChain, ∀ m' ∈ messages sampleChain,
      sampleSha256 m = sampleSha256 m' → m = m' := by decide
  have hzero : ∀ m ∈ messages sampleChain, sampleSha256 m ≠ genesis := by decide
  have hinj : Set.InjOn sampleSha256
      {m | m ∈ messages sampleChain ∨ m ∈ messages sampleChain} :=
    fun m hm m' hm' => hdistinct m (or_self_iff.mp hm) m' (or_self_iff.mp hm')
  have hall := hsame _ hinj (fun m hm => hzero m (or_self_iff.mp hm)) hok hok rfl
  exact ⟨haccept.mp hok, ⟨hinj, hok, hall⟩, (hreject _ hbad).1, hbad⟩

end Wacp
