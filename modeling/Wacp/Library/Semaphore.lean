import Mathlib.Data.List.Perm.Basic

/-!
# A fair counting semaphore

Permits are handed out in the order of arrival: a released permit goes to the acquirer that has
waited longest and is put back only when nobody waits; who gives up leaves the line.
-/

namespace Wacp.Library

open List

variable {α : Type}

theorem countP_eq_countP_erase_add [DecidableEq α] (p : α → Bool) {l : List α} {a : α}
    (h : a ∈ l) : l.countP p = (l.erase a).countP p + if p a then 1 else 0 := by
  rw [(perm_cons_erase h).countP_eq, countP_cons]

theorem length_eq_length_erase_add [DecidableEq α] {l : List α} {a : α} (h : a ∈ l) :
    l.length = (l.erase a).length + 1 := by
  rw [(perm_cons_erase h).length_eq, length_cons]

/-- Free permits and the line of those that wait for one, the first to be served at the head. -/
structure Semaphore (α : Type) where
  available : ℕ
  waiters : List α
  deriving DecidableEq

namespace Semaphore

def new (permits : ℕ) : Semaphore α := ⟨permits, []⟩

def tryAcquire (s : Semaphore α) : Option (Semaphore α) :=
  if 0 < s.available then some { s with available := s.available - 1 } else none

/-- Take a permit if one is free, else join the line; whether a permit was taken. -/
def acquire (s : Semaphore α) (a : α) : Bool × Semaphore α :=
  match s.tryAcquire with
  | some s' => (true, s')
  | none => (false, { s with waiters := s.waiters ++ [a] })

/-- Give a permit back: to the first of the line, who is returned, or to the free ones. -/
def release (s : Semaphore α) : Option α × Semaphore α :=
  match s.waiters with
  | [] => (none, { s with available := s.available + 1 })
  | a :: rest => (some a, { s with waiters := rest })

def leave [DecidableEq α] (s : Semaphore α) (a : α) : Semaphore α :=
  { s with waiters := s.waiters.erase a }

variable {s s' : Semaphore α}

theorem tryAcquire_eq_some_iff : s.tryAcquire = some s' ↔
      0 < s.available ∧ s' = { s with available := s.available - 1 } := by
  unfold tryAcquire
  split
  · rename_i h
    constructor
    · intro hs
      exact ⟨h, (Option.some.inj hs).symm⟩
    · rintro ⟨-, rfl⟩
      rfl
  · rename_i h
    constructor
    · intro hs
      cases hs
    · rintro ⟨h', -⟩
      exact absurd h' h

theorem acquire_cases (s : Semaphore α) (a : α) :
    (0 < s.available ∧ s.acquire a = (true, { s with available := s.available - 1 })) ∨
      s.acquire a = (false, { s with waiters := s.waiters ++ [a] }) := by
  unfold acquire
  cases h : s.tryAcquire with
  | none => exact .inr rfl
  | some =>
    obtain ⟨hpos, rfl⟩ := tryAcquire_eq_some_iff.mp h
    exact .inl ⟨hpos, rfl⟩

theorem release_cases (s : Semaphore α) :
    (∃ a rest, s.waiters = a :: rest ∧ s.release = (some a, { s with waiters := rest })) ∨
      s.waiters = [] ∧ s.release = (none, { s with available := s.available + 1 }) := by
  unfold release
  cases h : s.waiters with
  | nil => exact .inr ⟨rfl, rfl⟩
  | cons a rest => exact .inl ⟨a, rest, rfl, rfl⟩

end Semaphore

end Wacp.Library
