import Wacp.Library.Runs

/-!
# Stamped message passing and happens-before

Processes stamp every event: a local one, the sending of a message that carries the stamp, or the
reception of a message sent earlier. `stamps_related` is the rule for logical clocks: a transitive
relation that the three operations establish between what they read and what they give relates the
stamps of any events ordered by `HappensBefore`.
-/

namespace Wacp.Library.Causality

open List Option

/-- How a process stamps its events: the new local state, whose stamp the event gets. -/
structure Stamping (S I T : Type) where
  stamp : S → T
  event : S → I → S
  send : S → I → S
  receive : S → I → T → S

/-- The kinds of events; a reception names the position of the event that sent the message. -/
inductive Kind where
  | event
  | send
  | receive (source : ℕ)
  deriving DecidableEq

structure Event (P T : Type) where
  process : P
  kind : Kind
  stamp : T
  deriving DecidableEq

structure World (P S T : Type) where
  states : P → S
  log : List (Event P T)

/-- What happens next: the process, the kind of event and the input the process reads. -/
structure Label (P I : Type) where
  process : P
  kind : Kind
  input : I
  deriving DecidableEq

variable {P S I T : Type}

/-- The direct order of two positions of a log: the same process, or a message. -/
def Direct (log : List (Event P T)) (i j : ℕ) : Prop :=
  ∃ e f, log[i]? = some e ∧ log[j]? = some f ∧
    ((i < j ∧ e.process = f.process) ∨ (e.kind = .send ∧ f.kind = .receive i))

def HappensBefore (log : List (Event P T)) : ℕ → ℕ → Prop := Relation.TransGen (Direct log)

/-- The stamp of the sending event at a position, which is what its message carries. -/
def World.message (w : World P S T) (source : ℕ) : Option T :=
  match w.log[source]? with
  | some e => if e.kind = .send then some e.stamp else none
  | none => none

variable [DecidableEq P]

def World.record (m : Stamping S I T) (w : World P S T) (p : P) (kind : Kind) (s : S) :
    World P S T :=
  { states := Function.update w.states p s
    log := w.log ++ [{ process := p, kind := kind, stamp := m.stamp s }] }

def World.apply (m : Stamping S I T) (w : World P S T) (l : Label P I) : Option (World P S T) :=
  match l.kind with
  | .event => some (w.record m l.process l.kind (m.event (w.states l.process) l.input))
  | .send => some (w.record m l.process l.kind (m.send (w.states l.process) l.input))
  | .receive source =>
    match w.message source with
    | some t => some (w.record m l.process l.kind (m.receive (w.states l.process) l.input t))
    | none => none

def Step (m : Stamping S I T) (w : World P S T) (l : Label P I) (w' : World P S T) : Prop :=
  w.apply m l = some w'

/-! ## The rule for logical clocks -/

section Rule

variable (m : Stamping S I T) (R : T → T → Prop)

/-- The operations relate the stamp of the local state, and the stamp of a received message,
to the stamp they give. -/
structure Advances : Prop where
  event : ∀ s i, R (m.stamp s) (m.stamp (m.event s i))
  send : ∀ s i, R (m.stamp s) (m.stamp (m.send s i))
  receive : ∀ s i t, R (m.stamp s) (m.stamp (m.receive s i t)) ∧ R t (m.stamp (m.receive s i t))

/-- Every logged stamp is its process's current one or related to it, a message is received
after it was sent, and direct edges relate their stamps. -/
structure Ordered (w : World P S T) : Prop where
  local_le : ∀ e ∈ w.log, e.stamp = m.stamp (w.states e.process) ∨
    R e.stamp (m.stamp (w.states e.process))
  sent : ∀ (j i : ℕ) (f : Event P T), w.log[j]? = some f → f.kind = .receive i → i < j
  direct : ∀ (i j : ℕ) (e f : Event P T), w.log[i]? = some e → w.log[j]? = some f →
    Direct w.log i j → R e.stamp f.stamp

variable {m R}

omit [DecidableEq P] in
theorem message_eq_some {w : World P S T} {source : ℕ} {t : T} (h : w.message source = some t) :
    ∃ e, w.log[source]? = some e ∧ e.stamp = t := by
  unfold World.message at h
  split at h
  · next e he =>
      split_ifs at h
      exact ⟨e, he, some.inj h⟩
  · cases h

/-- What one event does: the process moves to a state whose stamp is related to its
old one and, for a reception, to the stamp of the message. -/
theorem step_cases (hadv : Advances m R) {w w' : World P S T} {l : Label P I} (h : Step m w l w') :
    ∃ s, w' = w.record m l.process l.kind s ∧ R (m.stamp (w.states l.process)) (m.stamp s) ∧
      ∀ source, l.kind = .receive source →
        ∃ t, w.message source = some t ∧ R t (m.stamp s) := by
  obtain ⟨p, kind, i⟩ := l
  unfold Step World.apply at h
  cases kind with
  | event =>
    refine ⟨_, (some.inj h).symm, hadv.event _ _, ?_⟩
    intro source hsource
    cases hsource
  | send =>
    refine ⟨_, (some.inj h).symm, hadv.send _ _, ?_⟩
    intro source hsource
    cases hsource
  | receive source =>
    cases hmsg : w.message source with
    | none => simp [hmsg] at h
    | some t =>
      have hrel := hadv.receive (w.states p) i t
      simp only [hmsg, some.injEq] at h
      refine ⟨_, h.symm, hrel.1, ?_⟩
      intro source' hsource
      cases hsource
      exact ⟨t, hmsg, hrel.2⟩

theorem getElem?_concat {α : Type} {l : List α} {a b : α} {i : ℕ} (h : (l ++ [a])[i]? = some b) :
    (i < l.length ∧ l[i]? = some b) ∨ (i = l.length ∧ b = a) := by
  rcases Nat.lt_trichotomy i l.length with hi | hi | hi
  · rw [getElem?_append_left hi] at h
    exact .inl ⟨hi, h⟩
  · subst hi
    simp only [getElem?_concat_length, some.injEq] at h
    exact .inr ⟨rfl, h.symm⟩
  · rw [getElem?_eq_none (by simp; omega)] at h
    cases h

theorem Ordered.step (htrans : ∀ a b c, R a b → R b c → R a c) (hadv : Advances m R)
    {w w' : World P S T} {l : Label P I} (hw : Ordered m R w) (h : Step m w l w') :
    Ordered m R w' := by
  obtain ⟨s, rfl, hlocal, hmsg⟩ := step_cases hadv h
  have hbelow : ∀ e ∈ w.log, e.process = l.process → R e.stamp (m.stamp s) := by
    intro e he hp
    rcases hw.local_le e he with heq | hrel
    · rw [heq, hp]
      exact hlocal
    · rw [hp] at hrel
      exact htrans _ _ _ hrel hlocal
  have hsent : ∀ (j i : ℕ) (f : Event P T),
      (w.record m l.process l.kind s).log[j]? = some f → f.kind = .receive i → i < j := by
    intro j i f hj hf
    rcases getElem?_concat hj with ⟨-, hj⟩ | ⟨rfl, rfl⟩
    · exact hw.sent j i f hj hf
    · obtain ⟨t, ht, -⟩ := hmsg i hf
      obtain ⟨e, he, -⟩ := message_eq_some ht
      exact (List.getElem?_eq_some_iff.mp he).1
  refine ⟨?_, hsent, ?_⟩
  · intro e he
    rcases mem_append.mp he with he | he
    · by_cases hp : e.process = l.process
      · right
        simpa [World.record, hp] using hbelow e he hp
      · simpa [World.record, hp] using hw.local_le e he
    · obtain rfl := mem_singleton.mp he
      simp [World.record]
  · intro i j e f hi hj hdirect
    obtain ⟨e', f', hi', hj', hedge⟩ := hdirect
    obtain rfl : e' = e := some.inj (hi'.symm.trans hi)
    obtain rfl : f' = f := some.inj (hj'.symm.trans hj)
    have hlt : i < j := by
      rcases hedge with ⟨hlt, -⟩ | ⟨-, hf⟩
      · exact hlt
      · exact hsent j i f' hj hf
    -- an edge into an old event is an old edge; an edge into the new one is the step's own
    rcases getElem?_concat hj with ⟨hjlt, hj⟩ | ⟨rfl, rfl⟩
    · have hi : w.log[i]? = some e' := by
        rcases getElem?_concat hi with ⟨-, hi⟩ | ⟨rfl, -⟩
        · exact hi
        · omega
      exact hw.direct i j e' f' hi hj ⟨e', f', hi, hj, hedge⟩
    · have hi : w.log[i]? = some e' := by
        rcases getElem?_concat hi with ⟨-, hi⟩ | ⟨rfl, -⟩
        · exact hi
        · omega
      rcases hedge with ⟨-, hp⟩ | ⟨-, hf⟩
      · exact hbelow e' (mem_of_getElem? hi) hp
      · obtain ⟨t, ht, hrel⟩ := hmsg i hf
        obtain ⟨e, he, rfl⟩ := message_eq_some ht
        obtain rfl : e = e' := some.inj (he.symm.trans hi)
        exact hrel

/-- **The rule for logical clocks.** In every run from processes in any local states
and an empty log, stamps of events ordered by happens-before are related. -/
theorem stamps_related (htrans : ∀ a b c, R a b → R b c → R a c) (hadv : Advances m R)
    {initial : P → S} {w : World P S T}
    (hrun : Run (Step m) anyStep { states := initial, log := [] } w)
    {i j : ℕ} {e f : Event P T} (hi : w.log[i]? = some e) (hj : w.log[j]? = some f)
    (h : HappensBefore w.log i j) : R e.stamp f.stamp := by
  have hstart : Ordered m R ({ states := initial, log := [] } : World P S T) :=
    ⟨by simp, by simp, by simp⟩
  have hw : Ordered m R w :=
    hrun.invariant (Ordered m R) (fun hs _ hst => hs.step htrans hadv hst) hstart
  -- along the path; every inner position of it holds an event, whose stamp links the two halves
  induction h generalizing f with
  | single hd => exact hw.direct i _ e f hi hj hd
  | tail _ hd ih =>
    obtain ⟨g, f', hg, hf', hedge⟩ := hd
    have hmid := ih hg
    have hlast := hw.direct _ _ g f hg hj ⟨g, f', hg, hf', hedge⟩
    exact htrans _ _ _ hmid hlast

end Rule

end Wacp.Library.Causality
