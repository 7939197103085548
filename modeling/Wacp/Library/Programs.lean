import Mathlib.Data.List.Induction
import Mathlib.Logic.Basic

/-!
# Programs of atomic calls

A program reaches what it shares with others only through calls. `Prog Call Reply α` has these
programs as trees, so that a function of the source is written as it stands, in `do` notation, and
others may run at every call. A protocol `next φ e` gives the phase after the exchange `e` in the
phase `φ`, if it is allowed there. `Prog.Follows` says that a program keeps to it whatever it is
answered: alone (`Prog.run`) or interleaved with others (`Pool`). `Prog.interpret` puts a program of
finer calls in the place of every call.
-/

namespace Wacp.Library

open List Option

inductive Prog (Call : Type) (Reply : Call → Type) (α : Type) where
  | ret (a : α)
  | call (c : Call) (k : Reply c → Prog Call Reply α)

structure Exchange (Call : Type) (Reply : Call → Type) where
  call : Call
  reply : Reply call

variable {Call : Type} {Reply : Call → Type} {α β S E Φ : Type}

section Tried

/-! A call that failed and left the state, or had its effect. -/

variable {ε : Type} {s s' : S} {a : α} {x : Except ε α × S}
  (h : (∃ e, x = (.error e, s)) ∨ x = (.ok a, s'))
include h

theorem keeps_of_tried (P : S → Prop) (hs : P s) (hs' : P s') : P x.2 := by
  obtain ⟨e, rfl⟩ | rfl := h
  · exact hs
  · exact hs'

theorem eq_of_tried {b : α} (hb : x.1 = .ok b) : a = b := by
  obtain ⟨e, rfl⟩ | rfl := h
  · cases hb
  · exact Except.ok.inj hb

end Tried

namespace Prog

def bind : Prog Call Reply α → (α → Prog Call Reply β) → Prog Call Reply β
  | ret a, f => f a
  | call c k, f => call c fun r => (k r).bind f

instance : Monad (Prog Call Reply) where
  pure := ret
  bind := bind

def perform (c : Call) : Prog Call Reply (Reply c) :=
  call c ret

/-- A program that is stopped in the middle returns `a`; one that has returned stays as it is. -/
def halt (a : α) : Prog Call Reply α → Prog Call Reply α
  | ret b => ret b
  | call _ _ => ret a

/-! ## Keeping to a protocol -/

/-- Whatever the replies are, every exchange of the program is allowed in the phase that the ones
before it led to, and at the end `post` holds of the phase and the value returned. -/
def Follows (next : Φ → Exchange Call Reply → Option Φ) (post : Φ → α → Prop) :
    Prog Call Reply α → Φ → Prop
  | ret a, φ => post φ a
  | call c k, φ => ∀ r, ∃ φ', next φ ⟨c, r⟩ = some φ' ∧ (k r).Follows next post φ'

section Follows

variable {next : Φ → Exchange Call Reply → Option Φ} {φ : Φ} {post : Φ → β → Prop}

/-- **The rule for a call**: every reply is allowed, and the rest keeps to the protocol
from the phase that it leads to. -/
theorem Follows.perform {c : Call} {f : Reply c → Prog Call Reply β}
    (h : ∀ r, ∃ φ', next φ ⟨c, r⟩ = some φ' ∧ (f r).Follows next post φ') :
    (Prog.perform c >>= f).Follows next post φ :=
  h

variable {p : Prog Call Reply α}

/-- **The rule for a sequence**: what holds where the first part ends is enough for the
second part. -/
theorem Follows.bind {f : α → Prog Call Reply β} {mid : Φ → α → Prop} (hp : p.Follows next mid φ)
    (hf : ∀ φ a, mid φ a → (f a).Follows next post φ) : (p >>= f).Follows next post φ := by
  induction p generalizing φ with
  | ret a => exact hf φ a hp
  | call c k ih =>
    intro r
    obtain ⟨φ', hnext, hrest⟩ := hp r
    exact ⟨φ', hnext, ih r hrest⟩

/-- The program ends in the phase that it begins in. -/
def Stays (next : Φ → Exchange Call Reply → Option Φ) (φ : Φ) (p : Prog Call Reply α) : Prop :=
  p.Follows next (fun φ' _ => φ' = φ) φ

theorem Stays.bind {f : α → Prog Call Reply β} (hp : p.Stays next φ)
    (hf : ∀ a, (f a).Follows next post φ) : (p >>= f).Follows next post φ := by
  refine Follows.bind hp ?_
  rintro φ a rfl
  exact hf a

theorem Follows.mono {post post' : Φ → α → Prop} (h : p.Follows next post φ)
    (hpost : ∀ φ a, post φ a → post' φ a) : p.Follows next post' φ := by
  induction p generalizing φ with
  | ret a => exact hpost φ a h
  | call c k ih =>
    intro r
    obtain ⟨φ', hnext, hrest⟩ := h r
    exact ⟨φ', hnext, ih r hrest⟩

/-- **The rule for a log.** An assertion on the phase and the exchanges so far that
every allowed exchange keeps holds of every log that the protocol allows. -/
theorem log_keeps {φ₀ : Φ} (A : Φ → List (Exchange Call Reply) → Prop) (h₀ : A φ₀ [])
    (hstep : ∀ φ φ' log x, A φ log → next φ x = some φ' → A φ' (log ++ [x]))
    {log : List (Exchange Call Reply)} (h : log.foldlM next φ₀ = some φ) : A φ log := by
  induction log using List.reverseRecOn generalizing φ with
  | nil =>
    cases h
    exact h₀
  | append_singleton log x ih =>
    rw [foldlM_append] at h
    obtain ⟨φ₁, hφ₁, hlast⟩ := bind_eq_some_iff.mp h
    exact hstep φ₁ φ log x (ih hφ₁) (by simpa using hlast)

end Follows

/-! ## What was returned -/

/-- The program makes exactly the exchanges of the log, and returns `b` on these replies. -/
def Returns : Prog Call Reply α → List (Exchange Call Reply) → α → Prop
  | ret a, log, b => log = [] ∧ a = b
  | call c k, log, b => ∃ r rest, log = ⟨c, r⟩ :: rest ∧ (k r).Returns rest b

section Returns

variable {log log' : List (Exchange Call Reply)}

theorem Returns.ret (a : α) : (Prog.ret a : Prog Call Reply α).Returns [] a := ⟨rfl, rfl⟩

theorem Returns.perform {c : Call} {f : Reply c → Prog Call Reply β} {r : Reply c} {b : β}
    (h : (f r).Returns log b) : (Prog.perform c >>= f).Returns (⟨c, r⟩ :: log) b :=
  ⟨r, log, rfl, h⟩

variable {p : Prog Call Reply α}

/-- What a program that keeps to a protocol exchanges is allowed by it, and at the end
the postcondition holds. -/
theorem Returns.follows {next : Φ → Exchange Call Reply → Option Φ} {post : Φ → α → Prop}
    {φ : Φ} {a : α} (h : p.Returns log a)
    (hp : p.Follows next post φ) : ∃ φ', log.foldlM next φ = some φ' ∧ post φ' a := by
  induction p generalizing φ log with
  | ret =>
    obtain ⟨rfl, rfl⟩ := h
    exact ⟨φ, rfl, hp⟩
  | call c k ih =>
    obtain ⟨r, rest, rfl, hrest⟩ := h
    obtain ⟨φ₁, hnext, hfollows⟩ := hp r
    rw [foldlM_cons, hnext]
    exact ih r hrest hfollows

theorem Returns.bind {f : α → Prog Call Reply β} {a : α} {b : β}
    (hp : p.Returns log a) (hf : (f a).Returns log' b) : (p >>= f).Returns (log ++ log') b := by
  induction p generalizing log with
  | ret =>
    obtain ⟨rfl, rfl⟩ := hp
    exact hf
  | call c k ih =>
    obtain ⟨r, rest, rfl, hrest⟩ := hp
    exact ⟨r, rest ++ log', rfl, ih r hrest⟩

end Returns

/-! ## Finer calls -/

section Interpret

variable {Call' : Type} {Reply' : Call' → Type}

def interpret (answer : (c : Call) → Prog Call' Reply' (Reply c)) :
    Prog Call Reply α → Prog Call' Reply' α
  | ret a => ret a
  | call c k => answer c >>= fun r => (k r).interpret answer

theorem bind_assoc (p : Prog Call Reply α) (f : α → Prog Call Reply β)
    {γ : Type} (g : β → Prog Call Reply γ) : p >>= f >>= g = p >>= fun a => f a >>= g := by
  induction p with
  | ret => rfl
  | call c k ih => exact congrArg (call c) (funext ih)

theorem interpret_bind (answer : (c : Call) → Prog Call' Reply' (Reply c))
    (p : Prog Call Reply α) (f : α → Prog Call Reply β) :
    (p >>= f).interpret answer = p.interpret answer >>= fun a => (f a).interpret answer := by
  induction p with
  | ret => rfl
  | call c k ih =>
    show (answer c >>= fun r => (k r >>= f).interpret answer) =
      answer c >>= (fun r => (k r).interpret answer) >>= fun a => (f a).interpret answer
    rw [bind_assoc]
    exact congrArg _ (funext ih)

end Interpret

/-! ## One program alone -/

structure Ended (Call : Type) (Reply : Call → Type) (S α : Type) where
  result : α
  state : S
  log : List (Exchange Call Reply)

/-- The run of a program with nobody else: `exec` carries out a call, under what the `n`-th
element of the stream says of the outside at the `n`-th call. -/
def run (exec : (c : Call) → E → S → Reply c × S) :
    Prog Call Reply α → (ℕ → E) → S → Ended Call Reply S α
  | ret a, _, s => ⟨a, s, []⟩
  | call c k, env, s =>
    let r := (exec c (env 0) s).1
    let ended := (k r).run exec (fun n => env (n + 1)) (exec c (env 0) s).2
    { ended with log := ⟨c, r⟩ :: ended.log }

theorem run_perform {exec : (c : Call) → E → S → Reply c × S} {c : Call} {env : ℕ → E} {s t : S}
    {r : Reply c} (h : exec c (env 0) s = (r, t)) (f : Reply c → Prog Call Reply β) :
    (perform c >>= f).run exec env s =
      let ended := (f r).run exec (fun n => env (n + 1)) t
      { ended with log := ⟨c, r⟩ :: ended.log } := by
  show run exec (call c f) env s = _
  rw [run, h]

theorem run_bind (exec : (c : Call) → E → S → Reply c × S) (p : Prog Call Reply α)
    (f : α → Prog Call Reply β) (env : ℕ → E) (s : S) : (p >>= f).run exec env s =
      let first := p.run exec env s
      let second := (f first.result).run exec (fun n => env (first.log.length + n)) first.state
      { second with log := first.log ++ second.log } := by
  induction p generalizing env s with
  | ret => simp [Bind.bind, Prog.bind, run]
  | call c k ih =>
    have htail := ih (exec c (env 0) s).1 (fun n => env (n + 1)) (exec c (env 0) s).2
    simp only [Bind.bind] at htail
    simp [Bind.bind, Prog.bind, run, htail, Nat.add_right_comm]

/-- **The rule for one program alone.** An assertion on the phase, the state and the
log so far that every allowed exchange keeps holds at the end, where `post` holds as well. -/
theorem run_keeps {exec : (c : Call) → E → S → Reply c × S}
    {next : Φ → Exchange Call Reply → Option Φ} {post : Φ → α → Prop}
    (A : Φ → S → List (Exchange Call Reply) → Prop)
    (hstep : ∀ φ φ' s log c e, A φ s log → next φ ⟨c, (exec c e s).1⟩ = some φ' →
      A φ' (exec c e s).2 (log ++ [⟨c, (exec c e s).1⟩]))
    {p : Prog Call Reply α} {φ : Φ} (hp : p.Follows next post φ) (env : ℕ → E) {s : S}
    {log : List (Exchange Call Reply)} (hA : A φ s log) :
    ∃ φ', A φ' (p.run exec env s).state (log ++ (p.run exec env s).log) ∧
      post φ' (p.run exec env s).result := by
  induction p generalizing φ env s log with
  | ret => exact ⟨φ, by simpa [run] using hA, hp⟩
  | call c k ih =>
    obtain ⟨φ₁, hnext, hrest⟩ := hp (exec c (env 0) s).1
    obtain ⟨φ', hkept, hpost⟩ :=
      ih _ hrest (fun n => env (n + 1)) (hstep φ φ₁ s log c (env 0) hA hnext)
    refine ⟨φ', ?_, hpost⟩
    rw [append_assoc] at hkept
    exact hkept

/-! ## Programs behind a first call -/

/-- The program begins with the call `c`, and unless the reply is one of `G` it returns at once,
with a value of `post`. -/
def Guarded (c : Call) (G : Reply c → Prop) (post : α → Prop) (p : Prog Call Reply α) : Prop :=
  ∃ k, p = call c k ∧ ∀ r, ¬ G r → ∃ a, k r = ret a ∧ post a

section Guarded

variable {c : Call} {G : Reply c → Prop} {post : α → Prop} {p : Prog Call Reply α}

theorem Guarded.perform {f : Reply c → Prog Call Reply α}
    (h : ∀ r, ¬ G r → ∃ a, f r = ret a ∧ post a) : (Prog.perform c >>= f).Guarded c G post :=
  ⟨f, rfl, h⟩

/-- The rule for a sequence: the second part has nothing to do where the first part
returns at once. -/
theorem Guarded.bind {f : α → Prog Call Reply β} {post' : β → Prop} (h : p.Guarded c G post)
    (hf : ∀ a, post a → ∃ b, f a = ret b ∧ post' b) : (p >>= f).Guarded c G post' := by
  obtain ⟨k, rfl, hk⟩ := h
  refine ⟨fun r => (k r).bind f, rfl, fun r hr => ?_⟩
  obtain ⟨a, ha, hpost⟩ := hk r hr
  obtain ⟨b, hb, hpost'⟩ := hf a hpost
  refine ⟨b, ?_, hpost'⟩
  show (k r).bind f = ret b
  rw [ha]
  exact hb

theorem Guarded.interpret {Call' : Type} {Reply' : Call' → Type}
    {answer : (c : Call) → Prog Call' Reply' (Reply c)} {c' : Call'} {f : Reply' c' → Reply c}
    (hanswer : answer c = call c' fun r => ret (f r)) (h : p.Guarded c G post) :
    (p.interpret answer).Guarded c' (fun r => G (f r)) post := by
  obtain ⟨k, rfl, hk⟩ := h
  refine ⟨fun r => (k (f r)).interpret answer, ?_, fun r hr => ?_⟩
  · rw [Prog.interpret, hanswer]
    rfl
  · obtain ⟨a, ha, hpost⟩ := hk (f r) hr
    refine ⟨a, ?_, hpost⟩
    simp [ha, Prog.interpret]

/-- **The rule for a guard**: where another call is made, the reply to the first one was
one of `G`. -/
theorem Guarded.of_mem {exec : (c : Call) → E → S → Reply c × S} {env : ℕ → E} {s : S}
    {x : Exchange Call Reply} (h : p.Guarded c G post) (hx : x ∈ (p.run exec env s).log)
    (hcall : x.call ≠ c) : G (exec c (env 0) s).1 := by
  obtain ⟨k, rfl, hk⟩ := h
  by_contra hG
  obtain ⟨a, ha, -⟩ := hk _ hG
  simp only [run, ha, mem_singleton] at hx
  exact hcall (by rw [hx])

end Guarded

/-- However the outside behaves, the run of the program from `s` ends with a value and a state that
meet `Q`. -/
def Ends (exec : (c : Call) → E → S → Reply c × S) (p : Prog Call Reply α) (s : S)
    (Q : α → S → Prop) : Prop :=
  ∀ env, Q (p.run exec env s).result (p.run exec env s).state

section Ends

variable {exec : (c : Call) → E → S → Reply c × S} {s : S}

theorem Ends.ret {a : α} {Q : α → S → Prop} (h : Q a s) :
    (Prog.ret a : Prog Call Reply α).Ends exec s Q :=
  fun _ => h

theorem Ends.perform {c : Call} {Q : Reply c → S → Prop}
    (h : ∀ e, Q (exec c e s).1 (exec c e s).2) :
    (Prog.perform c : Prog Call Reply (Reply c)).Ends exec s Q :=
  fun env => h (env 0)

theorem Ends.bind {p : Prog Call Reply α} {f : α → Prog Call Reply β} {M : α → S → Prop}
    {Q : β → S → Prop} (hp : p.Ends exec s M) (hf : ∀ a t, M a t → (f a).Ends exec t Q) :
    (p >>= f).Ends exec s Q := by
  intro env
  rw [run_bind]
  exact hf _ _ (hp env) _

theorem Ends.of_invariant {I : S → Prop} (hexec : ∀ c e t, I t → I (exec c e t).2)
    (p : Prog Call Reply α) (hs : I s) : p.Ends exec s fun _ t => I t := by
  intro env
  induction p generalizing env s with
  | ret => exact hs
  | call c k ih => exact ih _ (hexec c (env 0) s hs) fun n => env (n + 1)

end Ends

/-! ## Two runs -/

/-- From related states the program returns the same value after the same number of calls, and
leaves states that are related by `Q`. -/
def SameAnswers (exec : (c : Call) → E → S → Reply c × S) (R Q : S → S → Prop)
    (p : Prog Call Reply α) : Prop :=
  ∀ env s s', R s s' →
    (p.run exec env s).result = (p.run exec env s').result ∧
      (p.run exec env s).log.length = (p.run exec env s').log.length ∧
      Q (p.run exec env s).state (p.run exec env s').state

section SameAnswers

variable {exec : (c : Call) → E → S → Reply c × S} {R Q Q' : S → S → Prop}

theorem SameAnswers.ret (a : α) : (Prog.ret a : Prog Call Reply α).SameAnswers exec R R :=
  fun _ _ _ hR => ⟨rfl, rfl, hR⟩

theorem SameAnswers.perform {c : Call}
    (h : ∀ e s s', R s s' → (exec c e s).1 = (exec c e s').1 ∧ Q (exec c e s).2 (exec c e s').2) :
    (Prog.perform c : Prog Call Reply (Reply c)).SameAnswers exec R Q :=
  fun env s s' hR => ⟨(h (env 0) s s' hR).1, rfl, (h (env 0) s s' hR).2⟩

variable {p : Prog Call Reply α}

/-- **The rule for a sequence**, for two runs. -/
theorem SameAnswers.bind {f : α → Prog Call Reply β}
    (hp : p.SameAnswers exec R Q) (hf : ∀ a, (f a).SameAnswers exec Q Q') :
    (p >>= f).SameAnswers exec R Q' := by
  intro env s s' hR
  obtain ⟨hresult, hlength, hQ⟩ := hp env s s' hR
  obtain ⟨hresult', hlength', hQ'⟩ := hf (p.run exec env s).result
    (fun n => env ((p.run exec env s).log.length + n)) _ _ hQ
  simp only [run_bind]
  rw [← hresult, ← hlength]
  refine ⟨hresult', ?_, hQ'⟩
  simp only [length_append]
  omega

theorem SameAnswers.mono (h : p.SameAnswers exec R Q)
    (hQ : ∀ s s', Q s s' → Q' s s') : p.SameAnswers exec R Q' := by
  intro env s s' hR
  obtain ⟨hresult, hlength, hstates⟩ := h env s s' hR
  exact ⟨hresult, hlength, hQ _ _ hstates⟩

end SameAnswers

end Prog

/-! ## Any number of programs -/

/-- Programs over one shared state, with what each of them has exchanged so far, in the order in
which it happened. A program is known by its place in the list. -/
structure Pool (Call : Type) (Reply : Call → Type) (S α : Type) where
  shared : S
  processes : List (Prog Call Reply α)
  history : List (ℕ × Exchange Call Reply)

namespace Pool

def start (q : Prog Call Reply α) (p : Pool Call Reply S α) : Pool Call Reply S α :=
  { p with processes := p.processes ++ [q] }

def stop (a : α) (p : Pool Call Reply S α) : Pool Call Reply S α :=
  { p with processes := p.processes.map (Prog.halt a) }

/-- The program at `i` makes its next call. A call may start further programs. -/
def advance (exec : (c : Call) → E → S → Reply c × S)
    (spawns : Call → E → List (Prog Call Reply α)) (i : ℕ) (e : E)
    (p : Pool Call Reply S α) : Option (Pool Call Reply S α) :=
  match p.processes[i]? with
  | some (.call c k) =>
    some
      { shared := (exec c e p.shared).2
        processes := p.processes.set i (k (exec c e p.shared).1) ++ spawns c e
        history := p.history ++ [(i, ⟨c, (exec c e p.shared).1⟩)] }
  | _ => none

def log (p : Pool Call Reply S α) (i : ℕ) : List (Exchange Call Reply) :=
  p.history.filterMap fun entry => if entry.1 = i then some entry.2 else none

/-- The phase to which the exchanges of the program at `i` lead, if they are all allowed. -/
def phase (next : Φ → Exchange Call Reply → Option Φ) (φ₀ : Φ) (p : Pool Call Reply S α)
    (i : ℕ) : Option Φ :=
  (p.log i).foldlM next φ₀

section

variable {next : Φ → Exchange Call Reply → Option Φ} {φ₀ : Φ} {post : Φ → α → Prop}

/-- Every program of the pool keeps to the protocol from the phase it is in. -/
structure Conforms (next : Φ → Exchange Call Reply → Option Φ) (φ₀ : Φ) (post : Φ → α → Prop)
    (p : Pool Call Reply S α) : Prop where
  known : ∀ i e, (i, e) ∈ p.history → i < p.processes.length
  follows : ∀ i q, p.processes[i]? = some q →
    ∃ φ, p.phase next φ₀ i = some φ ∧ q.Follows next post φ

variable {i : ℕ} {x : Exchange Call Reply} {p : Pool Call Reply S α}

theorem mem_log : x ∈ p.log i ↔ (i, x) ∈ p.history := by
  simp only [log, mem_filterMap, ite_none_right_eq_some, Option.some.injEq, Prod.exists]
  constructor
  · rintro ⟨j, y, hmem, rfl, rfl⟩
    exact hmem
  · intro hmem
    exact ⟨i, x, hmem, rfl, rfl⟩

theorem log_sublist (p : Pool Call Reply S α) (i : ℕ) :
    (p.log i).Sublist (p.history.map Prod.snd) := by
  unfold log
  induction p.history with
  | nil => exact List.Sublist.refl _
  | cons entry entries ih =>
    by_cases hi : entry.1 = i
    · simpa [filterMap_cons, hi] using ih
    · simpa [filterMap_cons, hi] using ih.cons entry.2

variable {p' : Pool Call Reply S α}

theorem log_eq_of_history_eq (h : p'.history = p.history) : p'.log = p.log := by
  funext i
  unfold log
  rw [h]

theorem phase_eq_of_history_eq (h : p'.history = p.history) :
    p'.phase next φ₀ = p.phase next φ₀ := by
  funext i
  unfold phase
  rw [log_eq_of_history_eq h]

theorem Conforms.phase_of_length_le (h : p.Conforms next φ₀ post)
    (hi : p.processes.length ≤ i) : p.phase next φ₀ i = some φ₀ := by
  have hlog : p.log i = [] := by
    rw [log, filterMap_eq_nil_iff]
    rintro ⟨j, e⟩ hmem
    have hj := h.known j e hmem
    have hne : j ≠ i := by omega
    simp [hne]
  rw [phase, hlog]
  rfl

theorem Conforms.exists_phase (h : p.Conforms next φ₀ post) (i : ℕ) :
    ∃ φ, p.phase next φ₀ i = some φ := by
  by_cases hi : i < p.processes.length
  · obtain ⟨φ, hφ, -⟩ := h.follows i _ (getElem?_eq_getElem hi)
    exact ⟨φ, hφ⟩
  · exact ⟨φ₀, h.phase_of_length_le (by omega)⟩

theorem conforms_of_empty {s : S} : (⟨s, [], []⟩ : Pool Call Reply S α).Conforms next φ₀ post where
  known i e hmem := by simp at hmem
  follows i q hq := by simp at hq

theorem Conforms.start (h : p.Conforms next φ₀ post)
    {q : Prog Call Reply α} (hq : q.Follows next post φ₀) : (p.start q).Conforms next φ₀ post where
  known i e hmem := by
    have hi := h.known i e hmem
    simp only [Pool.start, length_append, length_singleton]
    omega
  follows i q' hq' := by
    have hphase : (p.start q).phase next φ₀ = p.phase next φ₀ := phase_eq_of_history_eq rfl
    rw [hphase]
    rw [Pool.start, getElem?_append] at hq'
    split_ifs at hq' with hi
    · exact h.follows i q' hq'
    · rw [getElem?_singleton] at hq'
      split_ifs at hq'
      cases hq'
      exact ⟨φ₀, h.phase_of_length_le (by omega), hq⟩

theorem Conforms.stop (h : p.Conforms next φ₀ post) {a : α}
    (ha : ∀ φ, post φ a) : (p.stop a).Conforms next φ₀ post where
  known i e hmem := by
    have hi := h.known i e hmem
    simpa [Pool.stop] using hi
  follows i q' hq' := by
    have hphase : (p.stop a).phase next φ₀ = p.phase next φ₀ := phase_eq_of_history_eq rfl
    rw [hphase]
    rw [Pool.stop, getElem?_map, map_eq_some_iff] at hq'
    obtain ⟨q, hq, rfl⟩ := hq'
    obtain ⟨φ, hφ, hfollows⟩ := h.follows i q hq
    refine ⟨φ, hφ, ?_⟩
    cases q with
    | ret => exact hfollows
    | call => exact ha φ

variable {spawns : Call → E → List (Prog Call Reply α)} {e : E}
  {exec : (c : Call) → E → S → Reply c × S}

theorem advance_cases
    (h : p.advance exec spawns i e = some p') : ∃ c k, p.processes[i]? = some (.call c k) ∧ p' =
      { shared := (exec c e p.shared).2
        processes := p.processes.set i (k (exec c e p.shared).1) ++ spawns c e
        history := p.history ++ [(i, ⟨c, (exec c e p.shared).1⟩)] } := by
  unfold Pool.advance at h
  cases hq : p.processes[i]? with
  | none => simp [hq] at h
  | some q =>
    cases q with
    | ret => simp [hq] at h
    | call c k =>
      simp only [hq, Option.some.injEq] at h
      exact ⟨c, k, rfl, h.symm⟩

theorem log_of_history_append (h : p'.history = p.history ++ [(i, x)])
    (j : ℕ) : p'.log j = if i = j then p.log j ++ [x] else p.log j := by
  unfold log
  rw [h, filterMap_append]
  split_ifs with hij <;> simp [hij]

variable {φ φ' : Φ}

theorem phase_self_of_history_append
    (h : p'.history = p.history ++ [(i, x)]) (hφ : p.phase next φ₀ i = some φ)
    (hnext : next φ x = some φ') : p'.phase next φ₀ i = some φ' := by
  rw [phase, log_of_history_append h, if_pos rfl, foldlM_append]
  exact bind_eq_some_iff.mpr ⟨φ, hφ, by simpa using hnext⟩

variable {j : ℕ}

theorem phase_of_history_append (h : p'.history = p.history ++ [(i, x)])
    (hj : j ≠ i) : p'.phase next φ₀ j = p.phase next φ₀ j := by
  rw [phase, log_of_history_append h, if_neg (Ne.symm hj), phase]

/-- What one step of a pool does: the program at `i`, in the phase `φ`, makes a call that the
protocol allows there, and all others keep their phases. -/
structure Advances (exec : (c : Call) → E → S → Reply c × S)
    (next : Φ → Exchange Call Reply → Option Φ) (φ₀ : Φ) (p p' : Pool Call Reply S α) (i : ℕ)
    (e : E) (c : Call) (φ φ' : Φ) : Prop where
  shared : p'.shared = (exec c e p.shared).2
  history : p'.history = p.history ++ [(i, ⟨c, (exec c e p.shared).1⟩)]
  before : p.phase next φ₀ i = some φ
  allowed : next φ ⟨c, (exec c e p.shared).1⟩ = some φ'
  after : p'.phase next φ₀ i = some φ'
  others : ∀ j, j ≠ i → p'.phase next φ₀ j = p.phase next φ₀ j

/-- **What a step does to the phases**, and that the pool goes on keeping to the
protocol, provided the programs it starts do. -/
theorem Conforms.advance
    (h : p.Conforms next φ₀ post) (hspawns : ∀ c, ∀ q ∈ spawns c e, q.Follows next post φ₀)
    (hstep : p.advance exec spawns i e = some p') :
    p'.Conforms next φ₀ post ∧ ∃ c φ φ', Advances exec next φ₀ p p' i e c φ φ' := by
  obtain ⟨c, k, hq, hp'⟩ := advance_cases hstep
  obtain ⟨φ, hφ, hfollows⟩ := h.follows i _ hq
  obtain ⟨φ', hnext, hrest⟩ := hfollows (exec c e p.shared).1
  have hhist : p'.history = p.history ++ [(i, ⟨c, (exec c e p.shared).1⟩)] := by rw [hp']
  have hafter := phase_self_of_history_append hhist hφ hnext
  have hothers : ∀ j, j ≠ i → p'.phase next φ₀ j = p.phase next φ₀ j :=
    fun j hj => phase_of_history_append hhist hj
  have hi : i < p.processes.length := (List.getElem?_eq_some_iff.mp hq).1
  refine ⟨⟨?_, ?_⟩, c, φ, φ', by rw [hp'], hhist, hφ, hnext, hafter, hothers⟩
  · intro j x hmem
    have hj : j < p.processes.length := by
      rw [hhist] at hmem
      obtain hmem | hmem := mem_append.mp hmem
      · exact h.known j x hmem
      · cases mem_singleton.mp hmem
        exact hi
    simp only [hp', length_append, length_set]
    omega
  · intro j q' hq'
    simp only [hp', getElem?_append, length_set] at hq'
    split_ifs at hq' with hj
    · by_cases hji : j = i
      · subst hji
        rw [getElem?_set_self hi] at hq'
        cases hq'
        exact ⟨φ', hafter, hrest⟩
      · rw [getElem?_set_ne (Ne.symm hji)] at hq'
        rw [hothers j hji]
        exact h.follows j q' hq'
    · -- a program that the call started
      rw [hothers j (by omega), h.phase_of_length_le (by omega)]
      exact ⟨φ₀, rfl, hspawns c q' (mem_of_getElem? hq')⟩

/-! ## What a program relies on -/

def pending (p : Pool Call Reply S α) (i : ℕ) : Option Call :=
  match p.processes[i]? with
  | some (.call c _) => some c
  | _ => none

theorem Advances.pending {exec : (c : Call) → E → S → Reply c × S}
    {c : Call} (h : Advances exec next φ₀ p p' i e c φ φ')
    (hstep : p.advance exec spawns i e = some p') : p.pending i = some c := by
  obtain ⟨c', k, hq, hp'⟩ := advance_cases hstep
  have hhist := h.history
  rw [hp'] at hhist
  have hcall := append_cancel_left hhist
  simp only [List.cons.injEq, Prod.mk.injEq, Exchange.mk.injEq, true_and, and_true] at hcall
  rw [Pool.pending, hq]
  exact congrArg some hcall.1

theorem pending_of_advance
    (hstep : p.advance exec spawns i e = some p') (hj : j ≠ i) (hlt : j < p.processes.length) :
    p'.pending j = p.pending j := by
  obtain ⟨c, k, -, rfl⟩ := advance_cases hstep
  have hlength : j < (p.processes.set i (k (exec c e p.shared).1)).length := by
    rw [length_set]
    exact hlt
  simp [Pool.pending, getElem?_append_left hlength, getElem?_set_ne (Ne.symm hj)]

theorem pending_of_start (p : Pool Call Reply S α) (q : Prog Call Reply α)
    (hlt : j < p.processes.length) : (p.start q).pending j = p.pending j := by
  simp [Pool.pending, Pool.start, getElem?_append_left hlt]

/-- In the phase it is in, every program finds the shared state as it relies on it to be. -/
def Relies (next : Φ → Exchange Call Reply → Option Φ) (φ₀ : Φ) (holds : Φ → S → Prop)
    (p : Pool Call Reply S α) : Prop :=
  ∀ i φ, p.phase next φ₀ i = some φ → holds φ p.shared

variable {holds : Φ → S → Prop}

theorem Relies.start
    (h : p.Relies next φ₀ holds) (q : Prog Call Reply α) : (p.start q).Relies next φ₀ holds := by
  intro i φ hφ
  have hphase : (p.start q).phase next φ₀ = p.phase next φ₀ := phase_eq_of_history_eq rfl
  rw [hphase] at hφ
  exact h i φ hφ

/-- **The rule for what programs rely on.** The program that makes the step finds what
it relies on next, and the step takes nothing away from the others. -/
theorem Advances.relies {exec : (c : Call) → E → S → Reply c × S}
    {c : Call} (h : Advances exec next φ₀ p p' i e c φ φ')
    (hrel : p.Relies next φ₀ holds) (hown : holds φ' p'.shared)
    (hothers : ∀ j ψ, j ≠ i → p.phase next φ₀ j = some ψ → holds ψ p.shared → holds ψ p'.shared) :
    p'.Relies next φ₀ holds := by
  intro j ψ hψ
  by_cases hj : j = i
  · subst hj
    cases h.after.symm.trans hψ
    exact hown
  · rw [h.others j hj] at hψ
    exact hothers j ψ hj hψ (hrel j ψ hψ)

end

end Pool

end Wacp.Library
