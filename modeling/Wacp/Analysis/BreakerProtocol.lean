import Wacp.Library.Runs
import Wacp.Model.ToolRegistry

/-!
# Circuit breaker protocol

A half-open breaker reads the next result of any call as that of the probe, and a probe without a
report leaves it half-open. A step is `Clean` if only probes report while the breaker is half-open.
-/

namespace Wacp

open Library List Option CircuitBreaker ToolRegistry

/-! ## The breaker alone -/

namespace CircuitBreaker

variable (b : CircuitBreaker) (now : ℕ)

/-- **What `check` does**: it refuses, admits with the breaker closed or off, or admits a probe. -/
theorem check_cases : (∃ e, b.check now = (.error e, b)) ∨
      ((b.config.enabled = false ∨ b.status = .closed) ∧ b.check now = (.ok (), b)) ∨
      (b.status = .opened ∧ b.check now = (.ok (), { b with status := .halfOpen })) := by
  unfold check
  cases hen : b.config.enabled with
  | false => exact .inr (.inl ⟨.inl rfl, rfl⟩)
  | true =>
    cases hst : b.status with
    | closed => exact .inr (.inl ⟨.inr rfl, rfl⟩)
    | halfOpen => exact .inl ⟨_, rfl⟩
    | opened =>
      cases hat : b.openedAt with
      | none => exact .inl ⟨_, rfl⟩
      | some =>
        simp only [Bool.not_true, Bool.false_eq_true, if_false]
        split
        · exact .inr (.inr ⟨trivial, rfl⟩)
        · exact .inl ⟨_, rfl⟩

end CircuitBreaker

namespace CallEnd

def recorded : CallEnd → Bool
  | .overloaded => false
  | .dropped => false
  | .result (.ok _) => true
  | .result (.error .timeout) => true
  | .result (.error .executionFailed) => true
  | .result (.error .internalError) => true
  | .result (.error _) => false

theorem record_cases (e : CallEnd) (now : ℕ) : (e.recorded = false ∧ e.record now = id) ∨
      (e.recorded ∧ e.record now = recordSuccess) ∨
      (e.recorded ∧ e.record now = fun b => b.recordFailure now) := by
  cases e with
  | overloaded | dropped => exact .inl ⟨rfl, rfl⟩
  | result r =>
    cases r with
    | ok => exact .inr (.inl ⟨rfl, rfl⟩)
    | error code =>
      cases code with
      | timeout | executionFailed | internalError => exact .inr (.inr ⟨rfl, rfl⟩)
      | validationFailed | unavailable | overloaded | cancelled => exact .inl ⟨rfl, rfl⟩

variable (e : CallEnd) (now : ℕ) (b : CircuitBreaker)

@[simp] theorem record_config : (e.record now b).config = b.config := by
  obtain ⟨-, h⟩ | ⟨-, h⟩ | ⟨-, h⟩ := e.record_cases now
  · rw [h]
    rfl
  · rw [h]
    unfold recordSuccess
    repeat' split
    all_goals rfl
  · rw [h]
    dsimp only
    unfold recordFailure
    repeat' split
    all_goals rfl

theorem record_halfOpen (hen : b.config.enabled) (hst : b.status = .halfOpen) :
    (e.record now b).status = .halfOpen ↔ e.recorded = false := by
  obtain ⟨hr, h⟩ | ⟨hr, h⟩ | ⟨hr, h⟩ := e.record_cases now
  · simp [h, hr, hst]
  · simp [h, hr, hst, hen, recordSuccess]
  · simp [h, hr, hst, hen, recordFailure]

theorem record_not_halfOpen (hst : b.status ≠ .halfOpen) : (e.record now b).status ≠ .halfOpen := by
  obtain ⟨-, h⟩ | ⟨-, h⟩ | ⟨-, h⟩ := e.record_cases now
  · rwa [h]
  · rw [h]
    unfold recordSuccess
    cases hs : b.status with
    | halfOpen => exact absurd hs hst
    | closed | opened => split <;> simp [hs]
  · rw [h]
    dsimp only
    unfold recordFailure
    cases hs : b.status with
    | halfOpen => exact absurd hs hst
    | opened => split <;> simp [hs]
    | closed =>
      split
      · simp [hs]
      · dsimp only
        split <;> simp

theorem record_opened (hst : b.status = .opened) : e.record now b = b := by
  obtain ⟨-, h⟩ | ⟨-, h⟩ | ⟨-, h⟩ := e.record_cases now
  · rw [h]
    rfl
  · rw [h]
    unfold recordSuccess
    split <;> simp [hst]
  · rw [h]
    dsimp only
    unfold recordFailure
    split <;> simp [hst]

theorem record_disabled (hen : b.config.enabled = false) : e.record now b = b := by
  obtain ⟨-, h⟩ | ⟨-, h⟩ | ⟨-, h⟩ := e.record_cases now
  · rw [h]
    rfl
  · simp [h, recordSuccess, hen]
  · simp [h, recordFailure, hen]

end CallEnd

/-! ## The breaker in the registry -/

namespace ToolRegistry

variable (r : ToolRegistry) {toolName n : String}

theorem breaker_onBreaker {f : CircuitBreaker → CircuitBreaker} :
    (r.onBreaker toolName f).breaker n =
      if n = toolName then (r.breaker n).map f else r.breaker n := by
  unfold onBreaker breaker
  rw [Table.get_modify]
  split
  · rw [Option.map_map, Option.map_map]
    rfl
  · rfl

theorem enter_cases {capabilityName : String} {now : ℕ} :
    (∃ e r', r.enter toolName capabilityName now = (.error e, r') ∧ r'.breaker = r.breaker) ∨
      (∃ b r', r.enter toolName capabilityName now = (.ok (), r') ∧ r'.breaker = r.breaker ∧
        r.breaker toolName = some b ∧ (b.config.enabled = false ∨ b.status = .closed)) ∨
      (∃ b r', r.enter toolName capabilityName now = (.ok (), r') ∧
        r.breaker toolName = some b ∧ b.status = .opened ∧
        ∀ n, r'.breaker n =
          if n = toolName then some { b with status := .halfOpen } else r.breaker n) := by
  unfold enter
  cases hget : r.tools.get toolName with
  | none => exact .inl ⟨_, _, rfl, rfl⟩
  | some tool =>
    dsimp only
    split
    · exact .inl ⟨_, _, rfl, rfl⟩
    split
    · exact .inl ⟨_, _, rfl, rfl⟩
    have hb : r.breaker toolName = some tool.circuitBreaker := by simp [breaker, hget]
    -- the breaker after the access, and an access that does nothing
    have hafter : ∀ n, (r.onBreaker toolName fun b => (b.check now).2).breaker n =
        if n = toolName then some (tool.circuitBreaker.check now).2 else r.breaker n := by
      intro n
      rw [breaker_onBreaker]
      split
      · rename_i hn
        rw [hn, hb]
        rfl
      · rfl
    have hsame : (tool.circuitBreaker.check now).2 = tool.circuitBreaker →
        (r.onBreaker toolName fun b => (b.check now).2).breaker = r.breaker := by
      intro h
      funext n
      rw [hafter, h]
      split
      · rename_i hn
        rw [hn, hb]
      · rfl
    obtain ⟨e, he⟩ | ⟨hclosed, hok⟩ | ⟨hopen, hok⟩ := tool.circuitBreaker.check_cases now
    · exact .inl ⟨e, _, by rw [he], hsame (by rw [he])⟩
    · exact .inr (.inl ⟨_, _, by rw [hok], hsame (by rw [hok]), hb, hclosed⟩)
    · refine .inr (.inr ⟨_, _, by rw [hok], hb, hopen, ?_⟩)
      intro n
      rw [hafter, hok]

theorem register_breaker {r r' : ToolRegistry} {p : ToolPackage} (h : r.register p = .ok r')
    {b : CircuitBreaker} (hb : r'.breaker n = some b) :
    r.breaker n = some b ∨ b.status = .closed := by
  unfold register at h
  split at h
  · cases h
  split at h
  · cases h
  cases h
  unfold breaker at hb ⊢
  rw [Table.get_set] at hb
  split at hb
  · cases hb
    exact .inr rfl
  · exact .inl hb

theorem load_closed {config : CircuitBreakerConfig} {packages : List ToolPackage}
    {b : CircuitBreaker} (hb : (load config packages).breaker n = some b) : b.status = .closed := by
  have hfold : ∀ (packages : List ToolPackage) (r : ToolRegistry),
      (∀ b, r.breaker n = some b → b.status = .closed) →
      ∀ b, (packages.foldl (fun r p => (r.register p).toOption.getD r) r).breaker n = some b →
        b.status = .closed := by
    intro packages
    induction packages with
    | nil =>
      intro r hr
      exact hr
    | cons p packages ih =>
      intro r hr
      apply ih
      intro b hb
      dsimp only at hb
      cases hp : r.register p with
      | error =>
        rw [hp] at hb
        exact hr b hb
      | ok =>
        rw [hp] at hb
        obtain hold | hnew := register_breaker hp hb
        · exact hr b hold
        · exact hnew
  apply hfold packages (new config) _ b hb
  intro b hb
  simp [new, breaker] at hb

end ToolRegistry

/-! ## The protocol -/

namespace ToolCalls

variable (n : String)

def isProbe (call : ToolCall) : Bool := call.toolName == n && call.probe

def OneProbe (s : ToolCalls) : Prop :=
  s.status n = some .halfOpen → s.inFlight.countP (isProbe n) = 1

def LeavesWithProbe (s : ToolCalls) (l : Label) : Prop :=
  s.status n = some .halfOpen →
    ((s.apply l).status n ≠ some .halfOpen ↔
      ∃ call e, s.finishing l = some (call, e) ∧ isProbe n call)

def NoStaleClose (s : ToolCalls) (l : Label) : Prop :=
  ∀ call e, s.finishing l = some (call, e) → call.toolName = n →
    call.openings < s.openings n → s.status n ≠ some .closed →
      (s.apply l).status n ≠ some .closed

/-- While the breaker is half-open only probes report to it. -/
def Clean (s : ToolCalls) (l : Label) : Prop :=
  s.status n = some .halfOpen →
    ∀ call e, s.finishing l = some (call, e) → call.toolName = n →
      (call.probe ↔ e.recorded)

structure Tracked (s : ToolCalls) : Prop where
  enabled : ∀ b, s.registry.breaker n = some b → b.status ≠ .closed → b.config.enabled
  oneProbe : OneProbe n s
  noProbe : s.status n ≠ some .halfOpen → s.inFlight.countP (isProbe n) = 0
  current : ∀ call ∈ s.inFlight, isProbe n call → call.openings = s.openings n

variable {n} {s : ToolCalls}

theorem Tracked.start (config : CircuitBreakerConfig) {packages : List ToolPackage} :
    Tracked n (ToolCalls.start (load config packages)) where
  enabled := by
    intro b hb hopen
    exact absurd (load_closed hb) hopen
  oneProbe := by
    intro hhalf
    obtain ⟨b, hb, hst⟩ := map_eq_some_iff.mp hhalf
    rw [load_closed hb] at hst
    cases hst
  noProbe := fun _ => rfl
  current := by
    intro call hcall
    cases hcall

/-! ### A call enters -/

/-- **What an entering call does** to the tool `n`: nothing that counts, or it is the probe. -/
theorem Tracked.invoke_cases (h : Tracked n s) {toolName capabilityName : String} {now : ℕ} :
    (s.invoke toolName capabilityName now).openings = s.openings ∧
      (((s.invoke toolName capabilityName now).registry.breaker n = s.registry.breaker n ∧
          ∃ added, (s.invoke toolName capabilityName now).inFlight = s.inFlight ++ added ∧
            ∀ call ∈ added, isProbe n call = false) ∨
        ∃ b, s.registry.breaker n = some b ∧ b.status = .opened ∧
          (s.invoke toolName capabilityName now).registry.breaker n =
            some { b with status := .halfOpen } ∧
          (s.invoke toolName capabilityName now).inFlight =
            s.inFlight ++ [⟨n, true, s.openings n⟩]) := by
  unfold invoke
  obtain ⟨e, r, henter, hr⟩ | ⟨b, r, henter, hr, hb, hclosed⟩ | ⟨b, r, henter, hb, hopen, hr⟩ :=
    s.registry.enter_cases
  · rw [henter]
    exact ⟨rfl, .inl ⟨congrFun hr n, [], by simp, by simp⟩⟩
  · rw [henter]
    refine ⟨rfl, .inl ⟨congrFun hr n, _, rfl, ?_⟩⟩
    intro call hcall
    rw [mem_singleton] at hcall
    by_cases hn : toolName = n
    · -- the breaker of `n` is closed, so the call is not noted as a probe
      have hst : b.status = .closed := by
        obtain hoff | hst := hclosed
        · by_contra hne
          rw [hn] at hb
          rw [h.enabled b hb hne] at hoff
          cases hoff
        · exact hst
      simp [hcall, isProbe, status, hb, hst]
    · simp [hcall, isProbe, hn]
  · rw [henter]
    refine ⟨rfl, ?_⟩
    by_cases hn : n = toolName
    · right
      refine ⟨b, by rw [hn, hb], hopen, by rw [hr, if_pos hn], ?_⟩
      simp [status, hb, hopen, hn]
    · left
      refine ⟨by rw [hr, if_neg hn], _, rfl, ?_⟩
      intro call hcall
      rw [mem_singleton] at hcall
      simp [hcall, isProbe, Ne.symm hn]

theorem Tracked.invoke (h : Tracked n s) (toolName capabilityName : String) (now : ℕ) :
    Tracked n (s.invoke toolName capabilityName now) := by
  obtain ⟨hop, ⟨hb, added, hadd, hno⟩ | ⟨b, hb, hst, hb', hadd⟩⟩ :=
    h.invoke_cases
  · have hstatus : (s.invoke toolName capabilityName now).status n = s.status n := by
      rw [status, hb, status]
    have hcount : (s.invoke toolName capabilityName now).inFlight.countP (isProbe n) =
        s.inFlight.countP (isProbe n) := by
      have hzero : added.countP (isProbe n) = 0 := by
        apply countP_eq_zero.mpr
        intro call hcall
        simp [hno call hcall]
      rw [hadd, countP_append, hzero, Nat.add_zero]
    refine ⟨?_, ?_, ?_, ?_⟩
    · rw [hb]
      exact h.enabled
    · unfold OneProbe
      rw [hstatus, hcount]
      exact h.oneProbe
    · rw [hstatus, hcount]
      exact h.noProbe
    · intro call hcall hprobe
      rw [hadd, mem_append] at hcall
      rw [hop]
      obtain hold | hnew := hcall
      · exact h.current call hold hprobe
      · rw [hno call hnew] at hprobe
        cases hprobe
  · have hzero : s.inFlight.countP (isProbe n) = 0 := by
      apply h.noProbe
      simp [status, hb, hst]
    refine ⟨?_, ?_, ?_, ?_⟩
    · intro b' hb'' _
      rw [hb'] at hb''
      cases hb''
      exact h.enabled b hb (by simp [hst])
    · intro _
      rw [hadd, countP_append, hzero]
      simp [isProbe]
    · intro hne
      exact absurd (by simp [status, hb']) hne
    · intro call hcall hprobe
      rw [hadd, mem_append, mem_singleton] at hcall
      rw [hop]
      obtain hold | rfl := hcall
      · exact h.current call hold hprobe
      · rfl

/-! ### A call ends -/

section Finish

variable {call : ToolCall} {e : CallEnd} {now : ℕ}

theorem breaker_finish : (s.finish call e now).registry.breaker n =
      if n = call.toolName then (s.registry.breaker n).map (e.record now)
      else s.registry.breaker n :=
  s.registry.breaker_onBreaker

theorem status_finish_of_ne (hn : call.toolName ≠ n) :
    (s.finish call e now).status n = s.status n := by
  rw [status, breaker_finish, if_neg (Ne.symm hn), status]

theorem openings_finish : (s.finish call e now).openings n =
      if s.status n ≠ some .opened ∧ (s.finish call e now).status n = some .opened then
        s.openings n + 1
      else s.openings n := rfl

theorem countP_finish_of_ne (hcall : call ∈ s.inFlight) (hn : call.toolName ≠ n) :
    (s.finish call e now).inFlight.countP (isProbe n) = s.inFlight.countP (isProbe n) := by
  rw [countP_eq_countP_erase_add (isProbe n) hcall]
  simp [finish, isProbe, hn]

theorem countP_finish (e : CallEnd) (now : ℕ) (hcall : call ∈ s.inFlight) (hn : call.toolName = n) :
    s.inFlight.countP (isProbe n) =
      (s.finish call e now).inFlight.countP (isProbe n) + if call.probe then 1 else 0 := by
  rw [countP_eq_countP_erase_add (isProbe n) hcall]
  simp [finish, isProbe, hn]

theorem Tracked.status_finish (h : Tracked n s) (hn : call.toolName = n)
    (hhalf : s.status n = some .halfOpen) :
    (s.finish call e now).status n = some .halfOpen ↔ e.recorded = false := by
  obtain ⟨b, hb, hst⟩ := map_eq_some_iff.mp hhalf
  have hen := h.enabled b hb (by simp [hst])
  rw [status, breaker_finish, if_pos hn.symm, hb, map_some, map_some, some_inj]
  exact e.record_halfOpen now b hen hst

theorem halfOpen_of_finish (hhalf : (s.finish call e now).status n = some .halfOpen) :
    s.status n = some .halfOpen := by
  rw [status, breaker_finish] at hhalf
  split at hhalf
  · rw [Option.map_map] at hhalf
    obtain ⟨b, hb, hst⟩ := map_eq_some_iff.mp hhalf
    by_contra hne
    refine e.record_not_halfOpen now b ?_ hst
    intro hst'
    exact hne (by simp [status, hb, hst'])
  · exact hhalf

theorem opened_finish (hopen : s.status n = some .opened) :
    (s.finish call e now).status n = some .opened := by
  obtain ⟨b, hb, hst⟩ := map_eq_some_iff.mp hopen
  rw [status, breaker_finish, hb]
  split
  · simp [e.record_opened now b hst, hst]
  · simp [hst]

theorem Tracked.finish (h : Tracked n s) (hcall : call ∈ s.inFlight)
    (hclean : s.status n = some .halfOpen → call.toolName = n →
      (call.probe ↔ e.recorded)) : Tracked n (s.finish call e now) := by
  have hone : OneProbe n (s.finish call e now) := by
    intro hhalf
    have hbefore := halfOpen_of_finish hhalf
    by_cases hn : call.toolName = n
    · have hrec := (h.status_finish hn hbefore).mp hhalf
      have hprobe : call.probe = false := by
        rw [Bool.eq_false_iff, Ne, hclean hbefore hn, hrec]
        exact Bool.false_ne_true
      have hcount := countP_finish e now hcall hn
      rw [h.oneProbe hbefore, hprobe] at hcount
      exact hcount.symm
    · rw [countP_finish_of_ne hcall hn]
      exact h.oneProbe hbefore
  have hnone : (s.finish call e now).status n ≠ some .halfOpen →
      (s.finish call e now).inFlight.countP (isProbe n) = 0 := by
    intro hafter
    by_cases hn : call.toolName = n
    · have hcount := countP_finish e now hcall hn
      by_cases hbefore : s.status n = some .halfOpen
      · -- the call reported, so it is the probe
        have hrec : e.recorded := by
          rw [Ne, h.status_finish hn hbefore, Bool.not_eq_false] at hafter
          exact hafter
        rw [h.oneProbe hbefore, if_pos ((hclean hbefore hn).mpr hrec)] at hcount
        omega
      · rw [h.noProbe hbefore] at hcount
        omega
    · rw [countP_finish_of_ne hcall hn]
      apply h.noProbe
      rwa [status_finish_of_ne hn] at hafter
  refine ⟨?_, hone, hnone, ?_⟩
  · intro b hb hopen
    rw [breaker_finish] at hb
    split at hb
    · obtain ⟨b', hb', rfl⟩ := map_eq_some_iff.mp hb
      rw [CallEnd.record_config]
      by_contra hoff
      rw [Bool.not_eq_true] at hoff
      rw [e.record_disabled now b' hoff] at hopen
      rw [h.enabled b' hb' hopen] at hoff
      cases hoff
    · exact h.enabled b hb hopen
  · intro call' hcall' hprobe
    rw [openings_finish, if_neg]
    · exact h.current call' (mem_of_mem_erase hcall') hprobe
    · -- a breaker that opens has no probe in flight
      rintro ⟨-, hopen⟩
      have hzero := hnone (by rw [hopen]; simp)
      exact absurd hprobe (by simpa using countP_eq_zero.mp hzero call' hcall')

end Finish

/-! ### One step -/

theorem apply_finish {call : ToolCall} (hcall : call ∈ s.inFlight) {e : CallEnd} {now : ℕ} :
    s.apply (.finish call e now) = s.finish call e now ∧
      s.finishing (.finish call e now) = some (call, e) :=
  ⟨if_pos hcall, if_pos hcall⟩

theorem apply_finish_of_notMem {call : ToolCall} (hcall : call ∉ s.inFlight) {e : CallEnd}
    {now : ℕ} : s.apply (.finish call e now) = s ∧ s.finishing (.finish call e now) = none :=
  ⟨if_neg hcall, if_neg hcall⟩

theorem Tracked.apply (h : Tracked n s) {l : Label} (hclean : Clean n s l) :
    Tracked n (s.apply l) := by
  cases l with
  | invoke toolName capabilityName now => exact h.invoke toolName capabilityName now
  | finish call e now =>
    by_cases hcall : call ∈ s.inFlight
    · obtain ⟨happly, hfin⟩ := apply_finish hcall
      rw [happly]
      exact h.finish hcall fun hhalf hn => hclean hhalf call e hfin hn
    · rw [(apply_finish_of_notMem hcall).1]
      exact h

theorem protocol_iff_of_finishing {l : Label} (hfin : s.finishing l = none)
    (hstay : s.status n = some .halfOpen → (s.apply l).status n = some .halfOpen) :
    LeavesWithProbe n s l ∧ NoStaleClose n s l ↔ Clean n s l := by
  refine iff_of_true ⟨?_, ?_⟩ ?_
  · intro hhalf
    refine iff_of_false (not_not.mpr (hstay hhalf)) ?_
    rintro ⟨call, e, hsome, -⟩
    rw [hfin] at hsome
    cases hsome
  · intro call e hsome
    rw [hfin] at hsome
    cases hsome
  · intro _ call e hsome
    rw [hfin] at hsome
    cases hsome

theorem ends_probe_iff {l : Label} {call : ToolCall} {e : CallEnd}
    (hfin : s.finishing l = some (call, e)) :
    (∃ call' e', s.finishing l = some (call', e') ∧ isProbe n call') ↔
      isProbe n call := by
  constructor
  · rintro ⟨call', e', hsome, hprobe⟩
    rw [hfin] at hsome
    cases hsome
    exact hprobe
  · intro hprobe
    exact ⟨call, e, hfin, hprobe⟩

theorem Tracked.protocol_iff_finish (h : Tracked n s) {call : ToolCall}
    (hcall : call ∈ s.inFlight) {e : CallEnd} {now : ℕ} :
    LeavesWithProbe n s (.finish call e now) ∧ NoStaleClose n s (.finish call e now) ↔
      Clean n s (.finish call e now) := by
  obtain ⟨happly, hfin⟩ := apply_finish hcall
  have hprobe_iff : call.toolName = n → (isProbe n call ↔ call.probe) := by
    intro hn
    simp [isProbe, hn]
  constructor
  · rintro ⟨hleaves, -⟩ hhalf call' e' hsome hn
    rw [hfin] at hsome
    cases hsome
    have hl := hleaves hhalf
    rw [happly, Ne, h.status_finish hn hhalf, Bool.not_eq_false, ends_probe_iff hfin,
      hprobe_iff hn] at hl
    exact hl.symm
  · intro hclean
    constructor
    · intro hhalf
      rw [happly, ends_probe_iff hfin]
      by_cases hn : call.toolName = n
      · rw [Ne, h.status_finish hn hhalf, Bool.not_eq_false, hprobe_iff hn,
          hclean hhalf call e hfin hn]
      · rw [status_finish_of_ne hn]
        refine iff_of_false (not_not.mpr hhalf) ?_
        simp [isProbe, hn]
    · intro call' e' hsome hn hstale hne hclosed
      rw [hfin] at hsome
      cases hsome
      rw [happly] at hclosed
      -- only a half-open breaker closes, and then the call is its probe
      cases hst : s.status n with
      | none =>
        rw [status, breaker_finish, if_pos hn.symm] at hclosed
        simp [map_eq_none_iff.mp hst] at hclosed
      | some st =>
        cases st with
        | closed => exact hne hst
        | opened =>
          rw [opened_finish hst] at hclosed
          cases hclosed
        | halfOpen =>
          have hrec : e.recorded := by
            rw [← Bool.not_eq_false, ← h.status_finish hn hst, hclosed]
            simp
          have hprobe := (hclean hst call e hfin hn).mpr hrec
          have hcur := h.current call hcall (by simp [isProbe, hn, hprobe])
          omega

theorem Tracked.protocol_iff (h : Tracked n s) (l : Label) :
    LeavesWithProbe n s l ∧ NoStaleClose n s l ↔ Clean n s l := by
  cases l with
  | invoke toolName capabilityName now =>
    apply protocol_iff_of_finishing rfl
    intro hhalf
    show (s.invoke toolName capabilityName now).status n = some .halfOpen
    obtain ⟨-, ⟨hb, -⟩ | ⟨b, hb, hst, -⟩⟩ := h.invoke_cases
    · rw [status, hb]
      exact hhalf
    · simp [status, hb, hst] at hhalf
  | finish call e now =>
    by_cases hcall : call ∈ s.inFlight
    · exact h.protocol_iff_finish hcall
    · obtain ⟨happly, hfin⟩ := apply_finish_of_notMem hcall
      apply protocol_iff_of_finishing hfin
      intro hhalf
      rw [happly]
      exact hhalf

/-! ## Whole runs -/

/-- **The protocol of the circuit breaker** holds in every interleaving exactly if only probes
report to a half-open breaker. -/
theorem breaker_protocol_iff (config : CircuitBreakerConfig) (packages : List ToolPackage)
    (n : String) (ls : List Label) :
    Throughout apply (OneProbe n) (fun s l => LeavesWithProbe n s l ∧ NoStaleClose n s l)
        (start (load config packages)) ls ↔
      Throughout apply (fun _ => True) (Clean n)
        (start (load config packages)) ls :=
  throughout_iff apply (fun _ h => h.oneProbe) (fun _ l h => h.protocol_iff l)
    (fun _ _ h hclean => h.apply hclean) ls (Tracked.start config)

def sampleRegistry : ToolRegistry :=
  load { failureThreshold := 1, cooldown := 0, enabled := true }
    [⟨"search", ["run"], ["run"]⟩]

def recovered : List Label :=
  [.invoke "search" "run" 0, .finish ⟨"search", false, 0⟩ (.result (.error .timeout)) 1,
    .invoke "search" "run" 2, .finish ⟨"search", true, 1⟩ (.result (.ok ())) 3]

theorem breaker_protocol_recovered : Throughout apply (OneProbe "search")
      (fun s l => LeavesWithProbe "search" s l ∧ NoStaleClose "search" s l)
      (start (load { failureThreshold := 1, cooldown := 0, enabled := true }
        [⟨"search", ["run"], ["run"]⟩])) recovered := by
  refine (breaker_protocol_iff _ _ _ _).mpr ⟨trivial, ?_, trivial, ?_, trivial, ?_, trivial, ?_,
    trivial⟩
  · intro hhalf
    exact absurd hhalf (by decide)
  · intro hhalf
    exact absurd hhalf (by decide)
  · intro hhalf
    exact absurd hhalf (by decide)
  · rintro - call e hfin -
    cases hfin
    exact iff_of_true rfl rfl

def cancelledProbe : List Label :=
  [.invoke "search" "run" 0, .finish ⟨"search", false, 0⟩ (.result (.error .timeout)) 1,
    .invoke "search" "run" 2, .finish ⟨"search", true, 1⟩ (.result (.error .cancelled)) 3]

/-- Two calls enter, one opens the breaker, and the other succeeds during the probe. -/
def staleSuccess : List Label :=
  [.invoke "search" "run" 0, .invoke "search" "run" 0,
    .finish ⟨"search", false, 0⟩ (.result (.error .timeout)) 1,
    .invoke "search" "run" 2, .finish ⟨"search", false, 0⟩ (.result (.ok ())) 3]

/-- A cancelled probe leaves the breaker half-open for good, and an earlier call closes it during a
probe. -/
theorem breaker_protocol_fails : ¬ Throughout apply (OneProbe "search")
        (fun s l => LeavesWithProbe "search" s l ∧ NoStaleClose "search" s l)
        (start sampleRegistry) cancelledProbe ∧
      ¬ Throughout apply (OneProbe "search")
        (fun s l => LeavesWithProbe "search" s l ∧ NoStaleClose "search" s l)
        (start sampleRegistry) staleSuccess := by
  constructor
  · rintro ⟨-, -, -, -, -, -, -, -, hone⟩
    exact absurd (hone rfl) (by decide)
  · rintro ⟨-, -, -, -, -, -, -, -, -, ⟨-, hstale⟩, -⟩
    exact hstale ⟨"search", false, 0⟩ (.result (.ok ())) rfl rfl (by decide) (by decide) rfl

end ToolCalls

end Wacp
