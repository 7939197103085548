import Wacp.Analysis.LaunchAccount
import Mathlib.Data.List.Pairwise

/-!
# Cancelling a session

A cancel request aborts only the coordinator workspace it read from the row: dispatched workspaces
stay, and all stay if the launcher cannot build a directive.
-/

namespace Wacp.Console

open Library Prog List Phase Pool

/-! ## What is lost -/

def loses (x : Exchange Call Reply) : Bool := (committedBy x).isSome || partRefused x

def Phase.lost : Phase → Bool
  | .committed | .leaked => true
  | _ => false

section

variable {log : List (Exchange Call Reply)} {x : Exchange Call Reply} {pre : List String}
  {φ φ' : Phase}

theorem lost_of_allows (h : Allows φ x φ') (hchannel : noChannel x = false) :
    φ'.lost = (φ.lost || loses x) := by
  have hplain : Plain x → partRefused x = false → loses x = false := by
    intro hx hp
    rw [loses, hx.committed, hp]
    rfl
  cases h with
  | update hupdates => cases hupdates <;> rfl
  | look _ _ hx hp | check _ hx hp | ask _ hx hp | unassigned _ hx hp | stop _ hx hp
  | build _ _ _ hx hp => rw [hplain hx hp]; rfl
  | leave rootWs own x hx hp =>
    obtain hp | hc := hp
    · rw [loses, hp, Bool.or_true]
      rfl
    · rw [hchannel] at hc
      cases hc
  | _ => rfl

/-- **When a component loses workspaces**, if it had a channel. -/
theorem lost_iff_of_log (h : log.foldlM next (.fresh []) = some φ)
    (hchannel : ∀ x ∈ log, noChannel x = false) : φ.lost ↔ ∃ x ∈ log, loses x := by
  refine log_keeps (fun φ log => (∀ x ∈ log, noChannel x = false) →
    (φ.lost ↔ ∃ x ∈ log, loses x)) ?_ ?_ h hchannel
  · intro _
    simp [lost]
  · intro φ φ' log x ih hnext hall
    have hx := hall x (mem_append_right _ mem_cons_self)
    rw [lost_of_allows (allows_of_next hnext) hx, Bool.or_eq_true,
      ih fun y hy => hall y (mem_append_left _ hy)]
    simp [or_and_right, exists_or]

/-! ## Accounts that are closed -/

variable (h : Account log pre φ)
include h

theorem Account.created_subset_aborted (howned : φ.owned = []) (hlost : φ.lost = false) :
    created log ⊆ aborted log := by
  cases φ with
  | building => cases howned
  | aborting left =>
    have hleft : left = [] := howned
    obtain ⟨done, hcreated, -, haborted⟩ := h
    rw [hcreated, haborted, hleft, append_nil]
    exact subset_append_right _ _
  | settled =>
    rw [h.2]
    exact subset_append_right _ _
  | leaked | committed => cases hlost
  | _ =>
    rw [h.1]
    exact nil_subset _

theorem Account.of_lost (hlost : φ.lost) (hnodup : (created log).Nodup) :
    aborted log = pre ∧ ∃ w ∈ created log, w ∉ committed log := by
  cases φ with
  | leaked =>
    obtain ⟨hcreated, hcommitted, haborted⟩ := h
    obtain ⟨w, hw⟩ := exists_mem_of_ne_nil _ hcreated
    refine ⟨haborted, w, hw, ?_⟩
    rw [hcommitted]
    exact not_mem_nil
  | committed =>
    obtain ⟨rootWs, own, hown, hcreated, hcommitted, haborted⟩ := h
    obtain ⟨w, hw⟩ := exists_mem_of_ne_nil _ hown
    rw [hcreated] at hnodup ⊢
    refine ⟨haborted, w, mem_cons_of_mem _ hw, ?_⟩
    rw [hcommitted, mem_singleton]
    rintro rfl
    exact (nodup_cons.mp hnodup).1 hw
  | _ => cases hlost

theorem Account.aborted_subset : aborted log ⊆ pre ++ created log := by
  cases φ with
  | fresh =>
    rw [h.2.2.1]
    exact subset_append_left _ _
  | aborting =>
    obtain ⟨done, hcreated, -, haborted⟩ := h
    rw [hcreated, haborted, ← append_assoc]
    exact subset_append_left _ _
  | settled =>
    rw [h.2]
    exact List.Subset.refl _
  | committed =>
    obtain ⟨rootWs, own, -, -, -, haborted⟩ := h
    rw [haborted]
    exact subset_append_left _ _
  | _ =>
    rw [h.2.2]
    exact subset_append_left _ _

theorem Account.committed_subset_created : committed log ⊆ created log := by
  cases φ with
  | committed =>
    obtain ⟨rootWs, own, -, hcreated, hcommitted, -⟩ := h
    rw [hcreated, hcommitted]
    exact cons_subset_cons _ (nil_subset _)
  | aborting =>
    obtain ⟨done, -, hcommitted, -⟩ := h
    rw [hcommitted]
    exact nil_subset _
  | settled =>
    rw [h.1]
    exact nil_subset _
  | _ =>
    rw [h.2.1]
    exact nil_subset _

end

/-! ## Components at rest -/

def withCoordinator : Exchange Call Reply → Bool
  | ⟨.coordinator, _⟩ | ⟨.submitGoal _, _⟩ | ⟨.decompose _, _⟩ | ⟨.dispatch _, _⟩ => true
  | ⟨.abortWorkspace _, _⟩ => true
  | _ => false

/-- The component has returned, or goes on without the coordinator, as a monitor. -/
def AtRest (p : Program Finished) : Prop :=
  p.Follows (fun (_ : Unit) x => if withCoordinator x then none else some ())
    (fun _ a => a ≠ .killed) ()

def returned : Program Finished → Bool
  | .ret .killed => false
  | .ret _ => true
  | .call _ _ => false

theorem atRest_of_returned {p : Program Finished} (h : returned p) : AtRest p := by
  cases p with
  | ret =>
    rintro rfl
    cases h
  | call => cases h

theorem exists_reply (c : Call) :
    ∃ r : Reply c, unanswered ⟨c, r⟩ = false ∧ committedBy ⟨c, r⟩ = none := by
  cases c with
  | getById | getCurrent | getWorkspace => exact ⟨.ok none, rfl, rfl⟩
  | transitionState | setCancelled => exact ⟨.ok true, rfl, rfl⟩
  | listActive | listBySession | directiveToVec | decompose => exact ⟨.ok [], rfl, rfl⟩
  | finalize => exact ⟨.error .rowNotFound, rfl, rfl⟩
  | validateSession => exact ⟨[], rfl, rfl⟩
  | toolsFromStr => exact ⟨none, rfl, rfl⟩
  | coordinator | highway => exact ⟨true, rfl, rfl⟩
  | submitGoal | dispatch => exact ⟨.ok "", rfl, rfl⟩
  | abortWorkspace => exact ⟨.ok (), rfl, rfl⟩
  | spawnMonitor | removeMonitor => exact ⟨(), rfl, rfl⟩

theorem owned_of_allows {φ φ' : Phase} {x : Exchange Call Reply} (h : Allows φ x φ')
    (howned : φ.owned ≠ []) (hx : withCoordinator x = false) (ha : unanswered x = false)
    (hm : committedBy x = none) : φ'.owned ≠ [] := by
  cases h with
  | update hupdates => cases hupdates <;> exact absurd rfl howned
  | build => exact howned
  | leave rootWs own x hplain hp hunanswered =>
    rw [ha] at hunanswered
    cases hunanswered
  | commit => cases hm
  | dispatched | rollback | abort => cases hx
  | _ => exact absurd rfl howned

theorem owned_eq_nil_of_atRest {p : Program Finished} (hrest : AtRest p) {φ : Phase}
    (hp : p.Follows next Session.Returns φ) : φ.owned = [] := by
  induction p generalizing φ with
  | ret a =>
    cases a with
    | killed => exact absurd rfl hrest
    | _ => exact hp
  | call c k ih =>
    obtain ⟨r, ha, hm⟩ := exists_reply c
    obtain ⟨φ', hnext, hfollows⟩ := hp r
    obtain ⟨_, hallowed, hrest'⟩ := hrest r
    have hx : withCoordinator ⟨c, r⟩ = false := by
      dsimp only at hallowed
      split_ifs at hallowed with hwith
      exact Bool.not_eq_true _ ▸ hwith
    by_contra howned
    exact owned_of_allows (allows_of_next hnext) howned hx ha hm (ih r hrest' hfollows)

/-! ## All components of a session -/

namespace Session

def exchanges (s : Session) : List (Exchange Call Reply) := s.history.map Prod.snd

variable {s t : Session} {i : ℕ} {o : Outside} {c : Call} {φ φ' : Phase} {w : String}

theorem mem_filterMap_exchanges {f : Exchange Call Reply → Option String} :
    w ∈ s.exchanges.filterMap f ↔ ∃ i, w ∈ (s.log i).filterMap f := by
  simp only [exchanges, mem_filterMap, mem_map, Prod.exists, exists_eq_right, mem_log]
  constructor
  · rintro ⟨x, ⟨i, hmem⟩, hx⟩
    exact ⟨i, x, hmem, hx⟩
  · rintro ⟨i, x, hmem, hx⟩
    exact ⟨x, ⟨i, hmem⟩, hx⟩

theorem mem_exchanges {x : Exchange Call Reply} : x ∈ s.exchanges ↔ ∃ i, x ∈ s.log i := by
  simp [exchanges, mem_log]

theorem creator_unique (hnodup : (created s.exchanges).Nodup) {j : ℕ}
    (hi : w ∈ created (s.log i)) (hj : w ∈ created (s.log j)) : i = j := by
  obtain ⟨x, hx, hxw⟩ := mem_filterMap.mp hi
  obtain ⟨y, hy, hyw⟩ := mem_filterMap.mp hj
  rw [created, exchanges, filterMap_map, List.Nodup, pairwise_filterMap] at hnodup
  have hsymm : Std.Symm fun (a a' : ℕ × Exchange Call Reply) =>
      ∀ b, (createdBy ∘ Prod.snd) a = some b →
        ∀ b', (createdBy ∘ Prod.snd) a' = some b' → b ≠ b' :=
    ⟨fun a a' h b hb b' hb' => (h b' hb' b hb).symm⟩
  by_contra hne
  have hentries : (i, x) ≠ (j, y) := fun h => hne (congrArg Prod.fst h)
  exact hnodup.forall (mem_log.mp hx) (mem_log.mp hy) hentries w hxw w hyw rfl

/-! ## What the row names was committed -/

/-- The coordinator workspace, and all that was read as such, was committed by a launch. -/
structure Recorded (s : Session) : Prop where
  row : ∀ w, s.row.coordinatorWorkspaceId = some w → w ∈ committed s.exchanges
  reads : reads s.exchanges ⊆ committed s.exchanges

theorem readBy_exchange {s : SessionData} (h : readBy (exchange c o s) = some w) :
    s.row.coordinatorWorkspaceId = some w := by
  generalize hx : exchange c o s = x at h
  obtain ⟨c', r⟩ := x
  cases c' with
  | getById =>
    obtain e | row := r
    · cases h
    · cases eq_row_of_read hx
      exact h
  | _ => cases h

theorem coordinatorWorkspaceId_exec {s : SessionData}
    (h : (exec c o s).2.row.coordinatorWorkspaceId = some w) :
    s.row.coordinatorWorkspaceId = some w ∨ committedBy (exchange c o s) = some w := by
  obtain hrow | hchange := exec_row_cases
  · rw [hrow] at h
    exact .inl h
  · generalize exchange c o s = x at hchange ⊢
    generalize (exec c o s).2.row = row' at h hchange
    cases hchange with
    | transition _ _ _ hrow | cancel _ hrow =>
      rw [hrow, s.row.coordinatorWorkspaceId_moveTo] at h
      exact .inl h
    | finalize rootWs launched hf hrow =>
      rw [hrow] at h
      exact .inr h

theorem recorded_of_run {row : SessionRow} {assignments : List SessionAssignmentRow}
    (hrow : row.coordinatorWorkspaceId = none) (hrun : Run Step anyStep (new row assignments) s) :
    s.Recorded := by
  refine invariant_of_run Recorded ?_ ?_ ?_ hrun
  · refine ⟨?_, List.Subset.refl _⟩
    intro w hw
    have hnone : row.coordinatorWorkspaceId = some w := hw
    rw [hrow] at hnone
    cases hnone
  · intro s t hs hquiet
    have hexchanges : t.exchanges = s.exchanges := by rw [exchanges, hquiet.history, exchanges]
    refine ⟨?_, ?_⟩
    · rw [hquiet.row, hexchanges]
      exact hs.row
    · rw [hexchanges]
      exact hs.reads
  · intro s t i o c φ φ' _ hs h
    have hexchanges : t.exchanges = s.exchanges ++ [exchange c o s.shared] := by
      rw [exchanges, h.history_eq, map_append]
      rfl
    refine ⟨?_, ?_⟩
    · intro w hw
      rw [h.row] at hw
      rw [hexchanges, committed_snoc, mem_append, Option.mem_toList]
      exact (coordinatorWorkspaceId_exec hw).imp (hs.row w) id
    · intro w hw
      rw [hexchanges, reads_snoc, mem_append, Option.mem_toList] at hw
      rw [hexchanges, committed_snoc, mem_append]
      obtain hw | hw := hw
      · exact .inl (hs.reads hw)
      · exact .inl (hs.row w (readBy_exchange hw))

/-! ## The result -/

theorem exists_not_aborted (hs : s.Orderly) (hrecorded : s.Recorded)
    (hnodup : (created s.exchanges).Nodup) (hφ : s.phase i = some φ) (hlost : φ.lost) :
    ∃ w ∈ created s.exchanges, w ∉ aborted s.exchanges := by
  have haccount : ∀ j, ∃ ψ pre, s.phase j = some ψ ∧ pre ⊆ reads (s.log j) ∧
      Account (s.log j) pre ψ := by
    intro j
    obtain ⟨ψ, hψ⟩ := Conforms.exists_phase hs j
    obtain ⟨pre, hpre, haccount⟩ := account_of_log hψ
    exact ⟨ψ, pre, hψ, hpre, haccount⟩
  obtain ⟨ψ, pre, hψ, hpre, hi⟩ := haccount i
  cases hφ.symm.trans hψ
  obtain ⟨haborted, w, hw, hroot⟩ :=
    hi.of_lost hlost (((s.log_sublist i).filterMap createdBy).nodup hnodup)
  refine ⟨w, mem_filterMap_exchanges.mpr ⟨i, hw⟩, ?_⟩
  intro hmem
  obtain ⟨j, hj⟩ := mem_filterMap_exchanges.mp hmem
  -- whoever aborted it, this was a component that had read it from the row
  have hread : w ∈ reads s.exchanges := by
    obtain ⟨χ, pre', -, hpre', hjaccount⟩ := haccount j
    by_cases hji : j = i
    · subst hji
      have hmempre : w ∈ pre := haborted ▸ hj
      exact mem_filterMap_exchanges.mpr ⟨j, hpre hmempre⟩
    · obtain hmempre | hcreated := mem_append.mp (hjaccount.aborted_subset hj)
      · exact mem_filterMap_exchanges.mpr ⟨j, hpre' hmempre⟩
      · exact absurd (creator_unique hnodup hcreated hw) hji
  -- and then somebody had committed it
  obtain ⟨k, hk⟩ := mem_filterMap_exchanges.mp (hrecorded.reads hread)
  obtain ⟨χ, pre', -, -, hkaccount⟩ := haccount k
  have hki : k = i := creator_unique hnodup (hkaccount.committed_subset_created hk) hw
  subst hki
  exact hroot hk

/-- **When cancelling leaves nothing running**: once all handlers have returned, every created
workspace was sent AbortWorkspace exactly if no launch was committed and none stopped for want of a
directive. -/
theorem all_aborted_iff (row : SessionRow) (assignments : List SessionAssignmentRow)
    (hrow : row.coordinatorWorkspaceId = none) (s : Session)
    (hrun : Run Step anyStep (new row assignments) s) (hrest : ∀ p ∈ s.processes, AtRest p)
    (hchannel : ∀ x ∈ s.exchanges, noChannel x = false) (hnodup : (created s.exchanges).Nodup) :
    (∀ w ∈ created s.exchanges, w ∈ aborted s.exchanges) ↔
      ∀ x ∈ s.exchanges, loses x = false := by
  have hs := orderly_of_run hrun
  have hlost : ∀ {j : ℕ} {ψ : Phase}, s.phase j = some ψ →
      (ψ.lost ↔ ∃ x ∈ s.log j, loses x) := fun {j ψ} hψ =>
    lost_iff_of_log hψ fun x hx => hchannel x (mem_exchanges.mpr ⟨j, hx⟩)
  constructor
  · intro hall x hx
    obtain ⟨i, hi⟩ := mem_exchanges.mp hx
    obtain ⟨φ, hφ⟩ := Conforms.exists_phase hs i
    cases hloses : loses x with
    | false => rfl
    | true =>
      obtain ⟨w, hw, hnot⟩ := exists_not_aborted hs (recorded_of_run hrow hrun) hnodup hφ
        ((hlost hφ).mpr ⟨x, hi, hloses⟩)
      exact absurd (hall w hw) hnot
  · intro hkept w hw
    obtain ⟨i, hi⟩ := mem_filterMap_exchanges.mp hw
    obtain ⟨x, hx, -⟩ := mem_filterMap.mp hi
    have hlt : i < s.processes.length := hs.known i x (mem_log.mp hx)
    obtain ⟨φ, hφ, hfollows⟩ := hs.follows i _ (getElem?_eq_getElem hlt)
    have howned := owned_eq_nil_of_atRest (hrest _ (getElem_mem hlt)) hfollows
    have hnotlost : φ.lost = false := by
      cases hloses : φ.lost with
      | false => rfl
      | true =>
        obtain ⟨y, hy, hyloses⟩ := (hlost hφ).mp hloses
        rw [hkept y (mem_exchanges.mpr ⟨i, hy⟩)] at hyloses
        cases hyloses
    obtain ⟨pre, -, haccount⟩ := account_of_log hφ
    exact mem_filterMap_exchanges.mpr ⟨i, haccount.created_subset_aborted howned hnotlost hi⟩

/-- The session is cancelled after a dispatch; the launch fails to commit and rolls back. -/
def cancelledBeforeCommit : List Label :=
  .launchRequest sampleAuth :: calls 0 12 ++ .cancelRequest sampleAuth none :: calls 1 4 ++
    calls 0 5

theorem all_aborted_cancelledBeforeCommit :
    ∃ s, cancelledBeforeCommit.foldlM apply sampleSession = some s ∧ s.row.state = .cancelled ∧
      created s.exchanges = ["ws-0", "ws-1"] ∧
      ∀ w ∈ created s.exchanges, w ∈ aborted s.exchanges := by
  have hrun := Run.of_ops (rfl : cancelledBeforeCommit.foldlM apply sampleSession = some _)
  refine ⟨_, rfl, rfl, rfl, (all_aborted_iff sampleRow [sampleAssignment] rfl _ hrun ?_
    (by decide) (by decide)).mpr (by decide)⟩
  exact fun p hp => atRest_of_returned (all_eq_true.mp rfl p hp)

def cancelledAfterCommit : List Label :=
  .launchRequest sampleAuth :: calls 0 14 ++ .cancelRequest sampleAuth none :: calls 2 6 ++
    calls 1 1

/-- All is over and the session CANCELLED, but the dispatched workspace was not aborted. -/
theorem dispatched_not_aborted : ∃ s, cancelledAfterCommit.foldlM apply sampleSession = some s ∧
      s.processes.all returned ∧ s.row.state = .cancelled ∧
      created s.exchanges = ["ws-0", "ws-1"] ∧ aborted s.exchanges = ["ws-0"] :=
  ⟨_, rfl, rfl, rfl, rfl, rfl⟩

end Session

end Wacp.Console
