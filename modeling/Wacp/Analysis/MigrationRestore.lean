import Wacp.Analysis.MigrationChannel
import Wacp.Analysis.MigrationContexts

/-!
# The status a migration restores

`start_migration` reads the status from the tree, which lags behind the actor: an agent that has
just blocked comes back Active. `Watched` records what was read and in which status actors entered
Migrating.
-/

namespace Wacp

open Library List Option Table Function Paired Coordinator

/-! ## The watched system -/

/-- For every actor the statuses read for the MigrateBegins in its channel and for the last
migration command it took, and that in which it last entered Migrating. -/
structure Watched where
  system : System
  reads : ℕ → List WorkspaceState
  opened : ℕ → Option WorkspaceState
  entered : ℕ → WorkspaceState

namespace Watched

open Wacp.System WorkspaceActor

variable {o o' : Watched}

def start (rootId : WorkspaceId) (owner : UserId) : Watched :=
  { system := .init rootId owner, reads := fun _ => [], opened := fun _ => none
    entered := fun _ => .idle }

/-- A migration that starts reads the status of the node and sends a MigrateBegin. -/
def readsAfter (o : Watched) (request : MigrationRequest) (oldAgent : String) (nowMs : ℕ) :
    ℕ → List WorkspaceState :=
  match o.system.coordinator.startMigration request oldAgent nowMs,
    o.system.coordinator.workspaceHandles.get request.workspaceId,
    o.system.coordinator.tree.get request.workspaceId with
  | .ok _, some i, some node => update o.reads i (o.reads i ++ [node.status])
  | _, _, _ => o.reads

def observe (o : Watched) (label : Label) (s' : System) : Watched :=
  match label with
  | .startMigration request oldAgent nowMs =>
    { o with system := s', reads := o.readsAfter request oldAgent nowMs }
  | .turn i =>
    match o.system.actors[i]?, s'.actors[i]? with
    | some a, some b =>
      let next := take a.nextCommand (o.opened i, o.reads i)
      { system := s'
        reads := update o.reads i next.2
        opened := update o.opened i next.1
        entered :=
          if a.state.status ≠ .migrating ∧ b.state.status = .migrating then
            update o.entered i a.state.status
          else o.entered }
    | _, _ => { o with system := s' }
  | _ => { o with system := s' }

def apply (o : Watched) (label : Label) : Option Watched :=
  (o.system.apply label).map (o.observe label)

def Step (o : Watched) (label : Label) (o' : Watched) : Prop := o.apply label = some o'

/-- Migration commands come from the three methods for them only, as in the source. -/
def ordinary : Label → Bool
  | .command _ cmd => !cmd.migrates
  | _ => true

def Ordinary (_ : Watched) (label : Label) : Prop := ordinary label

/-! ## The invariant -/

def preOf (c : Coordinator) (w : WorkspaceId) : Option WorkspaceState :=
  (c.migration.active.get w).map (·.preMigrationState)

/-- While the coordinator has its handle, the last MigrateBegin sent is that of the active context.
-/
structure Follows (c : Coordinator) (i : ℕ) (a : WorkspaceActor) (opened : Option WorkspaceState)
    (reads : List WorkspaceState) : Prop where
  channel : ∃ last, Paired opened a.coordinatorRx reads last ∧
    (c.workspaceHandles.get a.state.id = some i → ∀ r, last = some r → preOf c a.state.id = some r)
  migrating : a.state.status = .migrating → ∃ r, opened = some r ∧ Restorable r

structure Tracked (o : Watched) : Prop where
  handle : ∀ w i, o.system.coordinator.workspaceHandles.get w = some i →
    o.system.ids[i]? = some w
  fresh : ∀ i, o.system.actors.length ≤ i → o.reads i = [] ∧ o.opened i = none
  follows : ∀ i a, o.system.actors[i]? = some a → a.stopped = false →
    Follows o.system.coordinator i a (o.opened i) (o.reads i)

variable {rootId : WorkspaceId}

theorem tracked_start {owner : UserId} : (start rootId owner).Tracked where
  handle w i h := by
    rw [show (start rootId owner).system.coordinator.workspaceHandles.get w = none from
      get_empty] at h
    cases h
  fresh _ _ := ⟨rfl, rfl⟩
  follows i a h := by cases h

variable {w : WorkspaceId}

theorem Tracked.id_of_handle (h : o.Tracked) {i : ℕ} {a : WorkspaceActor}
    (hw : o.system.coordinator.workspaceHandles.get w = some i) (ha : o.system.actors[i]? = some a) :
    a.state.id = w := by
  have hid := h.handle w i hw
  rw [System.ids, getElem?_map, ha] at hid
  exact Option.some.inj hid

/-! ## Steps beside the migrations -/

structure Aside (a b : WorkspaceActor) : Prop where
  state : b.state = a.state
  commands : b.coordinatorRx = a.coordinatorRx
  running : b.stopped = false → a.stopped = false

theorem Aside.refl (a : WorkspaceActor) : Aside a a := ⟨rfl, rfl, fun h => h⟩

section Follows

variable {c c' : Coordinator} {i : ℕ} {a b : WorkspaceActor} {opened : Option WorkspaceState}
  {reads : List WorkspaceState}

theorem Follows.aside (h : Follows c i a opened reads) (hab : Aside a b) :
    Follows c i b opened reads := by
  obtain ⟨hchannel, hmigrating⟩ := h
  rw [← hab.state, ← hab.commands] at hchannel
  rw [← hab.state] at hmigrating
  exact ⟨hchannel, hmigrating⟩

theorem Follows.of_handle (h : Follows c i a opened reads)
    (hkeep : c'.workspaceHandles.get a.state.id = some i →
      c.workspaceHandles.get a.state.id = some i ∧ preOf c' a.state.id = preOf c a.state.id) :
    Follows c' i a opened reads := by
  obtain ⟨⟨last, hpaired, hlast⟩, hmigrating⟩ := h
  refine ⟨⟨last, hpaired, fun hi r hr => ?_⟩, hmigrating⟩
  obtain ⟨hi, hpre⟩ := hkeep hi
  rw [hpre]
  exact hlast hi r hr

end Follows

variable {s' : System}

theorem Tracked.aside (h : o.Tracked)
    (hhandles : ∀ w i, s'.coordinator.workspaceHandles.get w = some i →
      o.system.coordinator.workspaceHandles.get w = some i)
    (hpre : ∀ w, preOf s'.coordinator w = preOf o.system.coordinator w)
    (hactors : List.Forall₂ Aside o.system.actors s'.actors) :
    Tracked { o with system := s' } := by
  have hids : s'.ids = o.system.ids :=
    map_eq_of_forall₂ (fun _ _ hab => congrArg WorkspaceData.id hab.state) hactors
  refine ⟨fun w i hw => ?_, fun i hi => ?_, fun i b hb hrun => ?_⟩
  · rw [hids]
    exact h.handle w i (hhandles w i hw)
  · exact h.fresh i (hactors.length_eq ▸ hi)
  · obtain ⟨a, ha, hab⟩ := getElem?_of_forall₂ hactors hb
    have hfollows := (h.follows i a ha (hab.running hrun)).aside hab
    exact hfollows.of_handle fun hw => ⟨hhandles _ _ hw, hpre _⟩

/-! ## Commands -/

theorem getElem?_command (c : Coordinator) (actors : List WorkspaceActor) (w : WorkspaceId)
    (cmd : CoordinatorCommand) (i : ℕ) : ((c.command w cmd).foldl deliver actors)[i]? =
      if c.workspaceHandles.get w = some i then
        (actors[i]?).map fun a =>
          if a.stopped then a else { a with coordinatorRx := a.coordinatorRx ++ [cmd] }
      else actors[i]? := by
  unfold command
  cases c.workspaceHandles.get w with
  | none => simp
  | some j =>
    simp only [Option.some.injEq]
    exact getElem?_modify_eq

variable {cmd : CoordinatorCommand}

/-- **A command for `w`**: it is enough that it leads on from the last one sent. -/
theorem Tracked.sends (h : o.Tracked) (reads : ℕ → List WorkspaceState)
    (hhandles : s'.coordinator.workspaceHandles = o.system.coordinator.workspaceHandles)
    (hpre : ∀ v, v ≠ w → preOf s'.coordinator v = preOf o.system.coordinator v)
    (hactors : s'.actors = (o.system.coordinator.command w cmd).foldl deliver o.system.actors)
    (hreads : ∀ i, o.system.coordinator.workspaceHandles.get w ≠ some i → reads i = o.reads i)
    (hcmd : ∀ i, o.system.coordinator.workspaceHandles.get w = some i →
      ∃ rs, reads i = o.reads i ++ rs ∧
        ∀ last, (∀ r, last = some r → preOf o.system.coordinator w = some r) →
          ∃ last', Paired last [cmd] rs last' ∧
            ∀ r, last' = some r → preOf s'.coordinator w = some r) :
    Tracked { o with system := s', reads := reads } := by
  have hquiet : List.Forall₂ Quiet o.system.actors s'.actors := by
    rw [hactors]
    exact quiet_send o.system (o.system.coordinator, o.system.coordinator.command w cmd)
  have hids : s'.ids = o.system.ids :=
    map_eq_of_forall₂ (fun _ _ hab => hab.same.id_eq) hquiet
  refine ⟨fun v i hv => ?_, fun i hi => ?_, fun i b hb hrun => ?_⟩
  · rw [hids]
    exact h.handle v i (hhandles ▸ hv)
  · have hlen : o.system.actors.length ≤ i := hquiet.length_eq ▸ hi
    obtain ⟨hnil, hnone⟩ := h.fresh i hlen
    refine ⟨?_, hnone⟩
    show reads i = []
    rw [hreads i, hnil]
    intro hw
    have hid := h.handle w i hw
    rw [System.ids, getElem?_map, getElem?_eq_none hlen] at hid
    cases hid
  · rw [hactors, getElem?_command] at hb
    split_ifs at hb with hw
    · obtain ⟨a, ha, hab⟩ := map_eq_some_iff.mp hb
      have hid := h.id_of_handle hw ha
      split_ifs at hab with hstopped
      · rw [← hab, hstopped] at hrun
        cases hrun
      · subst hab
        obtain ⟨rs, hrs, hnext⟩ := hcmd i hw
        show Follows s'.coordinator i _ (o.opened i) (reads i)
        rw [hrs]
        subst hid
        obtain ⟨⟨last, hpaired, hlast⟩, hmigrating⟩ := h.follows i a ha hrun
        obtain ⟨last', hone, hlast'⟩ := hnext last (hlast hw)
        exact ⟨⟨last', hpaired.append hone, fun _ => hlast'⟩, hmigrating⟩
    · show Follows s'.coordinator i b (o.opened i) (reads i)
      rw [hreads i hw]
      refine (h.follows i b hb hrun).of_handle fun hi => ?_
      rw [hhandles] at hi
      refine ⟨hi, hpre _ ?_⟩
      rintro rfl
      exact hw hi

/-! ## Turns -/

theorem Follows.turn {c : Coordinator} {i : ℕ} {a b : WorkspaceActor}
    {opened : Option WorkspaceState} {reads : List WorkspaceState}
    (h : Follows c i a opened reads) (hturn : a.turn = some b) (hrun : b.stopped = false) :
    Follows c i b (take a.nextCommand (opened, reads)).1
      (take a.nextCommand (opened, reads)).2 := by
  obtain ⟨⟨last, hpaired, hlast⟩, hmigrating⟩ := h
  rcases turn_cases hturn with ⟨-, rfl⟩ | ⟨hterm, cmd, rest, hrx, rfl⟩ |
    ⟨hterm, hrx, msg, rest, hagent, rfl⟩
  · cases hrun
  · have hnext : a.nextCommand = some cmd := by
      rw [nextCommand, hterm, hrx]
      rfl
    have hid : ({ a with coordinatorRx := rest }.handleCoordinatorCmd cmd).state.id =
        a.state.id := (handles_handleCoordinatorCmd _ cmd).tracks.id_eq
    rw [hrx] at hpaired
    rw [hnext]
    refine ⟨⟨last, ?_, ?_⟩, fun hstatus => ?_⟩
    · rw [coordinatorRx_handleCoordinatorCmd]
      exact hpaired.taken
    · rw [hid]
      exact hlast
    · rcases migrating_of_command hstatus with rfl | ⟨hcmd, hbefore⟩
      · cases hpaired with
        | begin hr => exact ⟨_, rfl, hr⟩
        | other hcmd => cases hcmd
      · rw [take_other hcmd]
        exact hmigrating hbefore
  · have hnext : a.nextCommand = none := by
      rw [nextCommand, hterm, hrx]
      rfl
    have hid : ({ a with agentRx := rest }.handleAgentMsg msg).state.id = a.state.id :=
      tracks_handleAgentMsg.id_eq
    rw [hnext]
    refine ⟨⟨last, ?_, ?_⟩, fun hstatus => ?_⟩
    · rw [coordinatorRx_handleAgentMsg]
      exact hpaired
    · rw [hid]
      exact hlast
    · have hbefore := migrating_of_message hstatus
      exact hmigrating hbefore

theorem observe_turn {i : ℕ} {a b : WorkspaceActor} (ha : o.system.actors[i]? = some a) :
    o.observe (.turn i) { o.system with actors := o.system.actors.set i b } =
      { system := { o.system with actors := o.system.actors.set i b }
        reads := update o.reads i (take a.nextCommand (o.opened i, o.reads i)).2
        opened := update o.opened i
          (take a.nextCommand (o.opened i, o.reads i)).1
        entered :=
          if a.state.status ≠ .migrating ∧ b.state.status = .migrating then
            update o.entered i a.state.status
          else o.entered } := by
  have hb : (o.system.actors.set i b)[i]? = some b :=
    List.getElem?_set_self (List.getElem?_eq_some_iff.mp ha).1
  simp [observe, ha, hb]

theorem Tracked.turn (h : o.Tracked) {i : ℕ} {a b : WorkspaceActor}
    (ha : o.system.actors[i]? = some a) (hrun : a.stopped = false) (hturn : a.turn = some b) :
    (o.observe (.turn i) { o.system with actors := o.system.actors.set i b }).Tracked := by
  have hids : (o.system.actors.set i b).map (·.state.id) = o.system.ids :=
    ids_of_tracks (forall₂_set Tracks.refl ha (tracks_turn hrun hturn))
  rw [observe_turn ha]
  refine ⟨fun w j hw => ?_, fun j hj => ?_, fun j b' hb' hrun' => ?_⟩
  · rw [System.ids, hids]
    exact h.handle w j hw
  · have hlen : o.system.actors.length ≤ j := by
      rw [← length_set]
      exact hj
    have hne : j ≠ i := by
      rintro rfl
      exact absurd (List.getElem?_eq_some_iff.mp ha).1 (Nat.not_lt.mpr hlen)
    simp only [update_of_ne hne]
    exact h.fresh j hlen
  · by_cases hj : j = i
    · subst hj
      rw [List.getElem?_set_self (List.getElem?_eq_some_iff.mp ha).1] at hb'
      cases hb'
      simp only [update_self]
      exact (h.follows j a ha hrun).turn hturn hrun'
    · rw [getElem?_set_ne (Ne.symm hj)] at hb'
      simp only [update_of_ne hj]
      exact h.follows j b' hb' hrun'

/-! ## Dispatches -/

theorem Tracked.dispatch (h : o.Tracked) (request : DispatchRequest) :
    Tracked { o with system := o.system.dispatch request } := by
  have hget : ∀ v, (o.system.dispatch request).coordinator.workspaceHandles.get v =
      if v = request.config.id then some o.system.actors.length
      else o.system.coordinator.workspaceHandles.get v := fun v => get_set _
  have hids : (o.system.dispatch request).ids = o.system.ids ++ [request.config.id] := by
    simp only [System.ids, System.dispatch, map_append]
    rfl
  have hlen : o.system.ids.length = o.system.actors.length := length_map _
  refine ⟨fun w i hw => ?_, fun i hi => ?_, fun i b hb hrun => ?_⟩
  · rw [hget] at hw
    rw [hids]
    split_ifs at hw with hid
    · cases hw
      rw [← hlen, getElem?_concat_length, hid]
    · have hold := h.handle w i hw
      rw [List.getElem?_append_left (List.getElem?_eq_some_iff.mp hold).1]
      exact hold
  · refine h.fresh i (Nat.le_trans ?_ hi)
    simp only [System.dispatch, length_append]
    exact Nat.le_add_right _ _
  · change (o.system.actors ++ [.spawn request.config])[i]? = some b at hb
    rcases Nat.lt_or_ge i o.system.actors.length with hlt | hge
    · rw [List.getElem?_append_left hlt] at hb
      refine (h.follows i b hb hrun).of_handle fun hi => ?_
      rw [hget] at hi
      split_ifs at hi with hid
      · cases hi
        exact absurd hlt (Nat.lt_irrefl _)
      · exact ⟨hi, rfl⟩
    · rw [getElem?_append_right hge] at hb
      obtain ⟨hnil, hnone⟩ := h.fresh i hge
      have hspawn : b = .spawn request.config := by
        have hmem := mem_of_getElem? hb
        exact mem_singleton.mp hmem
      subst hspawn
      refine ⟨⟨none, ?_, fun _ r hr => by cases hr⟩, fun hstatus => by cases hstatus⟩
      simp only [hnil, hnone]
      exact nil none

/-! ## Events -/

theorem autoIntegrate_eq {c : Coordinator} {w : WorkspaceId} :
    ∃ cmd, cmd.migrates = false ∧ c.autoIntegrate w = c.command w cmd := by
  unfold autoIntegrate command
  cases c.workspaceHandles.get w with
  | none => exact ⟨.abort, rfl, rfl⟩
  | some =>
    refine ⟨_, ?_, rfl⟩
    split
    · split <;> rfl
    · rfl

theorem preOf_setSnapshot {c : Coordinator} {m : MigrationCoordinator}
    {snapshot : MigrationSnapshot} (h : c.migration.setSnapshot w snapshot = .ok m)
    (v : WorkspaceId) : preOf { c with migration := m } v = preOf c v := by
  unfold MigrationCoordinator.setSnapshot at h
  split at h
  · cases h
  · next ctx hctx =>
      split_ifs at h
      cases h
      unfold preOf
      rw [get_set]
      split_ifs with hv
      · rw [hv, hctx]
        rfl
      · rfl

variable {r : Coordinator × List (ℕ × CoordinatorCommand)} {event : WorkspaceEvent}

/-- **An event** leaves the status in every context and at most removes a handle. -/
theorem handleEvent_aside {c : Coordinator}
    (h : c.handleEvent event = some r) : (∀ w, preOf r.1 w = preOf c w) ∧
      ((r.2 = [] ∧ ∀ w i, r.1.workspaceHandles.get w = some i → c.workspaceHandles.get w = some i) ∨
        r.1.workspaceHandles = c.workspaceHandles ∧
          ∃ w cmd, cmd.migrates = false ∧ r.2 = c.command w cmd) := by
  cases event with
  | stateChanged w =>
    obtain ⟨tree, -, rfl⟩ := map_eq_some_iff.mp h
    refine ⟨fun _ => rfl, ?_⟩
    split_ifs
    · obtain ⟨cmd, hcmd, hsent⟩ := autoIntegrate_eq
      exact .inr ⟨rfl, w, cmd, hcmd, hsent⟩
    · exact .inl ⟨rfl, fun _ _ hw => hw⟩
  | terminated =>
    cases h
    refine ⟨fun _ => rfl, .inl ⟨rfl, fun w i hw => ?_⟩⟩
    rw [get_remove] at hw
    split_ifs at hw
    exact hw
  | migrationSnapshot =>
    simp only [handleEvent] at h
    split at h
    · next m hset =>
        cases h
        exact ⟨preOf_setSnapshot hset, .inl ⟨rfl, fun _ _ hw => hw⟩⟩
    · cases h
      exact ⟨fun _ => rfl, .inl ⟨rfl, fun _ _ hw => hw⟩⟩
  | _ =>
    cases h
    exact ⟨fun _ => rfl, .inl ⟨rfl, fun _ _ hw => hw⟩⟩

theorem Tracked.command (h : o.Tracked) (hcmd : cmd.migrates = false)
    (hhandles : s'.coordinator.workspaceHandles = o.system.coordinator.workspaceHandles)
    (hpre : ∀ v, preOf s'.coordinator v = preOf o.system.coordinator v)
    (hactors : s'.actors = (o.system.coordinator.command w cmd).foldl deliver o.system.actors) :
    Tracked { o with system := s' } := by
  refine h.sends o.reads hhandles (fun v _ => hpre v) hactors (fun _ _ => rfl) ?_
  intro i _
  refine ⟨[], (append_nil _).symm, fun last hlast => ⟨last, ?_, ?_⟩⟩
  · exact other hcmd (nil last)
  · rw [hpre]
    exact hlast

theorem Tracked.handleEvent (h : o.Tracked) {rest : List WorkspaceEvent}
    (hr : o.system.coordinator.handleEvent event = some r) :
    Tracked { o with system := { o.system with events := rest }.send r } := by
  obtain ⟨hpre, ⟨hsent, hhandles⟩ | ⟨hhandles, w, cmd, hcmd, hsent⟩⟩ := handleEvent_aside hr
  · refine h.aside hhandles hpre ?_
    simp only [System.send, hsent, foldl_nil]
    exact forall₂_same.mpr fun a _ => Aside.refl a
  · refine h.command (w := w) hcmd hhandles hpre ?_
    simp [System.send, hsent]

/-! ## Migrations -/

variable {v : WorkspaceId}

theorem preOf_set {c : Coordinator} {w : WorkspaceId} {ctx : MigrationContext} :
    preOf (c.withActive (c.migration.active.set w ctx)) v =
      if v = w then some ctx.preMigrationState else preOf c v := by
  unfold preOf withActive
  rw [get_set]
  split_ifs <;> rfl

theorem preOf_remove {c : Coordinator} {w : WorkspaceId} :
    preOf (c.withActive (c.migration.active.remove w)) v = if v = w then none else preOf c v := by
  unfold preOf withActive
  rw [get_remove]
  split_ifs <;> rfl

theorem Tracked.startMigration (h : o.Tracked) {request : MigrationRequest} {oldAgent : String}
    {nowMs : ℕ} (hr : o.system.coordinator.startMigration request oldAgent nowMs = .ok r) :
    (o.observe (.startMigration request oldAgent nowMs) (o.system.send r)).Tracked := by
  obtain ⟨node, ctx, hnode, hstatus, hactive, hctx, rfl⟩ := startMigration_inv hr
  have hnone : preOf o.system.coordinator request.workspaceId = none := by
    rw [preOf, hactive]
    rfl
  refine h.sends (w := request.workspaceId) _ rfl (fun v hv => ?_) rfl (fun i hi => ?_) ?_
  · exact preOf_set.trans (if_neg hv)
  · unfold readsAfter
    rw [hr, hnode]
    cases hget : o.system.coordinator.workspaceHandles.get request.workspaceId with
    | none => rfl
    | some =>
      refine update_of_ne ?_ _ _
      rintro rfl
      exact hi hget
  · intro i hi
    refine ⟨[node.status], ?_, fun last hlast => ⟨some node.status, ?_, fun s hs => ?_⟩⟩
    · unfold readsAfter
      rw [hr, hnode, hi]
      exact update_self _ _ _
    · have hlast : last = none := by
        cases last with
        | none => rfl
        | some s =>
          have hs := hlast s rfl
          rw [hnone] at hs
          cases hs
      rw [hlast]
      exact begin hstatus (nil _)
    · refine preOf_set.trans ((if_pos rfl).trans ?_)
      rw [hctx]
      exact hs

theorem Tracked.completeMigration (h : o.Tracked)
    (hr : o.system.coordinator.completeMigration w = some r) :
    Tracked { o with system := o.system.send r } := by
  obtain ⟨ctx, hctx, rfl⟩ := completeMigration_inv hr
  refine h.sends (w := w) o.reads rfl (fun v hv => ?_) rfl (fun _ _ => rfl) ?_
  · exact preOf_remove.trans (if_neg hv)
  · intro i _
    refine ⟨[], (append_nil _).symm, fun last hlast => ⟨none, ?_, fun s hs => by cases hs⟩⟩
    refine complete (fun s hs => ?_) (nil none)
    have hpre := hlast s hs
    rw [preOf, hctx] at hpre
    rw [← Option.some.inj hpre]

theorem Tracked.failMigration (h : o.Tracked) {error : String} {step : ℕ}
    (hr : o.system.coordinator.failMigration w error step = some r) :
    Tracked { o with system := o.system.send r } := by
  obtain ⟨ctx, -, rfl⟩ := failMigration_inv hr
  refine h.sends (w := w) o.reads rfl (fun v hv => ?_) rfl (fun _ _ => rfl) ?_
  · exact preOf_remove.trans (if_neg hv)
  · intro i _
    refine ⟨[], (append_nil _).symm, fun last _ => ⟨none, ?_, fun s hs => by cases hs⟩⟩
    exact fail (nil none)

/-! ## Whole runs -/

theorem Tracked.step {label : Label} (h : o.Tracked) (hok : o.Ordinary label)
    (hstep : o.Step label o') : o'.Tracked := by
  obtain ⟨s', hs', rfl⟩ := map_eq_some_iff.mp hstep
  cases label with
  | dispatch request =>
    cases hs'
    exact h.dispatch request
  | command w cmd =>
    cases hs'
    have hcmd : cmd.migrates = false := by simpa [Ordinary, ordinary] using hok
    exact h.command hcmd rfl (fun _ => rfl) rfl
  | startMigration request oldAgent nowMs =>
    simp only [System.apply] at hs'
    split at hs'
    · next r hr =>
        cases hs'
        exact h.startMigration hr
    · next e he =>
        cases hs'
        have hreads : o.readsAfter request oldAgent nowMs = o.reads := by
          simp [readsAfter, he]
        simp only [observe, hreads]
        exact h
  | completeMigration =>
    simp only [System.apply] at hs'
    split at hs'
    · next r hr =>
        cases hs'
        exact h.completeMigration hr
    · cases hs'
      exact h
  | failMigration =>
    simp only [System.apply] at hs'
    split at hs'
    · next r hr =>
        cases hs'
        exact h.failMigration hr
    · cases hs'
      exact h
  | agent i =>
    cases hs'
    refine h.aside (fun _ _ hw => hw) (fun _ => rfl) (forall₂_modify Aside.refl (fun a => ?_) _ i)
    split
    · exact Aside.refl a
    · exact ⟨rfl, rfl, fun hrun => hrun⟩
  | turn =>
    cases moves_of_step hs' with
    | send hlabel => cases hlabel
    | turn ha hrun _ hturn => exact h.turn ha hrun hturn
  | flush =>
    cases moves_of_step hs' with
    | send hlabel => cases hlabel
    | flush ha =>
      exact h.aside (fun _ _ hw => hw) (fun _ => rfl)
        (forall₂_set Aside.refl ha ⟨rfl, rfl, fun hrun => hrun⟩)
  | hangUp =>
    cases moves_of_step hs' with
    | send hlabel => cases hlabel
    | hangUp ha =>
      exact h.aside (fun _ _ hw => hw) (fun _ => rfl)
        (forall₂_set Aside.refl ha ⟨rfl, rfl, fun hrun => by cases hrun⟩)
  | handleEvent =>
    simp only [System.apply] at hs'
    split at hs'
    · cases hs'
    · obtain ⟨r, hr, rfl⟩ := map_eq_some_iff.mp hs'
      exact h.handleEvent hr

theorem tracked_of_run {owner : UserId}
    (h : Run Step Ordinary (start rootId owner) o) : o.Tracked :=
  h.invariant Tracked Tracked.step tracked_start

/-- **What a migration restores**, in every run of the coordinator and its actors. -/
theorem restored_iff_read {rootId : WorkspaceId} {owner : UserId} {i : ℕ} {a : WorkspaceActor}
    {restoreBlocked : Bool} {rest : List CoordinatorCommand}
    (h : Run Step Ordinary (start rootId owner) o) (ha : o.system.actors[i]? = some a)
    (hmigrating : a.state.status = .migrating)
    (hrx : a.coordinatorRx = .migrationComplete restoreBlocked :: rest)
    (hstep : o.Step (.turn i) o') :
    ∃ b read, o'.system.actors[i]? = some b ∧ o.opened i = some read ∧ b.state.status = read ∧
      (b.state.status = o.entered i ↔ read = o.entered i) := by
  obtain ⟨s', hs', rfl⟩ := map_eq_some_iff.mp hstep
  cases moves_of_step hs' with
  | send hlabel => cases hlabel
  | @turn _ _ b ha' hrun _ hturn =>
    cases ha.symm.trans ha'
    obtain ⟨⟨last, hpaired, -⟩, hopened⟩ := (tracked_of_run h).follows i a ha hrun
    obtain ⟨read, hread, hrestorable⟩ := hopened hmigrating
    rw [hrx, hread] at hpaired
    have hflag : restoreBlocked = decide (read = .blocked) := by
      cases hpaired with
      | complete hx => exact hx read rfl
      | other hcmd => cases hcmd
    have hb : b = { a with coordinatorRx := rest }.handleCoordinatorCmd
        (.migrationComplete restoreBlocked) := by
      rw [turn, hmigrating, hrx] at hturn
      exact (Option.some.inj hturn).symm
    have hstatus : b.state.status = read := by
      rw [hb, status_migrationComplete (a := { a with coordinatorRx := rest }) hmigrating, hflag]
      rcases hrestorable with rfl | rfl <;> rfl
    refine ⟨b, read, ?_, hread, hstatus, by rw [hstatus]⟩
    rw [observe_turn ha]
    exact List.getElem?_set_self (List.getElem?_eq_some_iff.mp ha).1

def blocks : List Label :=
  [.dispatch (sampleRequest "ws-0" "ws-root"),
    .command ⟨"ws-0"⟩ (.deliverEnvelope sampleEnvelope), .turn 0, .flush 0, .handleEvent,
    .agent 0 (.emitSignal .blocked none none), .turn 0, .flush 0, .flush 0]

def startsLate : List Label :=
  [.handleEvent, .handleEvent, .startMigration (Supervised.sampleMigration "ws-0") "" 0, .turn 0,
    .flush 0, .flush 0, .handleEvent, .handleEvent, .completeMigration ⟨"ws-0"⟩]

def startsEarly : List Label :=
  [.startMigration (Supervised.sampleMigration "ws-0") "" 0, .handleEvent, .handleEvent, .turn 0,
    .flush 0, .flush 0, .handleEvent, .handleEvent, .completeMigration ⟨"ws-0"⟩]

theorem restored_blocked :
    ∃ o o' b, Run Step Ordinary (start ⟨"ws-root"⟩ ⟨"system"⟩) o ∧ o.Step (.turn 0) o' ∧
      o'.system.actors[0]? = some b ∧ o.entered 0 = .blocked ∧ b.state.status = o.entered 0 := by
  have hok : ∀ label ∈ blocks ++ startsLate, ordinary label := by decide
  have hrun : Run Step Ordinary _ _ := Run.of_foldlM (fun label hlabel _ => hok label hlabel)
    (rfl : foldlM apply (start ⟨"ws-root"⟩ ⟨"system"⟩) (blocks ++ startsLate) = some _)
  obtain ⟨b, read, hb, hread, hstatus, hiff⟩ := restored_iff_read hrun (i := 0) rfl rfl rfl rfl
  refine ⟨_, _, b, hrun, rfl, hb, rfl, hiff.mpr ?_⟩
  cases hread
  rfl

/-- **A migration that unblocks**: it started before the coordinator heard of the block, and the
actor comes back Active. -/
theorem unblocked_by_migration : ∃ o o' a b, Run Step Ordinary (start ⟨"ws-root"⟩ ⟨"system"⟩) o ∧
      o.system.actors[0]? = some a ∧ a.state.status = .migrating ∧
      a.coordinatorRx = [.migrationComplete false] ∧ o.Step (.turn 0) o' ∧
      o'.system.actors[0]? = some b ∧ o.entered 0 = .blocked ∧ b.state.status = .active := by
  have hok : ∀ label ∈ blocks ++ startsEarly, ordinary label := by decide
  have hrun : Run Step Ordinary _ _ := Run.of_foldlM (fun label hlabel _ => hok label hlabel)
    (rfl : foldlM apply (start ⟨"ws-root"⟩ ⟨"system"⟩) (blocks ++ startsEarly) = some _)
  exact ⟨_, _, _, _, hrun, rfl, rfl, rfl, rfl, rfl, rfl, rfl⟩

end Watched

end Wacp
