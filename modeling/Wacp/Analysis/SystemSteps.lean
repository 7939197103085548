import Wacp.Analysis.ActorEvents
import Wacp.Analysis.TreeInvariant
import Wacp.Model.Orchestrator

/-!
# The steps of the coordinator system

A step works inside the actors; or moves one event to the channel; or adds an actor and its node; or
the coordinator records the first event of the channel.
-/

namespace Wacp

open Library Library.Forest List WorkspaceTree Coordinator WorkspaceEvent

/-! ## Recording an event -/

namespace WorkspaceTree

variable {t : WorkspaceTree}

structure Recorded (t t' : WorkspaceTree) (event : WorkspaceEvent) : Prop where
  wellFormed : t'.WellFormed
  root : t'.root = t.root
  node : ∀ w, (t'.nodes.get w).map (·.taskId) = (t.nodes.get w).map (·.taskId)
  reported : ∀ v x, event.report = some (v, x) → ∀ n, t.nodes.get v = some n →
    t'.statusOf v = some x
  other : ∀ w, event.statusFor w = none → t'.statusOf w = t.statusOf w ∨
    t'.statusOf w = some .failed ∧ ∃ v before, event = .stateChanged v before .failed ∧
      Below t.parentOf w v ∧ t.ownerOf w = t.ownerOf v

variable {event : WorkspaceEvent}

theorem recorded_refl (hwf : t.WellFormed) (h : event.report = none) : t.Recorded t event where
  wellFormed := hwf
  root := rfl
  node := fun _ => rfl
  reported := by
    intro v x hr
    rw [h] at hr
    cases hr
  other := fun _ _ => .inl rfl

theorem recorded_updateStatus (hwf : t.WellFormed) {v : WorkspaceId}
    {x : WorkspaceState} (h : event.report = some (v, x)) :
    t.Recorded (t.updateStatus v x) event where
  wellFormed := hwf.updateStatus v x
  root := rfl
  node := by
    intro w
    rw [get_updateStatus, Option.map_map]
    rfl
  reported := by
    intro v' x' hr n hn
    rw [h] at hr
    cases hr
    rw [statusOf, get_updateStatus, hn]
    simp
  other := by
    intro w hw
    refine .inl (statusOf_updateStatus_of_ne ?_)
    rintro rfl
    rw [statusFor_of_report h] at hw
    cases hw

theorem recorded_cascade (hwf : t.WellFormed) {v : WorkspaceId} {before : WorkspaceState}
    {t' : WorkspaceTree} {moved : List WorkspaceId}
    (h : (t.updateStatus v .failed).cascadeFailure v = some (t', moved)) :
    t.Recorded t' (.stateChanged v before .failed) := by
  have hstep : t.Recorded (t.updateStatus v .failed) (.stateChanged v before .failed) :=
    recorded_updateStatus hwf rfl
  cases hv : (t.updateStatus v .failed).nodes.get v with
  | none =>
    rw [cascadeFailure_of_none hv] at h
    cases h
    exact hstep
  | some =>
    obtain ⟨t'', moved', hcas, hres⟩ := cascadeFailure_result hstep.wellFormed hv
    rw [hcas] at h
    cases h
    refine ⟨hres.wellFormed, hres.root.trans hstep.root, ?_, ?_, ?_⟩
    · intro w
      rw [hres.task, hstep.node]
    · intro v' x hr n hn
      cases hr
      exact hres.status_hit v (.inl rfl)
    · intro w hw
      have hne : w ≠ v := by
        rintro rfl
        simp [statusFor, report] at hw
      by_cases hhit : (t.updateStatus v .failed).Hit v w
      · obtain ⟨hbelow, howner⟩ := hhit.resolve_left hne
        rw [parentOf_updateStatus] at hbelow
        rw [ownerOf_updateStatus] at howner
        exact .inr ⟨hres.status_hit w hhit, v, before, rfl, hbelow, howner⟩
      · left
        rw [hres.status_kept w hhit, statusOf_updateStatus_of_ne hne]

end WorkspaceTree

variable {event : WorkspaceEvent} {sent : List (ℕ × CoordinatorCommand)}

theorem Coordinator.handleEvent_recorded {c c' : Coordinator} (hwf : c.tree.WellFormed)
    (h : c.handleEvent event = some (c', sent)) : c.tree.Recorded c'.tree event := by
  cases event with
  | stateChanged =>
    obtain ⟨t', ht', hc'⟩ := Option.map_eq_some_iff.mp h
    obtain ⟨rfl, -⟩ := Prod.mk.inj hc'
    unfold recordState at ht'
    split_ifs at ht' with hfailed
    · subst hfailed
      obtain ⟨r, hr, rfl⟩ := Option.map_eq_some_iff.mp ht'
      exact recorded_cascade hwf hr
    · cases ht'
      exact recorded_updateStatus hwf rfl
  | terminated =>
    cases h
    exact recorded_updateStatus hwf rfl
  | migrationSnapshot =>
    simp only [handleEvent] at h
    split at h
    · cases h
      exact recorded_refl hwf rfl
    · cases h
      exact recorded_refl hwf rfl
  | _ =>
    cases h
    exact recorded_refl hwf rfl

theorem Coordinator.handleEvent_taskGraph {c c' : Coordinator}
    (h : c.handleEvent event = some (c', sent)) : c'.taskGraph = c.taskGraph := by
  cases event with
  | stateChanged =>
    obtain ⟨t', -, hc'⟩ := Option.map_eq_some_iff.mp h
    cases hc'
    rfl
  | migrationSnapshot =>
    simp only [handleEvent] at h
    split at h
    · cases h
      rfl
    · cases h
      rfl
  | _ =>
    cases h
    rfl

theorem Coordinator.handleEvent_isSome {c : Coordinator} (hwf : c.tree.WellFormed)
    {event : WorkspaceEvent} : ∃ r, c.handleEvent event = some r := by
  cases event with
  | stateChanged v before after =>
    have hrecord : ∃ t', recordState c.tree v after = some t' := by
      unfold recordState
      dsimp only
      split
      · obtain ⟨t', moved, hcas, -⟩ :=
          (hwf.updateStatus v after).cascadeFailure v
        exact ⟨t', by rw [hcas]; rfl⟩
      · exact ⟨_, rfl⟩
    obtain ⟨t', ht'⟩ := hrecord
    exact ⟨_, by rw [handleEvent, ht']; rfl⟩
  | migrationSnapshot =>
    simp only [handleEvent]
    split <;> exact ⟨_, rfl⟩
  | _ => exact ⟨_, rfl⟩

theorem Coordinator.insert_nodeOf {c : Coordinator} {request : DispatchRequest}
    {p : WorkspaceId} {pn : WorkspaceNode} (hfresh : c.tree.nodes.get (nodeOf request).id = none)
    (hparent : (nodeOf request).parent = some p) (hpn : c.tree.nodes.get p = some pn) (handle : ℕ) :
    c.tree.insert (nodeOf request) = .ok (c.dispatch request handle).tree := by
  obtain ⟨t', ht'⟩ := insert_isOk hfresh hparent hpn
  simp [dispatch, ht']

/-! ## The operations of a migration -/

namespace Coordinator

variable {c : Coordinator} {w : WorkspaceId} {r : Coordinator × List (ℕ × CoordinatorCommand)}

def withActive (c : Coordinator) (active : Table WorkspaceId MigrationContext) : Coordinator :=
  { c with migration := { c.migration with active := active } }

theorem startMigration_inv {request : MigrationRequest} {oldAgent : String} {nowMs : ℕ}
    (h : c.startMigration request oldAgent nowMs = .ok r) :
    ∃ node ctx, c.tree.get request.workspaceId = some node ∧
      (node.status = .active ∨ node.status = .blocked) ∧
      c.migration.active.get request.workspaceId = none ∧ ctx.preMigrationState = node.status ∧
      r = (c.withActive (c.migration.active.set request.workspaceId ctx),
        c.command request.workspaceId .migrateBegin) := by
  unfold startMigration MigrationCoordinator.start at h
  split at h
  · cases h
  · next node hnode =>
      split at h
      · cases h
      · next migration hstart =>
          split_ifs at hstart with hstatus hactive
          cases hstart
          cases h
          rw [not_and_or, not_not, not_not] at hstatus
          rw [Bool.not_eq_true, Table.contains_eq_false_iff] at hactive
          exact ⟨node, _, hnode, hstatus, hactive, rfl, rfl⟩

theorem completeMigration_inv (h : c.completeMigration w = some r) :
    ∃ ctx, c.migration.active.get w = some ctx ∧
      r = (c.withActive (c.migration.active.remove w),
        c.command w (.migrationComplete (decide (ctx.preMigrationState = .blocked)))) := by
  unfold completeMigration MigrationCoordinator.complete MigrationCoordinator.take at h
  split at h
  · cases h
  · next ctx hctx =>
      cases h
      exact ⟨ctx, hctx, rfl⟩

theorem failMigration_inv {error : String} {step : ℕ} (h : c.failMigration w error step = some r) :
    ∃ ctx, c.migration.active.get w = some ctx ∧
      r = (c.withActive (c.migration.active.remove w), c.command w .migrationFailed) := by
  unfold failMigration MigrationCoordinator.fail MigrationCoordinator.take at h
  cases hctx : c.migration.active.get w with
  | none =>
    rw [hctx] at h
    cases h
  | some ctx =>
    rw [hctx] at h
    cases h
    exact ⟨ctx, rfl, rfl⟩

end Coordinator

/-! ## What a step does -/

namespace System

open WorkspaceActor

variable {s s' : System} {label : Label}

theorem quiet_deliver {actors : List WorkspaceActor} {sent : ℕ × CoordinatorCommand} :
    Forall₂ Quiet actors (deliver actors sent) := by
  apply forall₂_modify Quiet.refl
  intro a
  split
  · exact Quiet.refl a
  · exact ⟨⟨rfl, fun h => h, rfl, rfl⟩, rfl, rfl⟩

theorem quiet_send (s : System) (r : Coordinator × List (ℕ × CoordinatorCommand)) :
    Forall₂ Quiet s.actors (s.send r).actors := by
  show Forall₂ Quiet s.actors (r.2.foldl deliver s.actors)
  generalize s.actors = actors
  induction r.2 generalizing actors with
  | nil => exact forall₂_same.mpr fun a _ => Quiet.refl a
  | cons sent rest ih =>
    have hrest : Forall₂ Quiet (deliver actors sent) ((sent :: rest).foldl deliver actors) := ih _
    exact forall₂_trans (fun _ _ _ h h' => h.trans h') quiet_deliver hrest

def Label.sends : Label → Bool
  | .command _ _ => true
  | .startMigration _ _ _ => true
  | .completeMigration _ => true
  | .failMigration _ _ _ => true
  | _ => false

inductive Moves (s : System) : Label → System → Prop where
  | send {label : Label} {c : Coordinator} {actors : List WorkspaceActor}
      (hlabel : label.sends) (htree : c.tree = s.coordinator.tree)
      (hgraph : c.taskGraph = s.coordinator.taskGraph)
      (hactors : Forall₂ Quiet s.actors actors) :
      Moves s label { coordinator := c, actors := actors, events := s.events }
  | agent (i : ℕ) (msg : AgentMessage) :
      Moves s (.agent i msg) { s with actors := s.actors.modify i fun a =>
        if a.stopped then a else { a with agentRx := a.agentRx ++ [msg] } }
  | turn {i : ℕ} {a b : WorkspaceActor} (ha : s.actors[i]? = some a) (hrun : a.stopped = false)
      (hout : a.outbox = []) (hturn : a.turn = some b) :
      Moves s (.turn i) { s with actors := s.actors.set i b }
  | flush {i : ℕ} {a : WorkspaceActor} {event : WorkspaceEvent} {rest : List WorkspaceEvent}
      (ha : s.actors[i]? = some a) (hout : a.outbox = event :: rest) :
      Moves s (.flush i) { s with
        actors := s.actors.set i { a with outbox := rest }
        events := s.events ++ [event] }
  | hangUp {i : ℕ} {a : WorkspaceActor} (ha : s.actors[i]? = some a) :
      Moves s (.hangUp i) { s with actors := s.actors.set i { a with stopped := true } }
  | dispatch (request : DispatchRequest) :
      Moves s (.dispatch request) (s.dispatch request)
  | receive {event : WorkspaceEvent} {rest : List WorkspaceEvent} {c : Coordinator}
      {sent : List (ℕ × CoordinatorCommand)} {actors : List WorkspaceActor}
      (hev : s.events = event :: rest) (hc : s.coordinator.handleEvent event = some (c, sent))
      (hactors : Forall₂ Quiet s.actors actors) :
      Moves s .handleEvent { coordinator := c, actors := actors, events := rest }

inductive Effect (s : System) : Label → System → Prop where
  | within {label : Label} {c : Coordinator} {actors : List WorkspaceActor}
      (htree : c.tree = s.coordinator.tree) (hgraph : c.taskGraph = s.coordinator.taskGraph)
      (hactors : Forall₂ Tracks s.actors actors) :
      Effect s label { coordinator := c, actors := actors, events := s.events }
  | flush {label : Label} {i : ℕ} {a : WorkspaceActor} {event : WorkspaceEvent}
      {rest : List WorkspaceEvent} (ha : s.actors[i]? = some a) (hout : a.outbox = event :: rest) :
      Effect s label { coordinator := s.coordinator, events := s.events ++ [event]
                       actors := s.actors.set i { a with outbox := rest } }
  | spawn (request : DispatchRequest) :
      Effect s (.dispatch request) (s.dispatch request)
  | receive {event : WorkspaceEvent} {rest : List WorkspaceEvent} {c : Coordinator}
      {sent : List (ℕ × CoordinatorCommand)} {actors : List WorkspaceActor}
      (hev : s.events = event :: rest) (hc : s.coordinator.handleEvent event = some (c, sent))
      (hactors : Forall₂ Same s.actors actors) :
      Effect s .handleEvent { coordinator := c, actors := actors, events := rest }

/-- **The inversion of a step.** -/
theorem moves_of_step (h : Step s label s') : Moves s label s' := by
  have hrefl : ∀ label : Label, label.sends → Moves s label s := fun label hlabel =>
    Moves.send hlabel rfl rfl (forall₂_same.mpr fun a _ => Quiet.refl a)
  unfold Step at h
  cases label with
  | dispatch request =>
    cases h
    exact Moves.dispatch request
  | command =>
    cases h
    exact Moves.send rfl rfl rfl (quiet_send s _)
  | startMigration =>
    simp only [apply] at h
    split at h
    · next r hr =>
        cases h
        obtain ⟨node, ctx, -, -, -, -, rfl⟩ := startMigration_inv hr
        exact Moves.send rfl rfl rfl (quiet_send s _)
    · cases h
      exact hrefl _ rfl
  | completeMigration =>
    simp only [apply] at h
    split at h
    · next r hr =>
        cases h
        obtain ⟨ctx, -, rfl⟩ := completeMigration_inv hr
        exact Moves.send rfl rfl rfl (quiet_send s _)
    · cases h
      exact hrefl _ rfl
  | failMigration =>
    simp only [apply] at h
    split at h
    · next r hr =>
        cases h
        obtain ⟨ctx, -, rfl⟩ := failMigration_inv hr
        exact Moves.send rfl rfl rfl (quiet_send s _)
    · cases h
      exact hrefl _ rfl
  | agent i msg =>
    cases h
    exact Moves.agent i msg
  | turn =>
    simp only [apply] at h
    split at h
    · cases h
    · next a ha =>
        split_ifs at h with hidle
        obtain ⟨b, hb, rfl⟩ := Option.map_eq_some_iff.mp h
        exact Moves.turn ha hidle.1 hidle.2 hb
  | flush =>
    simp only [apply] at h
    split at h
    · cases h
    · next a ha =>
        split at h
        · cases h
        · next event rest hout =>
            cases h
            exact Moves.flush ha hout
  | hangUp =>
    simp only [apply] at h
    split at h
    · cases h
    · next a ha =>
        split_ifs at h with hidle
        cases h
        exact Moves.hangUp ha
  | handleEvent =>
    simp only [apply] at h
    split at h
    · cases h
    · next event rest hev =>
        obtain ⟨r, hr, rfl⟩ := Option.map_eq_some_iff.mp h
        exact Moves.receive hev hr (quiet_send s r)

theorem effect_of_step (h : Step s label s') : Effect s label s' := by
  cases moves_of_step h with
  | send _ htree hgraph hactors =>
    exact Effect.within htree hgraph (hactors.imp fun _ _ hq => hq.same.tracks)
  | agent =>
    refine Effect.within rfl rfl (forall₂_modify Tracks.refl ?_ _ _)
    intro a
    split
    · exact Tracks.refl a
    · exact Same.tracks ⟨rfl, fun h => h, rfl, rfl⟩
  | turn ha hrun _ hturn =>
    exact Effect.within rfl rfl (forall₂_set Tracks.refl ha (tracks_turn hrun hturn))
  | flush ha hout => exact Effect.flush ha hout
  | hangUp ha =>
    refine Effect.within rfl rfl (forall₂_set Tracks.refl ha (Same.tracks ⟨rfl, ?_, rfl, rfl⟩))
    intro hrun
    cases hrun
  | dispatch request => exact Effect.spawn request
  | receive hev hc hactors => exact Effect.receive hev hc (hactors.imp fun _ _ hq => hq.same)

/-! ## The shape of a system -/

def ids (s : System) : List WorkspaceId := s.actors.map (·.state.id)

def inFlight (s : System) (a : WorkspaceActor) : List WorkspaceState :=
  reported a.state.id (s.events ++ a.outbox)

/-- Every workspace but the root has one actor, which alone reports on it. -/
structure Sound (s : System) : Prop where
  tree : s.coordinator.tree.WellFormed
  nodup : s.ids.Nodup
  node : ∀ w, (∃ n, s.coordinator.tree.nodes.get w = some n) ↔
    w = s.coordinator.tree.root ∨ w ∈ s.ids
  events : ∀ e ∈ s.events, ∀ v x, e.report = some (v, x) → v ∈ s.ids
  outbox : ∀ a ∈ s.actors, ∀ e ∈ a.outbox, e.About a.state.id

/-- A dispatch has a new id and an existing parent; when a failure is learned, every actor below of
the same owner is `ready` for its node to be set to Failed. -/
def Guarded (ready : WorkspaceActor → List WorkspaceState → Prop) (s : System) : Label → Prop
  | .dispatch request =>
    s.coordinator.tree.get request.config.id = none ∧
      (s.coordinator.tree.get request.config.parent).isSome
  | .handleEvent =>
    ∀ v before rest, s.events = .stateChanged v before .failed :: rest → ∀ a ∈ s.actors,
      Below s.coordinator.tree.parentOf a.state.id v →
      s.coordinator.tree.ownerOf a.state.id = s.coordinator.tree.ownerOf v →
      ready a (s.inFlight a)
  | _ => True

theorem sound_init {rootId : WorkspaceId} {owner : UserId} : (init rootId owner).Sound where
  tree := wellFormed_new rootId owner
  nodup := nodup_nil
  node := by
    intro w
    have hget : (init rootId owner).coordinator.tree.nodes.get w = if w = rootId then
        some ⟨rootId, none, [], owner, .system, .active, none⟩ else none :=
      get_new rootId owner w
    rw [hget]
    constructor
    · rintro ⟨n, hn⟩
      split_ifs at hn with hw
      exact .inl hw
    · rintro (hw | hw)
      · exact ⟨_, if_pos hw⟩
      · cases hw
  events := by
    intro e he
    cases he
  outbox := by
    intro a ha
    cases ha

theorem Sound.mem_ids (h : s.Sound) {a : WorkspaceActor} (ha : a ∈ s.actors) :
    a.state.id ∈ s.ids ∧ ∃ n, s.coordinator.tree.nodes.get a.state.id = some n := by
  have hmem : a.state.id ∈ s.ids := mem_map_of_mem ha
  exact ⟨hmem, (h.node _).mpr (.inr hmem)⟩

theorem exists_iff_of_map_eq {α β : Type} {f : α → β} {o o' : Option α}
    (h : o.map f = o'.map f) : (∃ n, o = some n) ↔ ∃ n, o' = some n := by
  cases o <;> cases o' <;> simp at h ⊢

variable {actors : List WorkspaceActor}

theorem ids_of_tracks (h : Forall₂ Tracks s.actors actors) :
    actors.map (·.state.id) = s.actors.map (·.state.id) :=
  map_eq_of_forall₂ (fun _ _ hab => hab.id_eq) h

theorem Sound.about_of_tracks (h : s.Sound) (hactors : Forall₂ Tracks s.actors actors) :
    ∀ b ∈ actors, ∀ e ∈ b.outbox, e.About b.state.id := by
  intro b hb e he
  obtain ⟨a, ha, hab⟩ := exists_of_forall₂ hactors hb
  obtain ⟨es, hout, habout, -, -⟩ := hab.emitted
  rw [hab.id_eq]
  rw [hout] at he
  rcases mem_append.mp he with he | he
  · exact h.outbox a ha e he
  · exact habout e he

variable {request : DispatchRequest}

theorem dispatch_insert {ready : WorkspaceActor → List WorkspaceState → Prop}
    (hg : s.Guarded ready (.dispatch request)) : s.coordinator.tree.insert (nodeOf request) =
      .ok (s.coordinator.dispatch request s.actors.length).tree := by
  obtain ⟨hfresh, hparent⟩ := hg
  obtain ⟨pn, hpn⟩ := Option.isSome_iff_exists.mp hparent
  exact insert_nodeOf hfresh rfl hpn _

theorem Sound.of_tracks (h : s.Sound) {c : Coordinator} {events : List WorkspaceEvent}
    (hactors : Forall₂ Tracks s.actors actors) (hwf : c.tree.WellFormed)
    (hroot : c.tree.root = s.coordinator.tree.root)
    (hnode : ∀ w, (∃ n, c.tree.nodes.get w = some n) ↔ ∃ n, s.coordinator.tree.nodes.get w = some n)
    (hevents : ∀ e ∈ events, e ∈ s.events) :
    Sound { coordinator := c, actors := actors, events := events } := by
  have hids : actors.map (·.state.id) = s.ids := ids_of_tracks hactors
  refine ⟨hwf, ?_, ?_, ?_, h.about_of_tracks hactors⟩
  · show (actors.map (·.state.id)).Nodup
    rw [hids]
    exact h.nodup
  · intro w
    show _ ↔ w = c.tree.root ∨ w ∈ actors.map (·.state.id)
    rw [hids, hroot]
    exact (hnode w).trans (h.node w)
  · intro e he v x hr
    show v ∈ actors.map (·.state.id)
    rw [hids]
    exact h.events e (hevents e he) v x hr

theorem Sound.flush (h : s.Sound) {i : ℕ} {a : WorkspaceActor} {event : WorkspaceEvent}
    {rest : List WorkspaceEvent} (ha : s.actors[i]? = some a) (hout : a.outbox = event :: rest) :
    Sound { coordinator := s.coordinator, events := s.events ++ [event]
            actors := s.actors.set i { a with outbox := rest } } := by
  have hmem : a ∈ s.actors := mem_of_getElem? ha
  have hids : (s.actors.set i { a with outbox := rest }).map (·.state.id) = s.ids := by
    apply map_eq_of_forall₂ (R := fun x y => y.state.id = x.state.id) (fun _ _ hab => hab)
    apply forall₂_set _ ha
    · rfl
    · intro x
      rfl
  have habout := h.outbox a hmem
  rw [hout] at habout
  refine ⟨h.tree, ?_, ?_, ?_, ?_⟩
  · show (map _ _).Nodup
    rw [hids]
    exact h.nodup
  · intro w
    show _ ↔ _ ∨ w ∈ map _ _
    rw [hids]
    exact h.node w
  · intro e he v x hr
    show v ∈ map _ _
    rw [hids]
    rcases mem_append.mp he with he | he
    · exact h.events e he v x hr
    · rw [mem_singleton.mp he] at hr
      rw [habout event mem_cons_self v x hr]
      exact (h.mem_ids hmem).1
  · intro b hb e he
    rcases mem_or_eq_of_mem_set hb with hb | rfl
    · exact h.outbox b hb e he
    · exact habout e (mem_cons_of_mem _ he)

variable (h : s.Sound) {ready : WorkspaceActor → List WorkspaceState → Prop}
include h

theorem Sound.notMem_ids (hg : s.Guarded ready (.dispatch request)) :
    request.config.id ∉ s.ids := by
  intro hmem
  obtain ⟨n, hn⟩ := (h.node request.config.id).mpr (.inr hmem)
  cases hn.symm.trans hg.1

theorem Sound.dispatch (hg : s.Guarded ready (.dispatch request)) : (s.dispatch request).Sound := by
  have hins := dispatch_insert hg
  have hids : (s.dispatch request).ids = s.ids ++ [request.config.id] := map_append
  refine ⟨h.tree.insert rfl hins, ?_, ?_, ?_, ?_⟩
  · rw [hids]
    exact Nodup.append h.nodup (nodup_singleton _) (by simpa using h.notMem_ids hg)
  · intro w
    have hnode := map_get_insert hins (fun _ => ()) (fun _ _ => rfl) w
    have hroot := insert_root hins
    show (∃ n, (s.coordinator.dispatch request s.actors.length).tree.nodes.get w = some n) ↔
      w = (s.coordinator.dispatch request s.actors.length).tree.root ∨ w ∈ (s.dispatch request).ids
    rw [hids, hroot, mem_append, mem_singleton, ← or_assoc, ← h.node w]
    by_cases hw : w = request.config.id
    · rw [if_pos (show w = (nodeOf request).id from hw)] at hnode
      obtain ⟨n, hn, -⟩ := Option.map_eq_some_iff.mp hnode
      exact ⟨fun _ => .inr hw, fun _ => ⟨n, hn⟩⟩
    · rw [if_neg (show w ≠ (nodeOf request).id from hw)] at hnode
      rw [exists_iff_of_map_eq hnode]
      exact ⟨.inl, fun hor => hor.resolve_right hw⟩
  · intro e he v x hr
    rw [hids]
    exact mem_append_left _ (h.events e he v x hr)
  · intro b hb e he
    rcases mem_append.mp hb with hb | hb
    · exact h.outbox b hb e he
    · rw [mem_singleton.mp hb] at he
      cases he

theorem Sound.step (hg : s.Guarded ready label) (he : Effect s label s') : s'.Sound := by
  cases he with
  | within htree _ hactors =>
    refine h.of_tracks hactors ?_ ?_ ?_ fun _ he => he
    · rw [htree]
      exact h.tree
    · rw [htree]
    · intro w
      rw [htree]
  | flush ha hout => exact h.flush ha hout
  | spawn => exact h.dispatch hg
  | receive hev hc hactors =>
    have hrec := handleEvent_recorded h.tree hc
    refine h.of_tracks (hactors.imp fun _ _ => Same.tracks) hrec.wellFormed hrec.root
      (fun w => exists_iff_of_map_eq (hrec.node w)) ?_
    intro e he
    rw [hev]
    exact mem_cons_of_mem _ he

end System

end Wacp
