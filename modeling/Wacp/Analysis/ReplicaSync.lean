import Wacp.Analysis.SystemSteps

/-!
# The tree as a replica of the actors

The status of a node is a copy of its actor's, kept by events. The cascade is the exception: it sets
nodes to Failed and tells their actors nothing (`topology.md` section 2.3 has them aborted).
-/

namespace Wacp.System

open Library Library.Forest WorkspaceActor List Option WorkspaceEvent

variable {s s' : System} {label : Label} {ready : WorkspaceActor → List WorkspaceState → Prop}

/-! ## The way of a status -/

/-- What a step does to the copy of a status, to what is on its way, and to the status. -/
inductive Flow (ready : WorkspaceActor → List WorkspaceState → Prop) (s s' : System)
    (a b : WorkspaceActor) : Prop where
  | report (news : List WorkspaceState)
      (hcopy : s'.coordinator.tree.statusOf a.state.id = s.coordinator.tree.statusOf a.state.id)
      (hqueue : s'.inFlight b = s.inFlight a ++ news)
      (hsync : InSync a.state.status news b.state.status)
      (hsettle : Settles Terminal a.state.status news b.state.status)
  | receive (x : WorkspaceState) (hcopy : s'.coordinator.tree.statusOf a.state.id = some x)
      (hqueue : s.inFlight a = x :: s'.inFlight b) (hsource : b.state.status = a.state.status)
  | overwrite (hcopy : s'.coordinator.tree.statusOf a.state.id = some .failed)
      (hqueue : s'.inFlight b = s.inFlight a) (hsource : b.state.status = a.state.status)
      (hready : ready a (s.inFlight a))

variable {a b : WorkspaceActor}

theorem Flow.same
    (hcopy : s'.coordinator.tree.statusOf a.state.id = s.coordinator.tree.statusOf a.state.id)
    (hqueue : s'.inFlight b = s.inFlight a) (hsource : b.state.status = a.state.status) :
    Flow ready s s' a b := by
  refine Flow.report [] hcopy (by rw [hqueue, append_nil]) ?_ ?_
  · rw [hsource]
    exact InSync.refl _
  · rw [hsource]
    exact Settles.refl _

theorem Flow.carries {R : WorkspaceState → List WorkspaceState → WorkspaceState → Prop}
    (h : Flow ready s s' a b) {copy : WorkspaceState}
    (hcopy : s.coordinator.tree.statusOf a.state.id = some copy)
    (hR : R copy (s.inFlight a) a.state.status)
    (hreport : ∀ news, InSync a.state.status news b.state.status →
      Settles Terminal a.state.status news b.state.status →
      R copy (s.inFlight a ++ news) b.state.status)
    (hreceive : ∀ x queue, R copy (x :: queue) a.state.status → R x queue a.state.status)
    (hoverwrite : ready a (s.inFlight a) → R .failed (s.inFlight a) a.state.status) :
    ∃ copy', s'.coordinator.tree.statusOf a.state.id = some copy' ∧
      R copy' (s'.inFlight b) b.state.status := by
  cases h with
  | report news hkeep hqueue hsync hsettle =>
    refine ⟨copy, hkeep.trans hcopy, ?_⟩
    rw [hqueue]
    exact hreport news hsync hsettle
  | receive x hx hqueue hsource =>
    refine ⟨x, hx, ?_⟩
    rw [hsource]
    rw [hqueue] at hR
    exact hreceive x _ hR
  | overwrite hx hqueue hsource hready =>
    refine ⟨_, hx, ?_⟩
    rw [hqueue, hsource]
    exact hoverwrite hready

variable {actors : List WorkspaceActor}

theorem flow_tracks {c : Coordinator} (htree : c.tree = s.coordinator.tree) (h : Tracks a b) :
    Flow ready s { coordinator := c, actors := actors, events := s.events } a b := by
  obtain ⟨es, hout, -, hsync, hsettle⟩ := h.emitted
  refine Flow.report (reported a.state.id es) ?_ ?_ hsync hsettle
  · rw [htree]
  · simp [inFlight, h.id_eq, hout, reported_append]

variable {event : WorkspaceEvent} {rest : List WorkspaceEvent}

theorem flow_flush (h : s.Sound) {i : ℕ}
    (ha : s.actors[i]? = some a) (hout : a.outbox = event :: rest)
    (hb : b ∈ s.actors.set i { a with outbox := rest }) :
    ∃ a' ∈ s.actors, b.state.id = a'.state.id ∧ (b.stopped = false → a'.stopped = false) ∧
      Flow ready s { coordinator := s.coordinator, events := s.events ++ [event]
                     actors := s.actors.set i { a with outbox := rest } } a' b := by
  have hmem : a ∈ s.actors := mem_of_getElem? ha
  obtain ⟨j, hj⟩ := mem_iff_getElem?.mp hb
  rw [getElem?_set] at hj
  split_ifs at hj with hij hlt
  · cases hj
    refine ⟨a, hmem, rfl, fun hrun => hrun, Flow.same rfl ?_ rfl⟩
    simp only [inFlight, hout, append_assoc, singleton_append]
  · have hb' : b ∈ s.actors := mem_of_getElem? hj
    refine ⟨b, hb', rfl, fun hrun => hrun, Flow.same rfl ?_ rfl⟩
    have hne : b.state.id ≠ a.state.id := by
      intro heq
      have hlen : i < s.ids.length := by
        rw [ids, length_map]
        exact (List.getElem?_eq_some_iff.mp ha).1
      have hids : s.ids[i]? = s.ids[j]? := by
        simp only [ids, getElem?_map, ha, hj, map_some, heq]
      exact hij (getElem?_inj hlen h.nodup |>.mp hids)
    have hnone : event.statusFor b.state.id = none := by
      have habout := h.outbox a hmem event (by rw [hout]; exact mem_cons_self)
      exact statusFor_of_about habout hne
    have hnil : reported b.state.id [event] = [] := by
      rw [reported_cons_of_none hnone]
      rfl
    simp only [inFlight, reported_append, hnil, append_nil]

theorem flow_spawn (h : s.Sound) {request : DispatchRequest}
    (hg : s.Guarded ready (.dispatch request)) :
    ((s.dispatch request).coordinator.tree.statusOf request.config.id = some .idle ∧
      (s.dispatch request).inFlight (.spawn request.config) = []) ∧
    ∀ a ∈ s.actors, Flow ready s (s.dispatch request) a a := by
  have hstatus := WorkspaceTree.map_get_insert (dispatch_insert hg) (·.status) fun _ _ => rfl
  have hfresh := h.notMem_ids hg
  refine ⟨⟨?_, ?_⟩, ?_⟩
  · exact (hstatus request.config.id).trans (if_pos rfl)
  · refine reported_eq_nil ?_
    intro e he v x hr hv
    have hid : v = request.config.id := hv
    rcases mem_append.mp he with he | he
    · exact hfresh (hid ▸ h.events e he v x hr)
    · cases he
  · intro a ha
    refine Flow.same ?_ rfl rfl
    refine (hstatus a.state.id).trans (if_neg ?_)
    intro heq
    have hid : a.state.id = request.config.id := heq
    exact hfresh (hid ▸ (h.mem_ids ha).1)

theorem flow_receive (h : s.Sound) (hg : s.Guarded ready .handleEvent)
    {c : Coordinator} {sent : List (ℕ × CoordinatorCommand)} (hev : s.events = event :: rest)
    (hc : s.coordinator.handleEvent event = some (c, sent)) (ha : a ∈ s.actors) (hab : Same a b) :
    Flow ready s { coordinator := c, actors := actors, events := rest } a b := by
  have hrec := Coordinator.handleEvent_recorded h.tree hc
  have hflight : s.inFlight a = reported a.state.id (event :: (rest ++ a.outbox)) := by
    simp [inFlight, hev]
  have hflight' : ∀ c' actors', System.inFlight ⟨c', actors', rest⟩ b =
      reported a.state.id (rest ++ a.outbox) := by
    intro c' actors'
    simp [inFlight, hab.id_eq, hab.outbox]
  cases hstatus : event.statusFor a.state.id with
  | some x =>
    obtain ⟨n, hn⟩ := (h.mem_ids ha).2
    have hreport := report_of_statusFor hstatus
    refine Flow.receive x (hrec.reported _ x hreport n hn) ?_ hab.status
    rw [hflight, hflight', reported_cons_of_some hstatus]
  | none =>
    rw [reported_cons_of_none hstatus] at hflight
    have hqueue := fun c' actors' => (hflight' c' actors').trans hflight.symm
    rcases hrec.other a.state.id hstatus with hsame | ⟨hfailed, v, before, rfl, hbelow, howner⟩
    · exact Flow.same hsame (hqueue c actors) hab.status
    · exact Flow.overwrite hfailed (hqueue c actors) hab.status
        (hg v before rest hev a ha hbelow howner)

theorem flow_of_effect (h : s.Sound) (hg : s.Guarded ready label) (he : Effect s label s')
    (hb : b ∈ s'.actors) :
    (s'.coordinator.tree.statusOf b.state.id = some b.state.status ∧ s'.inFlight b = []) ∨
    ∃ a ∈ s.actors, b.state.id = a.state.id ∧ (b.stopped = false → a.stopped = false) ∧
      Flow ready s s' a b := by
  cases he with
  | within htree _ hactors =>
    obtain ⟨a, ha, hab⟩ := exists_of_forall₂ hactors hb
    exact .inr ⟨a, ha, hab.id_eq, hab.running, flow_tracks htree hab⟩
  | flush ha hout => exact .inr (flow_flush h ha hout hb)
  | spawn =>
    obtain ⟨hnew, hold⟩ := flow_spawn h hg
    rcases mem_append.mp hb with hb | hb
    · exact .inr ⟨b, hb, rfl, fun hrun => hrun, hold b hb⟩
    · rw [mem_singleton.mp hb]
      exact .inl hnew
  | receive hev hc hactors =>
    obtain ⟨a, ha, hab⟩ := exists_of_forall₂ hactors hb
    exact .inr ⟨a, ha, hab.id_eq, hab.running, flow_receive h hg hev hc ha hab⟩

/-! ## Runs of a parent and a child -/

/-- Decidable and stronger than `Guarded`: every actor is ready. -/
def guardedBy (ready : WorkspaceActor → List WorkspaceState → Bool) (s : System) : Label → Bool
  | .dispatch request =>
    (s.coordinator.tree.get request.config.id).isNone &&
      (s.coordinator.tree.get request.config.parent).isSome
  | .handleEvent => s.actors.all fun a => ready a (s.inFlight a)
  | _ => true

variable {check : WorkspaceActor → List WorkspaceState → Bool}

theorem guarded_of_guardedBy (hcheck : ∀ a queue, check a queue → ready a queue)
    (h : s.guardedBy check label) : s.Guarded ready label := by
  cases label with
  | dispatch =>
    obtain ⟨hid, hparent⟩ := Bool.and_eq_true_iff.mp h
    exact ⟨isNone_iff_eq_none.mp hid, hparent⟩
  | handleEvent =>
    intro v before rest _ a ha _ _
    exact hcheck a _ (all_eq_true.mp h a ha)
  | _ => trivial

def takeAll (check : WorkspaceActor → List WorkspaceState → Bool) (s : System)
    (labels : List Label) : Option System :=
  labels.foldlM (fun s label => if s.guardedBy check label then s.apply label else none) s

theorem run_of_takeAll {labels : List Label} (hcheck : ∀ a queue, check a queue → ready a queue)
    (h : s.takeAll check labels = some s') : Run Step (Guarded ready) s s' :=
  Run.of_checked (guardedBy check) (fun _ _ _ hs => guarded_of_guardedBy hcheck hs) h

def sampleEnvelope : Envelope :=
  { id := ⟨"env-0"⟩, fromWorkspace := ⟨"ws-root"⟩, toWorkspace := ⟨"ws-0"⟩
    envelopeType := "directive", payload := [], inReplyTo := none, timestamp := 0
    priority := .normal, origin := .human, state := .created }

def sampleRequest (id parent : String) : DispatchRequest :=
  { taskId := ⟨"task-0"⟩
    config :=
      { id := ⟨id⟩, role := "worker", baseRole := .worker, parent := ⟨parent⟩
        owner := ⟨"alice"⟩, originator := .system, directive := sampleEnvelope, context := []
        visibility := ∅, authority := ∅, delegate := false, budget := none } }

def family : List Label :=
  [.dispatch (sampleRequest "ws-0" "ws-root"), .dispatch (sampleRequest "ws-1" "ws-0")]

/-- Both are aborted, and the coordinator has heard of the child. -/
def childFailsFirst : List Label :=
  family ++ [.command ⟨"ws-1"⟩ .abort, .command ⟨"ws-0"⟩ .abort, .turn 0, .turn 1, .flush 1,
    .flush 0, .handleEvent]

/-- The parent fails, and the coordinator cascades to the child. -/
def parentFails : List Label :=
  family ++ [.command ⟨"ws-0"⟩ .abort, .turn 0, .flush 0, .handleEvent]

/-! ## Agreement at rest -/

def Answers (a : WorkspaceActor) (queue : List WorkspaceState) : Prop :=
  a.stopped = false → a.state.status = .failed ∨ queue ≠ []

def Synced (s : System) : Prop :=
  ∀ a ∈ s.actors, a.stopped = false → ∃ copy,
    s.coordinator.tree.statusOf a.state.id = some copy ∧ InSync copy (s.inFlight a) a.state.status

theorem Synced.step (hsync : s.Synced) (h : s.Sound) (hg : s.Guarded Answers label)
    (he : Effect s label s') : s'.Synced := by
  intro b hb hrun
  rcases flow_of_effect h hg he hb with ⟨hcopy, hqueue⟩ | ⟨a, ha, hid, hrunning, hflow⟩
  · refine ⟨_, hcopy, ?_⟩
    rw [hqueue]
    exact InSync.refl _
  · obtain ⟨copy, hcopy, hin⟩ := hsync a ha (hrunning hrun)
    rw [hid]
    exact hflow.carries hcopy hin (fun news hsync _ => hin.trans hsync)
      (fun x queue hqueue => hqueue.receive)
      (fun hready => hin.overwrite (hready (hrunning hrun)))

/-- **The tree agrees with the actors at rest**, if dispatches have new ids and existing parents,
and cascades find running actors below failed or with an event on its way. -/
theorem tree_agrees_of_run {rootId : WorkspaceId} {owner : UserId}
    (h : Run Step (Guarded Answers) (init rootId owner) s) (hrest : s.Quiescent) :
    ∀ a ∈ s.actors, a.stopped = false →
      s.coordinator.tree.statusOf a.state.id = some a.state.status := by
  have hboth : s.Sound ∧ s.Synced := by
    refine h.invariant (fun s => s.Sound ∧ s.Synced) ?_ ⟨sound_init, ?_⟩
    · intro s label s' hs hg hstep
      have he := effect_of_step hstep
      exact ⟨hs.1.step hg he, hs.2.step hs.1 hg he⟩
    · intro a ha
      cases ha
  intro a ha hrun
  obtain ⟨copy, hcopy, hin⟩ := hboth.2 a ha hrun
  obtain ⟨hevents, hqueues⟩ := hrest
  obtain ⟨-, -, hout⟩ := hqueues a ha
  have hflight : s.inFlight a = [] := by
    rw [inFlight, hevents, hout]
    rfl
  rw [hflight] at hin
  rw [hcopy, hin.copy_eq]

theorem tree_agrees_of_child_first :
    ∃ s, Run Step (Guarded Answers) (init ⟨"ws-root"⟩ ⟨"system"⟩) s ∧ s.Quiescent ∧
      s.actors.length = 2 ∧ ∀ a ∈ s.actors, a.stopped = false →
        s.coordinator.tree.statusOf a.state.id = some a.state.status := by
  let check : WorkspaceActor → List WorkspaceState → Bool :=
    fun a _ => decide (a.state.status = .failed)
  have hrun : Run Step (Guarded Answers) _ _ :=
    run_of_takeAll (fun a queue ha _ => .inl (of_decide_eq_true ha))
      (rfl : (init ⟨"ws-root"⟩ ⟨"system"⟩).takeAll check (childFailsFirst ++ [.handleEvent]) = some _)
  exact ⟨_, hrun, ⟨rfl, by decide⟩, rfl, tree_agrees_of_run hrun ⟨rfl, by decide⟩⟩

/-- The parent fails; at rest the child's node says Failed and its actor is Idle. -/
theorem stale_copy_run :
    ∃ s, Run Step (Guarded fun _ _ => True) (init ⟨"ws-root"⟩ ⟨"system"⟩) s ∧ s.Quiescent ∧
      ∃ a ∈ s.actors, a.stopped = false ∧ a.state.status = .idle ∧
        s.coordinator.tree.statusOf a.state.id = some .failed := by
  have hrun := run_of_takeAll (fun _ _ _ => trivial)
    (rfl : (init ⟨"ws-root"⟩ ⟨"system"⟩).takeAll (fun _ _ => true)
      (parentFails ++ [.turn 0, .flush 0, .handleEvent]) = some _)
  exact ⟨_, hrun, ⟨rfl, by decide⟩, by decide⟩

/-! ## Terminal statuses -/

def HasFailed (a : WorkspaceActor) (queue : List WorkspaceState) : Prop :=
  a.state.status = .failed ∧ ∀ x ∈ queue, x = .failed

def Settled (s : System) : Prop :=
  ∀ a ∈ s.actors, ∃ copy, s.coordinator.tree.statusOf a.state.id = some copy ∧
    Settles Terminal copy (s.inFlight a) a.state.status

section

variable (hset : s.Settled) (h : s.Sound) (hg : s.Guarded HasFailed label) (he : Effect s label s')
include hset h hg he

theorem Settled.step : s'.Settled := by
  intro b hb
  rcases flow_of_effect h hg he hb with ⟨hcopy, hqueue⟩ | ⟨a, ha, hid, -, hflow⟩
  · refine ⟨_, hcopy, ?_⟩
    rw [hqueue]
    exact Settles.refl _
  · obtain ⟨copy, hcopy, hin⟩ := hset a ha
    rw [hid]
    exact hflow.carries hcopy hin (fun news _ hsettle => hin.trans hsettle)
      (fun x queue hqueue => hqueue.receive)
      (fun hready => hin.overwrite hready.1 hready.2)

theorem Settled.statusOf {w : WorkspaceId} {st : WorkspaceState} (hterm : Terminal st)
    (hst : s.coordinator.tree.statusOf w = some st) : s'.coordinator.tree.statusOf w = some st := by
  cases he with
  | within htree =>
    rw [htree]
    exact hst
  | flush => exact hst
  | spawn request =>
    have hstatus := WorkspaceTree.map_get_insert (dispatch_insert hg) (·.status) (fun _ _ => rfl) w
    refine hstatus.trans ((if_neg ?_).trans hst)
    intro hw
    have hfresh := hg.1
    rw [WorkspaceTree.statusOf, show w = request.config.id from hw, ← WorkspaceTree.get,
      hfresh] at hst
    cases hst
  | receive hev hc hactors =>
    have hrec := Coordinator.handleEvent_recorded h.tree hc
    obtain ⟨n, hn, -⟩ := map_eq_some_iff.mp hst
    rename_i event rest c sent actors
    cases hstatus : event.statusFor w with
    | none =>
      rcases hrec.other w hstatus with hsame | ⟨hfailed, v, before, rfl, hbelow, howner⟩
      · rw [hsame, hst]
      · -- below a failed workspace: `w` is not the root, so it has an actor, which has failed
        have hroot : w ≠ s.coordinator.tree.root := by
          rintro rfl
          exact h.tree.not_below_root v hbelow
        have hmem := ((h.node w).mp ⟨n, hn⟩).resolve_left hroot
        obtain ⟨a, ha, rfl⟩ := mem_map.mp hmem
        obtain ⟨copy, hcopy, hin⟩ := hset a ha
        have hready := hg v before rest hev a ha hbelow howner
        rw [hst] at hcopy
        cases hcopy
        rw [hfailed, ← hin.source_eq hterm, hready.1]
    | some x =>
      have hreport := report_of_statusFor hstatus
      have hmem := h.events event (by rw [hev]; exact mem_cons_self) w x hreport
      obtain ⟨a, ha, rfl⟩ := mem_map.mp hmem
      obtain ⟨copy, hcopy, hin⟩ := hset a ha
      rw [hst] at hcopy
      cases hcopy
      have hflight : s.inFlight a = x :: reported a.state.id (rest ++ a.outbox) := by
        rw [inFlight, hev, cons_append, reported_cons_of_some hstatus]
      rw [hflight] at hin
      rw [hrec.reported _ x hreport n hn, hin.head_eq hterm]

end

/-- **A terminal status in the tree is final**, if every cascade finds the actors below failed with
nothing to report. -/
theorem terminal_status_of_run {rootId : WorkspaceId} {owner : UserId}
    (h : Run Step (Guarded HasFailed) (init rootId owner) s)
    (h' : Run Step (Guarded HasFailed) s s') {w : WorkspaceId} {st : WorkspaceState}
    (hst : s.coordinator.tree.statusOf w = some st) (hterm : st = .closed ∨ st = .failed) :
    s'.coordinator.tree.statusOf w = some st := by
  have hstep : ∀ {x label y}, (x.Sound ∧ x.Settled) → x.Guarded HasFailed label → Step x label y →
      y.Sound ∧ y.Settled := by
    intro x label y hx hg hxy
    have he := effect_of_step hxy
    exact ⟨hx.1.step hg he, hx.2.step hx.1 hg he⟩
  have hfirst : s.Sound ∧ s.Settled := by
    refine h.invariant (fun s => s.Sound ∧ s.Settled) hstep ⟨sound_init, ?_⟩
    intro a ha
    cases ha
  have hfinal : Terminal st := by
    rcases hterm with rfl | rfl <;> rfl
  refine h'.always (fun s => s.Sound ∧ s.Settled)
    (fun s => s.coordinator.tree.statusOf w = some st) hstep ?_ hfirst hst
  intro x label y hx hxst hg hxy
  exact hx.2.statusOf hx.1 hg (effect_of_step hxy) hfinal hxst

theorem terminal_status_of_child_first :
    ∃ s s', Run Step (Guarded HasFailed) (init ⟨"ws-root"⟩ ⟨"system"⟩) s ∧
      Run Step (Guarded HasFailed) s s' ∧
      s.coordinator.tree.statusOf ⟨"ws-1"⟩ = some .failed ∧
      s.coordinator.tree.statusOf ⟨"ws-0"⟩ = some .idle ∧
      s'.coordinator.tree.statusOf ⟨"ws-0"⟩ = some .failed ∧
      s'.coordinator.tree.statusOf ⟨"ws-1"⟩ = some .failed := by
  let check : WorkspaceActor → List WorkspaceState → Bool :=
    fun a queue => decide (a.state.status = .failed) && queue.all fun x => decide (x = .failed)
  have hcheck : ∀ a queue, check a queue → HasFailed a queue := by
    intro a queue h
    obtain ⟨hstatus, hqueue⟩ := Bool.and_eq_true_iff.mp h
    exact ⟨of_decide_eq_true hstatus, fun x hx =>
      of_decide_eq_true (all_eq_true.mp hqueue x hx)⟩
  obtain ⟨s, hs⟩ : ∃ s, (init ⟨"ws-root"⟩ ⟨"system"⟩).takeAll check childFailsFirst = some s :=
    ⟨_, rfl⟩
  obtain ⟨s', hs'⟩ : ∃ s', s.takeAll check [.handleEvent] = some s' := by
    cases hs
    exact ⟨_, rfl⟩
  have hchild : s.coordinator.tree.statusOf ⟨"ws-1"⟩ = some .failed := by
    cases hs
    decide
  have hrun := run_of_takeAll hcheck hs
  have hrun' := run_of_takeAll hcheck hs'
  refine ⟨s, s', hrun, hrun', hchild, ?_, ?_, terminal_status_of_run hrun hrun' hchild (.inr rfl)⟩
  · cases hs
    decide
  · cases hs
    cases hs'
    decide

/-- The parent's failure sets the child to Failed; then it gets its first envelope and is Active. -/
theorem revived_child_run :
    ∃ s s', Run Step (Guarded fun _ _ => True) (init ⟨"ws-root"⟩ ⟨"system"⟩) s ∧
      Run Step (Guarded fun _ _ => True) s s' ∧
      s.coordinator.tree.statusOf ⟨"ws-1"⟩ = some .failed ∧
      s'.coordinator.tree.statusOf ⟨"ws-1"⟩ = some .active := by
  obtain ⟨s, hs⟩ : ∃ s, (init ⟨"ws-root"⟩ ⟨"system"⟩).takeAll (fun _ _ => true) parentFails =
      some s := ⟨_, rfl⟩
  obtain ⟨s', hs'⟩ : ∃ s', s.takeAll (fun _ _ => true)
      [.command ⟨"ws-1"⟩ (.deliverEnvelope sampleEnvelope), .turn 1, .flush 1, .handleEvent] =
        some s' := by
    cases hs
    exact ⟨_, rfl⟩
  refine ⟨s, s', run_of_takeAll (fun _ _ _ => trivial) hs,
    run_of_takeAll (fun _ _ _ => trivial) hs', ?_, ?_⟩
  · cases hs
    decide
  · cases hs
    cases hs'
    decide

end Wacp.System
