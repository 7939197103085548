import Wacp.Analysis.CheckpointPath
import Wacp.Analysis.ReplicaSync

/-!
# One checkpoint, two counters

The runtime numbers all checkpoints with one counter, every actor its own by the length of its
register. The ids agree while the runtime's counter is at each request what the actor will count.
-/

namespace Wacp.CheckpointRuntime

open Library List Option Table

namespace Observed

section Sha

variable {sha256 : List UInt8 → ChainHash} {rt rt' : CheckpointRuntime}
  {jsonText : JsonValue → List UInt8} {o o' : Observed}

/-! ## Requests -/

variable {storage : CheckpointStorage}

theorem get_store_of_some {hash key : ChainHash}
    {payload data : List UInt8} (h : storage.get key = some data) :
    (storage.store hash payload).1.get key = some data := by
  unfold CheckpointStorage.store
  split_ifs with hcontains
  · exact h
  · rw [get_set, if_neg]
    · exact h
    · rintro rfl
      exact hcontains (contains_iff.mpr ⟨data, h⟩)

theorem get_store_self {hash : ChainHash} {payload : List UInt8}
    (h : ∀ data, storage.get hash = some data → data = payload) :
    (storage.store hash payload).1.get hash = some payload := by
  unfold CheckpointStorage.store
  split_ifs with hcontains
  · obtain ⟨data, hdata⟩ := contains_iff.mp hcontains
    rw [hdata, h data hdata]
  · exact get_set_self _

structure Creates (sha256 : List UInt8 → ChainHash) (rt : CheckpointRuntime) (workspaceId : String)
    (request : CreateCheckpointRequest) (rt' : CheckpointRuntime) (served : Served) : Prop where
  checkpointId : served.checkpointId = "cp-" ++ toString rt.nextCheckpointId
  gate : ∀ gate, served.gate = some gate → gate.checkpointId.text = served.checkpointId
  index : rt'.checkpointIndex =
    rt.checkpointIndex.set served.checkpointId (recordOf sha256 workspaceId request)
  storage : rt'.checkpointStorage =
    (rt.checkpointStorage.store (sha256 request.payload) request.payload).1
  next : rt'.nextCheckpointId = rt.nextCheckpointId + 1
  events : rt'.system.events = rt.system.events
  actors : ∀ i : ℕ, rt'.system.actors[i]? =
    if rt.system.coordinator.workspaceHandles.get ⟨workspaceId⟩ = some i then
      (rt.system.actors[i]?).map fun a =>
        if a.stopped then a else { a with agentRx := a.agentRx ++ [messageOf sha256 request] }
    else rt.system.actors[i]?

theorem creates_createCheckpoint (sha256 : List UInt8 → ChainHash) (rt : CheckpointRuntime)
    (workspaceId : String) (request : CreateCheckpointRequest) :
    Creates sha256 rt workspaceId request (rt.createCheckpoint sha256 workspaceId request).1
      (served sha256 rt workspaceId request) := by
  have hid : (served sha256 rt workspaceId request).checkpointId =
      "cp-" ++ toString rt.nextCheckpointId := by
    unfold served createCheckpoint
    dsimp only
    split <;> rfl
  refine ⟨hid, ?_, ?_, ?_, ?_, ?_, ?_⟩
  · intro gate hgate
    rw [hid]
    unfold served createCheckpoint at hgate
    dsimp only at hgate
    split at hgate
    · have hopened : rt.gateController.checkpointGate ⟨workspaceId⟩
          ⟨"cp-" ++ toString rt.nextCheckpointId⟩ request.checkpointType none none = gate := by
        unfold GateController.openCheckpointGate at hgate
        dsimp only [bind_some] at hgate
        rw [get_set_self] at hgate
        exact Option.some.inj hgate
      rw [← hopened]
      rfl
    · cases hgate
  · rw [hid]
    unfold createCheckpoint
    dsimp only
    split <;> rfl
  · unfold createCheckpoint
    dsimp only
    split <;> rfl
  · unfold createCheckpoint
    dsimp only
    split <;> rfl
  · unfold createCheckpoint
    cases rt.system.coordinator.workspaceHandles.get ⟨workspaceId⟩ <;> dsimp only <;>
      split <;> rfl
  · intro i
    unfold createCheckpoint
    cases rt.system.coordinator.workspaceHandles.get ⟨workspaceId⟩ with
    | none => simp only [reduceCtorEq, if_false]; split <;> rfl
    | some =>
      simp only [Option.some.injEq]
      split <;> exact getElem?_modify_eq

theorem creations_concat (messages : List AgentMessage) (msg : AgentMessage) :
    creations (messages ++ [msg]) =
      creations messages ++ if msg.creates then [msg] else [] := by
  unfold creations
  rw [filter_append]
  cases hmsg : msg.creates <;> simp [hmsg]

variable {workspaceId : String} {request : CreateCheckpointRequest} {served : Served}

theorem Consistent.grows (h : o.Consistent sha256 jsonText)
    (hc : Creates sha256 o.runtime workspaceId request rt' served) : Grows o.runtime rt' where
  index := by
    intro id record hget
    obtain ⟨k, hk, rfl⟩ := h.named id record hget
    rw [hc.index, get_set, if_neg]
    · exact hget
    · rw [hc.checkpointId]
      intro heq
      have hkn := numbered_injective "cp-" heq
      omega
  storage := by
    intro hash data hget
    rw [hc.storage]
    exact get_store_of_some hget

theorem Creates.backed (hc : Creates sha256 rt workspaceId request rt' served)
    (hblob : ∀ data, rt.checkpointStorage.get (sha256 request.payload) = some data →
      data = request.payload) :
    Backed sha256 rt' served request.checkpointType request.payload
      (sha256 request.payload).display request.intent where
  record := by
    refine ⟨recordOf sha256 workspaceId request, ?_, rfl, rfl, rfl⟩
    rw [hc.index, get_set_self]
  blob := by
    rw [hc.storage]
    exact get_store_self hblob
  hash := rfl
  gate := hc.gate

theorem Creates.exists_actor (hc : Creates sha256 rt workspaceId request rt' served)
    {b : WorkspaceActor} (hb : b ∈ rt'.system.actors) :
    ∃ a ∈ rt.system.actors, b.state = a.state ∧ b.outbox = a.outbox := by
  obtain ⟨i, hi⟩ := mem_iff_getElem?.mp hb
  rw [hc.actors i] at hi
  split_ifs at hi
  · obtain ⟨a, ha, rfl⟩ := map_eq_some_iff.mp hi
    refine ⟨a, mem_of_getElem? ha, ?_⟩
    split_ifs
    · exact ⟨rfl, rfl⟩
    · exact ⟨rfl, rfl⟩
  · exact ⟨b, mem_of_getElem? hi, rfl, rfl⟩

theorem Consistent.queued_create (h : o.Consistent sha256 jsonText) {new : Served}
    (hc : Creates sha256 o.runtime workspaceId request rt' new)
    (hbacked : Backed sha256 rt' new request.checkpointType request.payload
      (sha256 request.payload).display request.intent)
    (hcounter : ∀ i a,
      o.runtime.system.coordinator.workspaceHandles.get ⟨workspaceId⟩ = some i →
      o.runtime.system.actors[i]? = some a → a.stopped = false →
      o.runtime.nextCheckpointId =
        a.state.checkpointRegister.length + (creations a.agentRx).length)
    {i : ℕ} {b : WorkspaceActor} (hb : rt'.system.actors[i]? = some b) :
    Numbered (Promised sha256 rt') b.state.checkpointRegister.length
      (if o.runtime.system.coordinator.workspaceHandles.get ⟨workspaceId⟩ = some i ∧
          (o.runtime.system.actors[i]?).any (fun a => !a.stopped) then o.waiting i ++ [new]
        else o.waiting i)
      (creations b.agentRx) := by
  have hold : ∀ a, o.runtime.system.actors[i]? = some a →
      Numbered (Promised sha256 rt') a.state.checkpointRegister.length (o.waiting i)
        (creations a.agentRx) := fun a ha =>
    (h.queued i a ha).imp (Promised.mono (h.grows hc))
  rw [hc.actors i] at hb
  by_cases hhandle : o.runtime.system.coordinator.workspaceHandles.get ⟨workspaceId⟩ = some i
  · rw [if_pos hhandle] at hb
    obtain ⟨a, ha, rfl⟩ := map_eq_some_iff.mp hb
    by_cases hstopped : a.stopped
    · rw [if_pos hstopped, if_neg (by simp [ha, hstopped])]
      exact hold a ha
    · have hnumber := hcounter i a hhandle ha (by simpa using hstopped)
      rw [if_neg hstopped, if_pos ⟨hhandle, by simp [ha, hstopped]⟩]
      rw [creations_concat]
      refine (hold a ha).concat ⟨?_, hbacked⟩
      rw [hc.checkpointId, hnumber]
  · rw [if_neg hhandle] at hb
    rw [if_neg fun hcond => hhandle hcond.1]
    exact hold b hb

theorem Consistent.create (h : o.Consistent sha256 jsonText)
    (hok : o.Agreeing sha256 (.createCheckpoint workspaceId request)) :
    Consistent sha256 jsonText (o.observe sha256 (.createCheckpoint workspaceId request)
      (o.runtime.createCheckpoint sha256 workspaceId request).1) := by
  have hc := creates_createCheckpoint sha256 o.runtime workspaceId request
  unfold Agreeing agreeing at hok
  rw [Bool.and_eq_true] at hok
  obtain ⟨hblob, hcounter⟩ := hok
  unfold observe
  dsimp only
  generalize (o.runtime.createCheckpoint sha256 workspaceId request).1 = rt' at hc ⊢
  generalize served sha256 o.runtime workspaceId request = new at hc ⊢
  have hbacked := hc.backed fun data hdata => by simpa [hdata] using hblob
  refine ⟨?_, ?_, fun p hp => (h.kept p hp).mono (h.grows hc), ?_, ?_, ?_, h.recorded, ?_⟩
  · intro i b hb
    refine h.queued_create hc hbacked ?_ hb
    intro j a hhandle ha hrunning
    simpa [hhandle, ha, hrunning] using hcounter
  · intro i hi
    have hi := (hc.actors i).symm.trans hi
    have hnone : o.runtime.system.actors[i]? = none := by
      split_ifs at hi
      · exact map_eq_none_iff.mp hi
      · exact hi
    dsimp only
    rw [hnone, if_neg (by simp)]
    exact h.fresh i hnone
  · intro b hb cp hcp
    obtain ⟨a, ha, hstate, -⟩ := hc.exists_actor hb
    rw [hstate] at hcp
    exact h.registered a ha cp hcp
  · intro b hb cp hcp
    obtain ⟨a, ha, -, hout⟩ := hc.exists_actor hb
    rw [hout] at hcp
    exact h.outbox a ha cp hcp
  · intro cp hcp
    have hcp : cp ∈ created rt'.system.events := hcp
    rw [hc.events] at hcp
    exact h.events cp hcp
  · intro id record hget
    have hget : rt'.checkpointIndex.get id = some record := hget
    rw [hc.next]
    rw [hc.index, get_set] at hget
    split_ifs at hget with hid
    · exact ⟨o.runtime.nextCheckpointId, by omega, hid.trans hc.checkpointId⟩
    · obtain ⟨k, hk, rfl⟩ := h.named id record hget
      exact ⟨k, by omega, rfl⟩

/-! ## Events and the other steps -/

theorem emitted_fanOutEvent {jsonText : JsonValue → List UInt8} {r : EventTrail}
    {event : WorkspaceEvent} :
    ∃ entry, (r.fanOutEvent jsonText event).emitted = r.emitted ++ [entry] ∧
      entry.eventType = (eventHeader event).2 ∧
      entry.body = ((eventBody event).map jsonText).getD [] := by
  have hindex : (r.indexEscalation event).emitted = r.emitted := by
    unfold EventTrail.indexEscalation
    split
    · split <;> rfl
    · rfl
  unfold EventTrail.fanOutEvent
  rw [EventTrail.emitTrailEntry_eq]
  exact ⟨_, by rw [hindex], rfl, rfl⟩

variable {event : WorkspaceEvent}

theorem records_of_event {r : EventTrail} {p : Checkpoint × TrailEntry}
    (hp : p ∈ (created [event]).zip ((r.fanOutEvent jsonText event).emitted.drop r.emitted.length))
    : p.1 ∈ created [event] ∧ Records jsonText p := by
  obtain ⟨entry, hemitted, -, hbody⟩ := emitted_fanOutEvent
  rw [hemitted, drop_left] at hp
  cases event with
  | checkpointCreated =>
    cases mem_singleton.mp hp
    exact ⟨mem_singleton.mpr rfl, _, rfl, rfl, hbody⟩
  | _ => cases hp

section

variable (h : o.Consistent sha256 jsonText)
include h

theorem Consistent.inside {s' : System} {gates : GateController}
    (hactors : List.Forall₂ Still o.runtime.system.actors s'.actors) (hevents : ∀ cp ∈ created
      s'.events, cp ∈ created o.runtime.system.events ∨ ∃ a ∈ o.runtime.system.actors, cp ∈ created
      a.outbox) :
    Consistent sha256 jsonText { o with runtime :=
      { o.runtime with system := s', gateController := gates } } :=
  h.still (grows_of_eq rfl rfl) rfl rfl hactors hevents rfl rfl fun _ hp => .inl hp

theorem Consistent.respondToGate (request : GateResponse) :
    Consistent sha256 jsonText { o with runtime := (o.runtime.respondToGate request).1 } := by
  have hrefl : List.Forall₂ Still o.runtime.system.actors o.runtime.system.actors :=
    forall₂_same.mpr fun a _ => Still.refl a
  unfold CheckpointRuntime.respondToGate
  dsimp only
  split
  · exact h.inside hrefl fun _ hcp => .inl hcp
  · split
    · exact h.inside hrefl fun _ hcp => .inl hcp
    · exact h.inside ((System.quiet_send _ _).imp fun _ _ => still_of_quiet) fun _ hcp => .inl hcp

variable {rest : List WorkspaceEvent}

theorem Consistent.flush {i : ℕ} {a : WorkspaceActor}
    (ha : o.runtime.system.actors[i]? = some a) (hout : a.outbox = event :: rest) :
    Consistent sha256 jsonText { o with runtime := { o.runtime with
      system := { o.runtime.system with
        actors := o.runtime.system.actors.set i { a with outbox := rest }
        events := o.runtime.system.events ++ [event] } } } := by
  have houtbox : created a.outbox = created [event] ++ created rest := by
    rw [hout, ← created_append, singleton_append]
  apply h.inside
  · refine forall₂_set Still.refl ha ⟨rfl, rfl, fun cp hcp => ?_⟩
    rw [houtbox]
    exact mem_append_right _ hcp
  · intro cp hcp
    rw [created_append] at hcp
    rcases mem_append.mp hcp with hold | hnew
    · exact .inl hold
    · refine .inr ⟨a, mem_of_getElem? ha, ?_⟩
      rw [houtbox]
      exact mem_append_left _ hnew

theorem Consistent.handleEvent {c : Coordinator}
    {actors : List WorkspaceActor} (hev : o.runtime.system.events = event :: rest)
    (hactors : List.Forall₂ WorkspaceActor.Quiet o.runtime.system.actors actors) :
    Consistent sha256 jsonText (o.observe sha256 (.system .handleEvent) { o.runtime with
      system := { coordinator := c, actors := actors, events := rest }
      trail := o.runtime.trail.fanOutEvent jsonText event }) := by
  have hcreated : created o.runtime.system.events = created [event] ++ created rest := by
    rw [hev, ← created_append, singleton_append]
  refine h.still (grows_of_eq rfl rfl) rfl rfl (hactors.imp fun _ _ => still_of_quiet) ?_ rfl rfl ?_
  · intro cp hcp
    left
    rw [hcreated]
    exact mem_append_right _ hcp
  · intro p hp
    unfold observe at hp
    rw [hev] at hp
    rcases mem_append.mp hp with hold | hnew
    · exact .inl hold
    · obtain ⟨hmem, hrecords⟩ := records_of_event hnew
      refine .inr ⟨?_, hrecords⟩
      rw [hcreated]
      exact mem_append_left _ hmem

end

/-- A step of the system changes the runtime only if an event is taken and recorded. -/
inductive Advances (jsonText : JsonValue → List UInt8) (rt : CheckpointRuntime) :
    System.Label → CheckpointRuntime → Prop where
  | inside {label : System.Label} {s' : System} (hlabel : label ≠ .handleEvent)
      (hmsg : ∀ i msg, label = .agent i msg → msg.creates = false)
      (hmoves : System.Moves rt.system label s') :
      Advances jsonText rt label { rt with system := s' }
  | event {event : WorkspaceEvent} {rest : List WorkspaceEvent} {c : Coordinator}
      {actors : List WorkspaceActor} (hev : rt.system.events = event :: rest)
      (hactors : List.Forall₂ WorkspaceActor.Quiet rt.system.actors actors) :
      Advances jsonText rt .handleEvent { rt with
        system := { coordinator := c, actors := actors, events := rest }
        trail := rt.trail.fanOutEvent jsonText event }

variable {label : System.Label}

theorem advances_of_apply (h : rt.apply sha256 jsonText (.system label) = some rt') :
    Advances jsonText rt label rt' := by
  cases label with
  | handleEvent =>
    unfold CheckpointRuntime.apply at h
    dsimp only at h
    split at h
    · cases h
    · next event rest hev =>
        obtain ⟨s', hs', rfl⟩ := map_eq_some_iff.mp h
        cases System.moves_of_step hs' with
        | send hlabel => cases hlabel
        | receive hev' hc hactors =>
          cases hev.symm.trans hev'
          exact .event hev hactors
  | agent i msg =>
    cases msg with
    | createCheckpoint => cases h
    | emitSignal =>
      cases h
      refine .inside nofun ?_ (System.moves_of_step rfl)
      rintro i' msg' ⟨⟩
      rfl
  | dispatch | command =>
    cases h
    exact .inside nofun nofun (System.moves_of_step rfl)
  | _ =>
    obtain ⟨s', hs', rfl⟩ := map_eq_some_iff.mp h
    exact .inside nofun nofun (System.moves_of_step hs')

theorem observe_of_sends (h : label.sends) :
    o.observe sha256 (.system label) rt = { o with runtime := rt } := by
  cases label with
  | turn | handleEvent => cases h
  | _ => rfl

theorem Consistent.system (h : o.Consistent sha256 jsonText)
    (hok : o.Agreeing sha256 (.system label))
    (hstep : o.runtime.apply sha256 jsonText (.system label) = some rt') :
    Consistent sha256 jsonText (o.observe sha256 (.system label) rt') := by
  cases advances_of_apply hstep with
  | event hev hactors => exact h.handleEvent hev hactors
  | inside hlabel hmsg hmoves =>
    cases hmoves with
    | send hsends _ _ hactors =>
      rw [observe_of_sends hsends]
      exact h.inside (hactors.imp fun _ _ => still_of_quiet) fun _ hcp => .inl hcp
    | agent i msg =>
      refine h.inside (forall₂_modify Still.refl (fun a => ?_) _ i) fun _ hcp => .inl hcp
      split_ifs
      · exact Still.refl a
      · refine ⟨rfl, ?_, fun _ hcp => hcp⟩
        rw [creations_concat, hmsg i msg rfl]
        exact append_nil _
    | turn ha hrun hout hturn =>
      unfold observe
      simp only [ha]
      exact h.turn ha hturn hok
    | flush ha hout => exact h.flush ha hout
    | hangUp ha =>
      exact h.inside (forall₂_set Still.refl ha ⟨rfl, rfl, fun _ hcp => hcp⟩) fun _ hcp => .inl hcp
    | dispatch request => exact h.dispatch request
    | receive => exact absurd rfl hlabel

theorem Consistent.step {label : Label} (h : o.Consistent sha256 jsonText)
    (hok : o.Agreeing sha256 label) (hstep : o.apply sha256 jsonText label = some o') :
    o'.Consistent sha256 jsonText := by
  obtain ⟨rt', hrt', rfl⟩ := map_eq_some_iff.mp hstep
  cases label with
  | system => exact h.system hok hrt'
  | createCheckpoint =>
    cases hrt'
    exact h.create hok
  | respondToGate request =>
    cases hrt'
    exact h.respondToGate request

theorem consistent_start {rootId : WorkspaceId} {owner : UserId}
    {trail : EventTrail} : Consistent sha256 jsonText (start rootId owner storage trail) where
  queued := by
    intro i a ha
    cases ha
  fresh := fun _ _ => rfl
  kept := by
    intro p hp
    cases hp
  registered := by
    intro a ha
    cases ha
  outbox := by
    intro a ha
    cases ha
  events := by
    intro cp hcp
    cases hcp
  recorded := by
    intro p hp
    cases hp
  named := by
    intro id record hget
    cases hget

/-- The record has every trail entry since the start for a created checkpoint. -/
def Traced (n : ℕ) (o : Observed) : Prop :=
  n ≤ o.runtime.trail.emitted.length ∧
    ∀ entry ∈ o.runtime.trail.emitted.drop n, entry.eventType = "checkpoint_created" →
      ∃ cp, (cp, entry) ∈ o.recorded

theorem created_of_eventType (h : (eventHeader event).2 = "checkpoint_created") :
    ∃ cp, created [event] = [cp] := by
  cases event with
  | checkpointCreated cp => exact ⟨cp, rfl⟩
  | _ => simp [eventHeader] at h

theorem trail_apply {label : Label} (hne : label ≠ .system .handleEvent)
    (h : o.apply sha256 jsonText label = some o') :
    o'.runtime.trail = o.runtime.trail ∧ o'.recorded = o.recorded := by
  obtain ⟨rt', hrt', rfl⟩ := map_eq_some_iff.mp h
  cases label with
  | createCheckpoint workspaceId request =>
    cases hrt'
    refine ⟨?_, rfl⟩
    unfold createCheckpoint
    dsimp only
    split <;> rfl
  | respondToGate request =>
    cases hrt'
    refine ⟨?_, rfl⟩
    unfold CheckpointRuntime.respondToGate
    dsimp only
    split
    · rfl
    · split <;> rfl
  | system =>
    cases advances_of_apply hrt' with
    | event => exact absurd rfl hne
    | inside hlabel =>
      unfold observe
      split
      · next heq => cases heq
      · split <;> exact ⟨rfl, rfl⟩
      · next heq =>
          cases heq
          exact absurd rfl hlabel
      · exact ⟨rfl, rfl⟩

theorem Traced.step {n : ℕ} (h : o.Traced n) {label : Label}
    (hstep : o.apply sha256 jsonText label = some o') : o'.Traced n := by
  by_cases hne : label = .system .handleEvent
  · subst hne
    obtain ⟨rt', hrt', rfl⟩ := map_eq_some_iff.mp hstep
    cases advances_of_apply hrt' with
    | inside hlabel => exact absurd rfl hlabel
    | @event event rest c actors hev hactors =>
      obtain ⟨entry, hemitted, htype, -⟩ :=
        emitted_fanOutEvent
      unfold observe Traced
      rw [hev, hemitted, drop_left, length_append]
      refine ⟨by have := h.1; omega, ?_⟩
      intro entry' hentry' htype'
      rw [drop_append_of_le_length h.1] at hentry'
      rcases mem_append.mp hentry' with hold | hnew
      · obtain ⟨cp, hcp⟩ := h.2 entry' hold htype'
        exact ⟨cp, mem_append_left _ hcp⟩
      · rw [mem_singleton.mp hnew] at htype' ⊢
        obtain ⟨cp, hcp⟩ := created_of_eventType (htype.symm.trans htype')
        refine ⟨cp, mem_append_right _ ?_⟩
        show (cp, entry) ∈ (created [event]).zip [entry]
        rw [hcp]
        exact mem_singleton.mpr rfl
  · obtain ⟨htrail, hrecorded⟩ := trail_apply hne hstep
    unfold Traced
    rw [htrail, hrecorded]
    exact h

end Sha

/-! ## Whole runs -/

/-- A stored checkpoint has one id, under which `GetCheckpoint` finds its payload. -/
structure OneId (sha256 : List UInt8 → ChainHash) (o : Observed) (served : Served)
    (cp : Checkpoint) : Prop where
  stored : (served, cp) ∈ o.stored
  returned : cp.id.text = served.checkpointId
  indexed : ∃ record, o.runtime.checkpointIndex.get served.checkpointId = some record ∧
    record.contentHash = sha256 cp.payload
  gate : ∀ gate, served.gate = some gate → gate.checkpointId.text = served.checkpointId
  found : ∃ view, o.runtime.getCheckpoint sha256 cp.id.text = .ok view ∧
    view.payload = cp.payload

theorem Consistent.oneId {sha256 : List UInt8 → ChainHash} {jsonText : JsonValue → List UInt8}
    {o : Observed} (h : o.Consistent sha256 jsonText) {cp : Checkpoint} (hcp : o.Requested cp) :
    ∃ served, OneId sha256 o served cp := by
  obtain ⟨served, hmem⟩ := hcp
  have hkept := h.kept _ hmem
  obtain ⟨record, hget, hhash, -⟩ := hkept.2.record
  obtain ⟨view, hview, hpayload, -⟩ := hkept.getCheckpoint
  exact ⟨served, hmem, hkept.1, ⟨record, hget, hhash⟩, hkept.2.gate, view, hview, hpayload⟩

/-- **One id for every checkpoint**, if requests find the runtime's counter where their actor will
count. -/
theorem oneId_of_run (sha256 : List UInt8 → ChainHash) (jsonText : JsonValue → List UInt8)
    {rootId : WorkspaceId} {owner : UserId} {storage : CheckpointStorage} {trail : EventTrail}
    {o : Observed}
    (hrun : Run (fun o label o' => o.apply sha256 jsonText label = some o') (Agreeing sha256)
      (start rootId owner storage trail) o) :
    (∀ a ∈ o.runtime.system.actors, ∀ cp ∈ a.state.checkpointRegister,
      ∃ served, OneId sha256 o served cp) ∧
    ∀ entry ∈ o.runtime.trail.emitted.drop trail.emitted.length,
      entry.eventType = "checkpoint_created" →
        ∃ cp served, (cp, entry) ∈ o.recorded ∧ Records jsonText (cp, entry) ∧
          OneId sha256 o served cp := by
  have hcons : o.Consistent sha256 jsonText :=
    hrun.invariant (Consistent sha256 jsonText) Consistent.step
      consistent_start
  have htraced : o.Traced trail.emitted.length := by
    refine hrun.invariant (Traced trail.emitted.length) (fun h _ hstep => h.step hstep)
      ⟨le_refl _, ?_⟩
    intro entry hentry
    have hentry : entry ∈ trail.emitted.drop trail.emitted.length := hentry
    rw [drop_length] at hentry
    cases hentry
  refine ⟨fun a ha cp hcp => hcons.oneId (hcons.registered a ha cp hcp), ?_⟩
  intro entry hentry htype
  obtain ⟨cp, hcp⟩ := htraced.2 entry hentry htype
  obtain ⟨hrequested, hrecords⟩ := hcons.recorded _ hcp
  obtain ⟨served, hone⟩ := hcons.oneId hrequested
  exact ⟨cp, served, hcp, hrecords, hone⟩

/-! ## Two drafts -/

def sampleSha256 (payload : List UInt8) : ChainHash :=
  if payload = [1] then
    ⟨[0x4b, 0xf5, 0x12, 0x2f, 0x34, 0x45, 0x54, 0xc5, 0x3b, 0xde, 0x2e, 0xbb, 0x8c, 0xd2, 0xb7,
      0xe3, 0xd1, 0x60, 0x0a, 0xd6, 0x31, 0xc3, 0x85, 0xa5, 0xd7, 0xcc, 0xe2, 0x3c, 0x77, 0x85,
      0x45, 0x9a], rfl⟩
  else if payload = [2] then
    ⟨[0xdb, 0xc1, 0xb4, 0xc9, 0x00, 0xff, 0xe4, 0x8d, 0x57, 0x5b, 0x5d, 0xa5, 0xc6, 0x38, 0x04,
      0x01, 0x25, 0xf6, 0x5d, 0xb0, 0xfe, 0x3e, 0x24, 0x49, 0x4b, 0x76, 0xea, 0x98, 0x64, 0x57,
      0xd9, 0x86], rfl⟩
  else .genesis

def scalarText : JsonValue → String
  | .null => "null"
  | .posInt n => toString n.toNat
  | .string text => "\"" ++ text ++ "\""
  | _ => ""

def bodyText : JsonValue → List UInt8
  | .object fields => ("\x7b" ++ ",".intercalate (fields.map fun field =>
    "\"" ++ field.1 ++ "\":" ++ scalarText field.2) ++ "\x7d").toUTF8.data.toList
  | value => (scalarText value).toUTF8.data.toList

def draft (byte : UInt8) : CreateCheckpointRequest :=
  { checkpointType := "artifact", payload := [byte], intent := "draft", status := 1
    confidence := 1, resourceUsage := none, clientRequestId := "" }

/-- A turn that takes a draft, and its three events. -/
def takesDraft (i : ℕ) : List Label :=
  [.system (.turn i), .system (.flush i), .system (.flush i), .system (.flush i),
    .system .handleEvent, .system .handleEvent, .system .handleEvent]

def sampleStart : Observed :=
  start ⟨"ws-root"⟩ ⟨"alice"⟩ ∅
    { trailIndex := ∅, escalationIndex := ∅, streamSeq := 0, emitted := [] }

/-- Ids that were returned with those stored under, and those in the trail. -/
structure Ids where
  stored : List (String × String × List UInt8)
  recorded : List (String × List UInt8)
  deriving DecidableEq

def ids (o : Observed) : Ids :=
  { stored := o.stored.map fun p => (p.1.checkpointId, p.2.id.text, p.2.payload)
    recorded := o.recorded.map fun p => (p.1.id.text, p.1.payload) }

theorem oneId_one_workspace : ∃ o : Observed,
    Run (fun o label o' => o.apply sampleSha256 bodyText label = some o') (Agreeing sampleSha256)
      sampleStart o ∧
    o.ids = ⟨[("cp-0", "cp-0", [1]), ("cp-1", "cp-1", [2])], [("cp-0", [1]), ("cp-1", [2])]⟩ ∧
    (∀ a ∈ o.runtime.system.actors, ∀ cp ∈ a.state.checkpointRegister,
      ∃ served, OneId sampleSha256 o served cp) ∧
    ∀ entry ∈ o.runtime.trail.emitted, entry.eventType = "checkpoint_created" →
      ∃ cp served, (cp, entry) ∈ o.recorded ∧ Records bodyText (cp, entry) ∧
        OneId sampleSha256 o served cp := by
  have heval : (((.system (.dispatch (System.sampleRequest "ws-0" "ws-root")) ::
      .createCheckpoint "ws-0" (draft 1) :: .createCheckpoint "ws-0" (draft 2) ::
      (takesDraft 0 ++ takesDraft 0)).foldlM (fun o label =>
        if agreeing sampleSha256 o label then Observed.apply sampleSha256 bodyText o label
        else none) sampleStart).map ids) =
      some ⟨[("cp-0", "cp-0", [1]), ("cp-1", "cp-1", [2])],
        [("cp-0", [1]), ("cp-1", [2])]⟩ := by
    decide
  obtain ⟨o, ho, hids⟩ := map_eq_some_iff.mp heval
  have hrun := Run.of_checked (agreeing sampleSha256) (fun _ _ _ h => h) ho
  exact ⟨o, hrun, hids, oneId_of_run sampleSha256 bodyText hrun⟩

/-- **Two workspaces share an id**, under which `GetCheckpoint` finds the payload of the other one.
-/
theorem shared_id_two_workspaces : ∃ o : Observed,
    Run (fun o label o' => o.apply sampleSha256 bodyText label = some o') anyStep sampleStart o ∧
    o.ids = ⟨[("cp-0", "cp-0", [1]), ("cp-1", "cp-0", [2])], [("cp-0", [1]), ("cp-0", [2])]⟩ ∧
    ∃ view, o.runtime.getCheckpoint sampleSha256 "cp-0" = .ok view ∧ view.payload = [1] := by
  have heval : (((.system (.dispatch (System.sampleRequest "ws-0" "ws-root")) ::
      .system (.dispatch (System.sampleRequest "ws-1" "ws-root")) ::
      .createCheckpoint "ws-0" (draft 1) :: .createCheckpoint "ws-1" (draft 2) ::
      (takesDraft 0 ++ takesDraft 1)).foldlM
        (Observed.apply sampleSha256 bodyText) sampleStart).map fun o =>
        (o.ids, (o.runtime.getCheckpoint sampleSha256 "cp-0").toOption.map (·.payload))) =
      some (⟨[("cp-0", "cp-0", [1]), ("cp-1", "cp-0", [2])],
        [("cp-0", [1]), ("cp-0", [2])]⟩, some [1]) := by
    decide
  obtain ⟨o, ho, heq⟩ := map_eq_some_iff.mp heval
  obtain ⟨hids, hget⟩ := Prod.mk.inj heq
  refine ⟨o, Run.of_ops ho, hids, ?_⟩
  obtain ⟨view, hview, hpayload⟩ := map_eq_some_iff.mp hget
  refine ⟨view, ?_, hpayload⟩
  cases hanswer : o.runtime.getCheckpoint sampleSha256 "cp-0" with
  | error =>
    rw [hanswer] at hview
    cases hview
  | ok =>
    rw [hanswer] at hview
    cases hview
    rfl

end Observed

end Wacp.CheckpointRuntime
