import Wacp.Analysis.CheckpointRegister
import Wacp.Analysis.SystemSteps
import Wacp.Analysis.TrailIndexing
import Wacp.Model.CheckpointService

/-!
# The way of a checkpoint

Every served request is followed through the actor's channel to the register, and every announcement
from there to the trail.
-/

namespace Wacp

open Library List WorkspaceActor Function

def AgentMessage.creates : AgentMessage → Bool
  | .createCheckpoint _ _ _ _ _ _ _ => true
  | .emitSignal _ _ _ => false

def creations (messages : List AgentMessage) : List AgentMessage :=
  messages.filter AgentMessage.creates

namespace CheckpointRuntime

/-! ## Following the requests -/

structure Served where
  checkpointId : String
  gate : Option PendingCheckpointGate

/-- The runtime with the requests whose messages still wait, the checkpoints stored for requests,
and the trail entries for checkpoints. -/
structure Observed where
  runtime : CheckpointRuntime
  waiting : ℕ → List Served
  stored : List (Served × Checkpoint)
  recorded : List (Checkpoint × TrailEntry)

namespace Observed

def start (rootId : WorkspaceId) (owner : UserId) (storage : CheckpointStorage)
    (trail : EventTrail) : Observed :=
  { runtime := .start rootId owner storage trail, waiting := fun _ => [], stored := []
    recorded := [] }

section Sha

variable (sha256 : List UInt8 → ChainHash)

/-- The id in the response and the gate pending under the id of the event. -/
def served (rt : CheckpointRuntime) (workspaceId : String) (request : CreateCheckpointRequest) :
    Served :=
  let result := rt.createCheckpoint sha256 workspaceId request
  { checkpointId := result.2.1.checkpointId
    gate := result.2.2.bind fun event => result.1.gateController.pendingCheckpoints.get event.gateId }

def afterTurn (a : WorkspaceActor) (waiting : List Served) : List Served :=
  if a.state.status.isTerminal then []
  else
    match a.coordinatorRx, a.agentRx with
    | [], msg :: _ => if msg.creates then waiting.tail else waiting
    | _, _ => waiting

def observe (o : Observed) (label : Label) (rt : CheckpointRuntime) : Observed :=
  match label with
  | .createCheckpoint workspaceId request =>
    { o with
      runtime := rt
      waiting := fun i =>
        if o.runtime.system.coordinator.workspaceHandles.get ⟨workspaceId⟩ = some i ∧
            (o.runtime.system.actors[i]?).any (fun a => !a.stopped) then
          o.waiting i ++ [served sha256 o.runtime workspaceId request]
        else o.waiting i }
  | .system (.turn i) =>
    match o.runtime.system.actors[i]? with
    | none => { o with runtime := rt }
    | some a =>
      { o with
        runtime := rt
        waiting := update o.waiting i (afterTurn a (o.waiting i))
        stored := o.stored ++ ((o.waiting i).take 1).zip a.newCheckpoints }
  | .system .handleEvent =>
    { o with
      runtime := rt
      recorded := o.recorded ++ (created (o.runtime.system.events.take 1)).zip
        (rt.trail.emitted.drop o.runtime.trail.emitted.length) }
  | _ => { o with runtime := rt }

def apply (jsonText : JsonValue → List UInt8) (o : Observed) (label : Label) : Option Observed :=
  (o.runtime.apply sha256 jsonText label).map (o.observe sha256 label)

/-- A request finds the runtime's counter at the number of checkpoints its actor has or will have,
and no other payload under its hash; a migration drops no request that another waits behind. -/
def agreeing (o : Observed) : Label → Bool
  | .createCheckpoint workspaceId request =>
    ((o.runtime.checkpointStorage.get (sha256 request.payload)).all fun data =>
      decide (data = request.payload)) &&
    ((o.runtime.system.coordinator.workspaceHandles.get ⟨workspaceId⟩).all fun i =>
      (o.runtime.system.actors[i]?).all fun a => a.stopped ||
        decide (o.runtime.nextCheckpointId =
          a.state.checkpointRegister.length + (creations a.agentRx).length))
  | .system (.turn i) =>
    (o.runtime.system.actors[i]?).all fun a =>
      match a.state.status, a.coordinatorRx, a.agentRx with
      | .migrating, [], msg :: rest => !msg.creates || (creations rest).isEmpty
      | _, _, _ => true
  | _ => true

def Agreeing (o : Observed) (label : Label) : Prop := o.agreeing sha256 label

/-! ## What the index and the store know of a request -/

structure Backed (rt : CheckpointRuntime) (served : Served) (checkpointType : String)
    (payload : List UInt8) (contentHash intent : String) : Prop where
  record : ∃ record, rt.checkpointIndex.get served.checkpointId = some record ∧
    record.contentHash = sha256 payload ∧ record.checkpointType = checkpointType ∧
    record.intent = intent
  blob : rt.checkpointStorage.get (sha256 payload) = some payload
  hash : contentHash = (sha256 payload).display
  gate : ∀ gate, served.gate = some gate → gate.checkpointId.text = served.checkpointId

/-- A message in the channel, and the number its checkpoint will get. -/
def Promised (rt : CheckpointRuntime) (number : ℕ) (served : Served) : AgentMessage → Prop
  | .createCheckpoint checkpointType payload contentHash intent _ _ _ =>
    served.checkpointId = "cp-" ++ toString number ∧
      Backed sha256 rt served checkpointType payload contentHash intent
  | .emitSignal _ _ _ => False

def Kept (rt : CheckpointRuntime) (p : Served × Checkpoint) : Prop :=
  p.2.id.text = p.1.checkpointId ∧
    Backed sha256 rt p.1 p.2.checkpointType p.2.payload p.2.contentHash p.2.intent

structure Grows (rt rt' : CheckpointRuntime) : Prop where
  index : ∀ id record, rt.checkpointIndex.get id = some record →
    rt'.checkpointIndex.get id = some record
  storage : ∀ hash data, rt.checkpointStorage.get hash = some data →
    rt'.checkpointStorage.get hash = some data

variable {sha256} {rt rt' : CheckpointRuntime} {checkpointType contentHash intent : String}

theorem Backed.mono (hgrow : Grows rt rt') {served : Served} {payload : List UInt8}
    (h : Backed sha256 rt served checkpointType payload contentHash intent) :
    Backed sha256 rt' served checkpointType payload contentHash intent := by
  obtain ⟨record, hget, hrecord⟩ := h.record
  exact ⟨⟨record, hgrow.index _ _ hget, hrecord⟩, hgrow.storage _ _ h.blob, h.hash, h.gate⟩

theorem Promised.mono (hgrow : Grows rt rt') (number : ℕ) (served : Served) (msg : AgentMessage)
    (h : Promised sha256 rt number served msg) : Promised sha256 rt' number served msg := by
  cases msg with
  | emitSignal => exact h
  | createCheckpoint =>
    exact ⟨h.1, h.2.mono hgrow⟩

variable {p : Served × Checkpoint}

theorem Kept.mono (hgrow : Grows rt rt') (h : Kept sha256 rt p) : Kept sha256 rt' p :=
  ⟨h.1, h.2.mono hgrow⟩

theorem Kept.getCheckpoint (h : Kept sha256 rt p) :
    ∃ view, rt.getCheckpoint sha256 p.2.id.text = .ok view ∧ view.payload = p.2.payload ∧
      view.contentHash = p.2.contentHash ∧ view.checkpointType = p.2.checkpointType ∧
      view.intent = p.2.intent := by
  obtain ⟨record, hget, hhash, htype, hintent⟩ := h.2.record
  have hread : CheckpointStorage.read sha256 rt.checkpointStorage record.contentHash =
      .ok (some p.2.payload) := by
    unfold CheckpointStorage.read
    rw [hhash, h.2.blob]
    exact if_neg (fun hne => hne rfl)
  unfold CheckpointRuntime.getCheckpoint
  rw [h.1, hget]
  simp only [hread]
  refine ⟨_, rfl, rfl, ?_, htype, hintent⟩
  rw [hhash, h.2.hash]

/-! ## One turn of an actor -/

variable {a b : WorkspaceActor} {waiting : List Served}

/-- What a turn owes: waiting requests keep their numbers, and what was stored is what the first was
promised. -/
structure Fulfils (sha256 : List UInt8 → ChainHash) (rt : CheckpointRuntime)
    (a b : WorkspaceActor) (waiting : List Served) : Prop where
  behind : Numbered (Promised sha256 rt) b.state.checkpointRegister.length (afterTurn a waiting)
    (creations b.agentRx)
  served : ∀ cp ∈ a.newCheckpoints, ∃ served,
    (served, cp) ∈ (waiting.take 1).zip a.newCheckpoints
  kept : ∀ p ∈ (waiting.take 1).zip a.newCheckpoints, Kept sha256 rt p

theorem fulfils_of_nil (hnew : a.newCheckpoints = [])
    (hbehind : Numbered (Promised sha256 rt) b.state.checkpointRegister.length
      (afterTurn a waiting) (creations b.agentRx)) : Fulfils sha256 rt a b waiting where
  behind := hbehind
  served := by
    intro cp hcp
    rw [hnew] at hcp
    cases hcp
  kept := by
    intro p hp
    rw [hnew, zip_nil_right] at hp
    cases hp

theorem fulfils_createCheckpoint {payload : List UInt8}
    {status : CheckpointStatus} {confidence : Confidence}
    {usage : Option ResourceUsage} {rest : List AgentMessage}
    (h : Numbered (Promised sha256 rt) a.state.checkpointRegister.length waiting
      (creations (.createCheckpoint checkpointType payload contentHash intent status confidence
        usage :: rest)))
    (hnew : a.newCheckpoints = a.stored (.createCheckpoint checkpointType payload contentHash
      intent status confidence usage))
    (hregister : b.state.checkpointRegister = a.state.checkpointRegister ++ a.newCheckpoints)
    (hafter : afterTurn a waiting = waiting.tail) (hagent : b.agentRx = rest)
    (hguard : a.state.status = .migrating → creations rest = []) :
    Fulfils sha256 rt a b waiting := by
  obtain ⟨first, others, rfl, hfirst, hothers⟩ := h.exists_cons
  have hbehind : Numbered (Promised sha256 rt) (a.state.checkpointRegister.length + 1) others
    (creations rest) := hothers
  by_cases hmigrating : a.state.status = .migrating
  · refine fulfils_of_nil (hnew.trans (if_pos hmigrating)) ?_
    rw [hafter, hagent, hguard hmigrating]
    rw [hguard hmigrating] at hbehind
    rw [tail_cons, hbehind.eq_nil]
    exact Numbered.nil _
  · have hstored : a.newCheckpoints = [a.checkpointOf checkpointType payload contentHash
        intent status confidence usage] := hnew.trans (if_neg hmigrating)
    refine ⟨?_, ?_, ?_⟩
    · rw [hafter, hagent, hregister, hstored, length_append]
      exact hbehind
    · intro cp hcp
      rw [hstored] at hcp ⊢
      rw [mem_singleton.mp hcp]
      exact ⟨first, mem_singleton.mpr rfl⟩
    · intro p hp
      rw [hstored] at hp
      rw [mem_singleton.mp hp]
      exact ⟨hfirst.1.symm, hfirst.2⟩

/-- **A turn keeps the promises**: the first request gets its number, the others move up. -/
theorem fulfils_turn (h : Numbered (Promised sha256 rt) a.state.checkpointRegister.length waiting
      (creations a.agentRx))
    (hturn : a.turn = some b)
    (hguard : a.state.status = .migrating → a.coordinatorRx = [] → ∀ msg rest,
      a.agentRx = msg :: rest → msg.creates → creations rest = []) :
    Fulfils sha256 rt a b waiting := by
  have hregister := (adds_turn hturn).1
  rcases turn_cases hturn with ⟨hterm, rfl⟩ | ⟨hterm, cmd, rest, hrx, rfl⟩ |
    ⟨hterm, hrx, msg, rest, hagent, rfl⟩
  · refine fulfils_of_nil (if_pos hterm) ?_
    rw [afterTurn, if_pos hterm]
    exact Numbered.nil _
  · have hnew := newCheckpoints_of_command hrx
    have hadds := (handles_handleCoordinatorCmd { a with coordinatorRx := rest } cmd).adds
    refine fulfils_of_nil hnew ?_
    rw [hregister, hnew, append_nil, hadds.agentRx, afterTurn, hterm, hrx]
    exact h
  · have hnew := newCheckpoints_of_message hterm hrx hagent
    have hadds := adds_handleAgentMsg { a with agentRx := rest } msg
    rw [hagent] at h
    cases msg with
    | emitSignal =>
      have hstored : a.newCheckpoints = [] := hnew.trans (ite_self [])
      refine fulfils_of_nil hstored ?_
      rw [hregister, hstored, append_nil, hadds.agentRx, afterTurn, hterm, hrx, hagent]
      exact h
    | createCheckpoint =>
      refine fulfils_createCheckpoint h hnew hregister ?_ hadds.agentRx fun hmigrating =>
        hguard hmigrating hrx _ rest hagent rfl
      rw [afterTurn, hterm, hrx, hagent]
      rfl

/-! ## The whole runtime -/

def Records (jsonText : JsonValue → List UInt8) (p : Checkpoint × TrailEntry) : Prop :=
  ∃ body, eventBody (.checkpointCreated p.1) = some body ∧
    body.getStr "checkpoint_id" = some p.1.id.text ∧ p.2.body = jsonText body

def Requested (o : Observed) (cp : Checkpoint) : Prop := ∃ served, (served, cp) ∈ o.stored

structure Consistent (sha256 : List UInt8 → ChainHash) (jsonText : JsonValue → List UInt8)
    (o : Observed) : Prop where
  queued : ∀ (i : ℕ) a, o.runtime.system.actors[i]? = some a →
    Numbered (Promised sha256 o.runtime) a.state.checkpointRegister.length (o.waiting i)
      (creations a.agentRx)
  fresh : ∀ i : ℕ, o.runtime.system.actors[i]? = none → o.waiting i = []
  kept : ∀ p ∈ o.stored, Kept sha256 o.runtime p
  registered : ∀ a ∈ o.runtime.system.actors, ∀ cp ∈ a.state.checkpointRegister, o.Requested cp
  outbox : ∀ a ∈ o.runtime.system.actors, ∀ cp ∈ created a.outbox, o.Requested cp
  events : ∀ cp ∈ created o.runtime.system.events, o.Requested cp
  recorded : ∀ p ∈ o.recorded, o.Requested p.1 ∧ Records jsonText p
  named : ∀ id record, o.runtime.checkpointIndex.get id = some record →
    ∃ k < o.runtime.nextCheckpointId, id = "cp-" ++ toString k

variable {jsonText : JsonValue → List UInt8} {o o' : Observed}

/-- Nothing stored, announced, got or lost. -/
structure Still (a b : WorkspaceActor) : Prop where
  register : b.state.checkpointRegister = a.state.checkpointRegister
  creations : creations b.agentRx = creations a.agentRx
  outbox : ∀ cp ∈ created b.outbox, cp ∈ created a.outbox

theorem Still.refl (a : WorkspaceActor) : Still a a := ⟨rfl, rfl, fun _ h => h⟩

theorem still_of_quiet {a b : WorkspaceActor} (h : Quiet a b) : Still a b :=
  ⟨h.register, congrArg creations h.agentRx, fun cp hcp => by rwa [h.same.outbox] at hcp⟩

theorem Consistent.still (h : o.Consistent sha256 jsonText) (hgrow : Grows o.runtime o'.runtime)
    (hindex : o'.runtime.checkpointIndex = o.runtime.checkpointIndex)
    (hnext : o'.runtime.nextCheckpointId = o.runtime.nextCheckpointId)
    (hactors : List.Forall₂ Still o.runtime.system.actors o'.runtime.system.actors)
    (hevents : ∀ cp ∈ created o'.runtime.system.events,
      cp ∈ created o.runtime.system.events ∨
        ∃ a ∈ o.runtime.system.actors, cp ∈ created a.outbox)
    (hwaiting : o'.waiting = o.waiting) (hstored : o'.stored = o.stored)
    (hrecorded : ∀ p ∈ o'.recorded, p ∈ o.recorded ∨
      p.1 ∈ created o.runtime.system.events ∧ Records jsonText p) :
    o'.Consistent sha256 jsonText := by
  have hrequested : ∀ cp, o.Requested cp → o'.Requested cp := by
    rintro cp ⟨served, hmem⟩
    exact ⟨served, hstored ▸ hmem⟩
  refine ⟨?_, ?_, ?_, ?_, ?_, ?_, ?_, ?_⟩
  · intro i b hb
    obtain ⟨a, ha, hab⟩ := getElem?_of_forall₂ hactors hb
    rw [hwaiting, hab.register, hab.creations]
    exact (h.queued i a ha).imp (Promised.mono hgrow)
  · intro i hi
    rw [hwaiting]
    apply h.fresh
    rw [getElem?_eq_none_iff] at hi ⊢
    rw [hactors.length_eq]
    exact hi
  · intro p hp
    rw [hstored] at hp
    exact (h.kept p hp).mono hgrow
  · intro b hb cp hcp
    obtain ⟨a, ha, hab⟩ := exists_of_forall₂ hactors hb
    rw [hab.register] at hcp
    exact hrequested cp (h.registered a ha cp hcp)
  · intro b hb cp hcp
    obtain ⟨a, ha, hab⟩ := exists_of_forall₂ hactors hb
    exact hrequested cp (h.outbox a ha cp (hab.outbox cp hcp))
  · intro cp hcp
    rcases hevents cp hcp with hold | ⟨a, ha, hout⟩
    · exact hrequested cp (h.events cp hold)
    · exact hrequested cp (h.outbox a ha cp hout)
  · intro p hp
    rcases hrecorded p hp with hold | ⟨hev, hrecords⟩
    · exact ⟨hrequested p.1 (h.recorded p hold).1, (h.recorded p hold).2⟩
    · exact ⟨hrequested p.1 (h.events p.1 hev), hrecords⟩
  · rw [hindex, hnext]
    exact h.named

theorem grows_of_eq (hindex : rt'.checkpointIndex = rt.checkpointIndex)
    (hstorage : rt'.checkpointStorage = rt.checkpointStorage) : Grows rt rt' :=
  ⟨fun _ _ hget => hindex ▸ hget, fun _ _ hget => hstorage ▸ hget⟩

variable (h : o.Consistent sha256 jsonText)
include h

theorem Consistent.dispatch (request : DispatchRequest) : Consistent sha256 jsonText
      { o with runtime := { o.runtime with system := o.runtime.system.dispatch request } } := by
  have hactors : ∀ a ∈ (o.runtime.system.dispatch request).actors,
      a ∈ o.runtime.system.actors ∨ a = .spawn request.config := by
    intro a ha
    rcases mem_append.mp ha with hold | hnew
    · exact .inl hold
    · exact .inr (mem_singleton.mp hnew)
  have hgrow : Grows o.runtime { o.runtime with system := o.runtime.system.dispatch request } :=
    grows_of_eq rfl rfl
  refine ⟨?_, ?_, fun p hp => (h.kept p hp).mono hgrow, ?_, ?_, h.events, h.recorded, h.named⟩
  · intro i a ha
    have ha : (o.runtime.system.actors ++ [.spawn request.config])[i]? = some a := ha
    by_cases hi : i < o.runtime.system.actors.length
    · rw [getElem?_append_left hi] at ha
      exact (h.queued i a ha).imp (Promised.mono hgrow)
    · rw [getElem?_append_right (by omega)] at ha
      have hwaiting := h.fresh i (getElem?_eq_none_iff.mpr (by omega))
      have hspawn := mem_singleton.mp (mem_of_getElem? ha)
      rw [hwaiting, hspawn]
      exact Numbered.nil _
  · intro i hi
    apply h.fresh
    have hi : (o.runtime.system.actors ++ [.spawn request.config])[i]? = none := hi
    rw [getElem?_eq_none_iff, length_append] at hi
    rw [getElem?_eq_none_iff]
    omega
  · intro a ha cp hcp
    rcases hactors a ha with hold | rfl
    · exact h.registered a hold cp hcp
    · cases hcp
  · intro a ha cp hcp
    rcases hactors a ha with hold | rfl
    · exact h.outbox a hold cp hcp
    · cases hcp

theorem Consistent.queued_turn {i : ℕ} {a b : WorkspaceActor}
    (ha : o.runtime.system.actors[i]? = some a) (hqueued : Numbered (Promised sha256 o.runtime)
      b.state.checkpointRegister.length (afterTurn a (o.waiting i)) (creations b.agentRx)) {j : ℕ}
    {x : WorkspaceActor} (hx : (o.runtime.system.actors.set i b)[j]? = some x) :
    Numbered (Promised sha256 o.runtime) x.state.checkpointRegister.length
      (update o.waiting i (afterTurn a (o.waiting i)) j) (creations x.agentRx) := by
  rw [getElem?_set] at hx
  by_cases hij : i = j
  · subst hij
    have hlt : i < o.runtime.system.actors.length := (List.getElem?_eq_some_iff.mp ha).1
    rw [if_pos rfl, if_pos hlt] at hx
    cases hx
    rw [update_self]
    exact hqueued
  · rw [if_neg hij] at hx
    rw [update_of_ne (Ne.symm hij)]
    exact h.queued j x hx

theorem Consistent.turn {i : ℕ} {a b : WorkspaceActor} (ha : o.runtime.system.actors[i]? = some a)
    (hturn : a.turn = some b) (hok : o.Agreeing sha256 (.system (.turn i))) :
    Consistent sha256 jsonText
      { runtime := { o.runtime with system := { o.runtime.system with
          actors := o.runtime.system.actors.set i b } }
        waiting := update o.waiting i (afterTurn a (o.waiting i))
        stored := o.stored ++ ((o.waiting i).take 1).zip a.newCheckpoints
        recorded := o.recorded } := by
  have hguard : a.state.status = .migrating → a.coordinatorRx = [] → ∀ msg rest,
      a.agentRx = msg :: rest → msg.creates → creations rest = [] := by
    intro hmigrating hrx msg rest hagent hcreates
    unfold Agreeing agreeing at hok
    simpa [ha, hmigrating, hrx, hagent, hcreates] using hok
  obtain ⟨hqueued, hnew, hkept⟩ := fulfils_turn (h.queued i a ha) hturn hguard
  obtain ⟨hregister, hannounced⟩ := adds_turn hturn
  have hgrow : Grows o.runtime { o.runtime with system := { o.runtime.system with
      actors := o.runtime.system.actors.set i b } } := grows_of_eq rfl rfl
  have hrequested : ∀ cp, o.Requested cp ∨ cp ∈ a.newCheckpoints →
      ∃ served, (served, cp) ∈ o.stored ++ ((o.waiting i).take 1).zip a.newCheckpoints := by
    rintro cp (⟨served, hmem⟩ | hcp)
    · exact ⟨served, mem_append_left _ hmem⟩
    · obtain ⟨served, hmem⟩ := hnew cp hcp
      exact ⟨served, mem_append_right _ hmem⟩
  -- the register and the announcements grow alike
  have hadded : ∀ f : WorkspaceActor → List Checkpoint, f b = f a ++ a.newCheckpoints →
      (∀ x ∈ o.runtime.system.actors, ∀ cp ∈ f x, o.Requested cp) →
      ∀ x ∈ o.runtime.system.actors.set i b, ∀ cp ∈ f x,
        ∃ served, (served, cp) ∈ o.stored ++ ((o.waiting i).take 1).zip a.newCheckpoints := by
    intro f hf hold x hx cp hcp
    rcases mem_or_eq_of_mem_set hx with hx | rfl
    · exact hrequested cp (.inl (hold x hx cp hcp))
    · rw [hf] at hcp
      exact hrequested cp ((mem_append.mp hcp).imp_left (hold a (mem_of_getElem? ha) cp))
  refine ⟨?_, ?_, ?_, hadded _ hregister h.registered, hadded _ hannounced h.outbox, ?_, ?_,
    h.named⟩
  · intro j x hx
    exact (h.queued_turn ha hqueued hx).imp (Promised.mono hgrow)
  · intro j hj
    have hj : (o.runtime.system.actors.set i b)[j]? = none := hj
    rw [getElem?_eq_none_iff, length_set] at hj
    have hlt : i < o.runtime.system.actors.length := (List.getElem?_eq_some_iff.mp ha).1
    show update o.waiting i _ j = []
    rw [update_of_ne (by omega)]
    exact h.fresh j (getElem?_eq_none_iff.mpr hj)
  · intro p hp
    rcases mem_append.mp hp with hold | hp
    · exact (h.kept p hold).mono hgrow
    · exact (hkept p hp).mono hgrow
  · intro cp hcp
    exact hrequested cp (.inl (h.events cp hcp))
  · intro p hp
    exact ⟨hrequested p.1 (.inl (h.recorded p hp).1), (h.recorded p hp).2⟩

end Sha

end Observed

end CheckpointRuntime

end Wacp
