import Wacp.Model.AccountHandlers
import Wacp.Library.Runs

/-!
# The last administrator

`update_user` counts the active admins and updates the user in a later statement, so two requests
can take away the last two. A request is `cleared` between the two.
-/

namespace Wacp.Console.Accounts

open Library Prog List Follows

/-! ## Active admins -/

def HasActiveAdmin (d : Data) : Prop :=
  ∃ u ∈ d.users.rows, u.consoleRole = .admin ∧ u.disabledAt = none

def AdminAmong (P : String → Prop) (d : Data) : Prop :=
  ∃ u ∈ d.users.rows, u.isActiveAdmin ∧ P u.id

theorem UserRow.isActiveAdmin_iff (u : UserRow) :
    u.isActiveAdmin ↔ u.consoleRole = .admin ∧ u.disabledAt = none := by
  simp [UserRow.isActiveAdmin]

theorem hasActiveAdmin_iff {d : Data} : HasActiveAdmin d ↔ AdminAmong (fun _ => True) d := by
  simp [HasActiveAdmin, AdminAmong, UserRow.isActiveAdmin_iff]

section

variable {P : String → Prop} {d : Data} (h : AdminAmong P d) {p : UserRow → Bool} {edit : UserEdit}
include h

theorem AdminAmong.update (hedit : ∀ u, p u → u.isActiveAdmin → (edit.apply u).isActiveAdmin) :
    AdminAmong P (d.withUsers (d.users.update p edit)) := by
  obtain ⟨u, hu, hadmin, hP⟩ := h
  cases hp : p u with
  | true =>
    refine ⟨edit.apply u, mem_updateWhere.mpr (.inl ⟨u, hu, hp, rfl⟩), hedit u hp hadmin, ?_⟩
    rw [edit.id]
    exact hP
  | false => exact ⟨u, mem_updateWhere.mpr (.inr ⟨hu, hp⟩), hadmin, hP⟩

theorem AdminAmong.update_others (hp : ∀ u, p u → ¬ P u.id) :
    AdminAmong P (d.withUsers (d.users.update p edit)) := by
  obtain ⟨u, hu, hadmin, hP⟩ := h
  have hpu : p u = false := by
    by_contra hne
    exact hp u (by simpa using hne) hP
  exact ⟨u, mem_updateWhere.mpr (.inr ⟨hu, hpu⟩), hadmin, hP⟩

end

theorem adminBesides_of_count {d : Data} (h : 1 < d.users.countActiveAdmins) {id : String} :
    AdminAmong (· ≠ id) d := by
  by_contra hnone
  have hall : ∀ u ∈ d.users.rows.filter UserRow.isActiveAdmin, u.id = id := by
    intro u hu
    obtain ⟨hmem, hadmin⟩ := mem_filter.mp hu
    by_contra hne
    exact hnone ⟨u, hmem, hadmin, hne⟩
  have hnodup : ((d.users.rows.filter UserRow.isActiveAdmin).map (·.id)).Nodup :=
    d.users.ids.sublist (filter_sublist.map _)
  rw [map_eq_replicate_iff.mpr hall, nodup_replicate] at hnodup
  rw [Users.countActiveAdmins, countP_eq_length_filter] at h
  omega

theorem adminBesides_of_other {d : Data} (h : AdminAmong (fun _ => True) d) {id : String}
    {u : UserRow} (hu : d.users.getById id = some u) (hrole : u.consoleRole ≠ .admin) :
    AdminAmong (· ≠ id) d := by
  obtain ⟨hmem, hid⟩ := Users.getById_eq_some.mp hu
  obtain ⟨v, hv, hadmin, -⟩ := h
  refine ⟨v, hv, hadmin, ?_⟩
  intro hvid
  have hvu : v = u := eq_of_key_eq d.users.ids hv hmem (hvid.trans hid.symm)
  exact hrole (hvu ▸ ((v.isActiveAdmin_iff).mp hadmin).1)

def takesAdminAway : Call → Bool
  | .updateRole _ role => role != "admin"
  | .disableUser _ _ => true
  | _ => false

section Effect

variable {P : String → Prop} {d : Data}

theorem AdminAmong.statement {α : Type} (o : Outside) (a : α) {d' : Data} (h : AdminAmong P d)
    (h' : AdminAmong P d') : AdminAmong P (d.statement o a d').2 :=
  keeps_of_tried (d.statement_cases d' o a) _ h h'

theorem AdminAmong.insert (o : Outside) {inserted : Except DbError Data} (h : AdminAmong P d)
    (h' : ∀ d', inserted = .ok d' → d'.users = d.users) : AdminAmong P (d.insert o inserted).2 := by
  unfold Data.insert
  cases o.dbError with
  | some => exact h
  | none =>
    cases inserted with
    | error => exact h
    | ok d' =>
      unfold AdminAmong
      rw [h' d' rfl]
      exact h

theorem AdminAmong.after_exec {c : Call} (hc : takesAdminAway c = false) {o : Outside}
    (h : AdminAmong P d) : AdminAmong P (exec c o d).2 := by
  cases c with
  | updateRole id role =>
    have hrole : role = "admin" := by simpa [takesAdminAway] using hc
    subst hrole
    exact h.statement o _ (h.update fun u _ hu => by
      simp only [UserRow.isActiveAdmin_iff] at hu ⊢
      exact ⟨rfl, hu.2⟩)
  | disableUser => cases hc
  | enableUser =>
    exact h.statement o _ (h.update fun u _ hu => by
      simp only [UserRow.isActiveAdmin_iff] at hu ⊢
      exact ⟨hu.1, rfl⟩)
  | setMustChangePassword | updatePassword => exact h.statement o _ (h.update fun u _ hu => hu)
  | insertSession =>
    refine h.insert o fun d' hd' => ?_
    unfold Data.insertSession at hd'
    split_ifs at hd'
    cases hd'
    rfl
  | insertToken =>
    refine h.insert o fun d' hd' => ?_
    unfold Data.insertToken at hd'
    split_ifs at hd'
    cases hd'
    rfl
  | now | randomText | newId | verifyPassword | hashPassword => exact h
  | _ => exact h.statement o _ h

end Effect

/-! ## The order of calls -/

namespace UserUpdates

inductive Phase where
  | free
  | looked (id : String)
  | cleared (id : String)
  deriving DecidableEq

namespace Phase

def ifFree : Phase → Option Phase
  | .free => some .free
  | _ => none

def afterLook : Phase → String → Except DbError (Option UserRow) → Option Phase
  | .free, id, .ok (some user) =>
    some (if user.consoleRole = .admin then .looked id else .cleared id)
  | .free, _, _ => some .free
  | _, _, _ => none

def afterCount : Phase → Except DbError ℕ → Option Phase
  | .looked id, .ok adminCount => some (if adminCount ≤ 1 then .free else .cleared id)
  | .looked _, .error _ => some .free
  | _, _ => none

def afterRole : Phase → String → String → Option Phase
  | .looked id, id', role => if id' = id ∧ role = "admin" then some .free else none
  | .cleared id, id', _ => if id' = id then some .free else none
  | _, _, _ => none

def afterDisable : Phase → String → Option Phase
  | .cleared id, id' => if id' = id then some .free else none
  | _, _ => none

def next (φ : Phase) : Exchange Call Reply → Option Phase
  | ⟨.now, _⟩ => φ.ifFree
  | ⟨.getById id, r⟩ => φ.afterLook id r
  | ⟨.countActiveAdmins, r⟩ => φ.afterCount r
  | ⟨.updateRole id role, _⟩ => φ.afterRole id role
  | ⟨.disableUser id _, _⟩ => φ.afterDisable id
  | ⟨.enableUser _, _⟩ => φ.ifFree
  | _ => none

def isCleared : Phase → Bool
  | .cleared _ => true
  | _ => false

end Phase

open Wacp.Console.Accounts.UserUpdates.Phase

variable {update : Program (Except DbError Bool)} {φ : Phase}

theorem orDatabaseError_follows (h : update.Follows next (fun φ _ => φ = .free) φ) :
    (orDatabaseError update).Follows next (fun φ _ => φ = .free) φ := by
  refine h.bind ?_
  rintro ψ (e | b) hψ
  · exact hψ
  · exact hψ

theorem guardLastAdmin_follows {id : String} {takesAdmin : UserRow → Bool}
    (htakes : ∀ user, takesAdmin user → user.consoleRole = .admin)
    (hlooked : ∀ user, takesAdmin user = false → user.consoleRole = .admin →
      update.Follows next (fun φ _ => φ = .free) (.looked id))
    (hcleared : update.Follows next (fun φ _ => φ = .free) (.cleared id)) :
    (guardLastAdmin id takesAdmin update).Stays next .free := by
  refine perform fun r => ?_
  obtain e | _ | user := r
  · exact ⟨_, rfl, rfl⟩
  · exact ⟨_, rfl, rfl⟩
  · refine ⟨_, rfl, ?_⟩
    dsimp only
    cases htake : takesAdmin user with
    | true =>
      rw [if_pos rfl, if_pos (htakes user htake)]
      refine perform fun r => ?_
      obtain e | adminCount := r
      · exact ⟨_, rfl, rfl⟩
      · refine ⟨_, rfl, ?_⟩
        dsimp only
        split_ifs
        · rfl
        · exact orDatabaseError_follows hcleared
    | false =>
      rw [if_neg (by simp)]
      split_ifs with hrole
      · exact orDatabaseError_follows (hlooked user htake hrole)
      · exact orDatabaseError_follows hcleared

variable {auth : AuthenticatedUser} (id : String)

theorem changeRole_follows {role : String} :
    (changeRole auth id role).Stays next .free := by
  unfold changeRole
  cases authorize auth .changeUserRole with
  | error => rfl
  | ok =>
    refine guardLastAdmin_follows ?_ ?_ ?_
    · intro user h
      simp only [Bool.and_eq_true, beq_iff_eq] at h
      exact h.1
    · intro user hnot hadmin
      have hrole : role = "admin" := by simpa [hadmin] using hnot
      exact perform fun r => ⟨_, if_pos ⟨rfl, hrole⟩, rfl⟩
    · exact perform fun r => ⟨_, if_pos rfl, rfl⟩

theorem setDisabled_follows {now : ℤ} {disabled : Option Bool} :
    (setDisabled auth id now disabled).Stays next .free := by
  cases disabled with
  | none => rfl
  | some disabled =>
    unfold setDisabled
    cases authorize auth .disableUser with
    | error => rfl
    | ok =>
      cases disabled with
      | true =>
        refine guardLastAdmin_follows ?_ ?_ ?_
        · intro user h
          simpa using h
        · intro user hnot hadmin
          simp [hadmin] at hnot
        · exact perform fun r => ⟨_, if_pos rfl, rfl⟩
      | false =>
        exact orDatabaseError_follows (perform fun r => ⟨_, rfl, rfl⟩)

theorem updateUser_follows {body : UpdateUserRequest} :
    (updateUser auth id body).Stays next .free := by
  refine perform fun now => ⟨_, rfl, ?_⟩
  cases body.consoleRole with
  | none => exact setDisabled_follows id
  | some role =>
    refine (changeRole_follows id).bind fun r => ?_
    obtain e | _ := r
    · rfl
    · exact setDisabled_follows id

/-! ## One step -/

inductive Allows : Phase → Exchange Call Reply → Phase → Prop where
  | clock (t : ℤ) : Allows .free ⟨.now, t⟩ .free
  | lookFailed (id : String) (e : DbError) : Allows .free ⟨.getById id, .error e⟩ .free
  | absent (id : String) : Allows .free ⟨.getById id, .ok none⟩ .free
  | admin {user : UserRow} (id : String) (h : user.consoleRole = .admin) :
      Allows .free ⟨.getById id, .ok (some user)⟩ (.looked id)
  | other {user : UserRow} (id : String) (h : user.consoleRole ≠ .admin) :
      Allows .free ⟨.getById id, .ok (some user)⟩ (.cleared id)
  | countFailed (id : String) (e : DbError) :
      Allows (.looked id) ⟨.countActiveAdmins, .error e⟩ .free
  | last {adminCount : ℕ} (id : String) (h : adminCount ≤ 1) :
      Allows (.looked id) ⟨.countActiveAdmins, .ok adminCount⟩ .free
  | several {adminCount : ℕ} (id : String) (h : 1 < adminCount) :
      Allows (.looked id) ⟨.countActiveAdmins, .ok adminCount⟩ (.cleared id)
  | toAdmin (id : String) (r : Except DbError Bool) :
      Allows (.looked id) ⟨.updateRole id "admin", r⟩ .free
  | role (id role : String) (r : Except DbError Bool) :
      Allows (.cleared id) ⟨.updateRole id role, r⟩ .free
  | disable (id : String) (now : ℤ) (r : Except DbError Bool) :
      Allows (.cleared id) ⟨.disableUser id now, r⟩ .free
  | enable (id : String) (r : Except DbError Bool) : Allows .free ⟨.enableUser id, r⟩ .free

variable {φ' : Phase}

theorem allows_of_next {x : Exchange Call Reply} (h : φ.next x = some φ') : Allows φ x φ' := by
  obtain ⟨c, r⟩ := x
  cases c with
  | now =>
    cases φ <;> cases h
    exact .clock r
  | getById id =>
    cases φ with
    | free =>
      obtain e | _ | user := r
      · cases h
        exact .lookFailed id e
      · cases h
        exact .absent id
      · simp only [Phase.next, afterLook, Option.some.injEq] at h
        split_ifs at h with hrole
        · subst h
          exact .admin id hrole
        · subst h
          exact .other id hrole
    | looked | cleared => cases h
  | countActiveAdmins =>
    cases φ with
    | looked id =>
      obtain e | adminCount := r
      · cases h
        exact .countFailed id e
      · simp only [Phase.next, afterCount, Option.some.injEq] at h
        split_ifs at h with hcount
        · subst h
          exact .last id hcount
        · subst h
          exact .several id (by omega)
    | free | cleared => cases h
  | updateRole id role =>
    cases φ with
    | looked =>
      simp only [Phase.next, afterRole] at h
      split_ifs at h with hid
      obtain ⟨rfl, rfl⟩ := hid
      cases h
      exact .toAdmin id r
    | cleared =>
      simp only [Phase.next, afterRole] at h
      split_ifs at h with hid
      subst hid
      cases h
      exact .role id role r
    | free => cases h
  | disableUser id now =>
    cases φ with
    | cleared =>
      simp only [Phase.next, afterDisable] at h
      split_ifs at h with hid
      subst hid
      cases h
      exact .disable id now r
    | free | looked => cases h
  | enableUser id =>
    cases φ <;> cases h
    exact .enable id r
  | _ => cases h

def holds : Phase → Data → Prop
  | .cleared id, d => AdminAmong (· ≠ id) d
  | _, _ => True

variable {o : Outside} {d : Data}

theorem getById_of_exec {id : String} {user : Option UserRow}
    (h : (exec (.getById id) o d).1 = .ok user) : d.users.getById id = user :=
  eq_of_tried (d.statement_cases d o _) h

theorem count_of_exec {adminCount : ℕ} (h : (exec .countActiveAdmins o d).1 = .ok adminCount) :
    d.users.countActiveAdmins = adminCount :=
  eq_of_tried (d.statement_cases d o _) h

theorem adminBesides_of_update {c : Call} {id : String} {o : Outside}
    (hc : (∃ role, c = .updateRole id role) ∨ ∃ now, c = .disableUser id now)
    (h : AdminAmong (· ≠ id) d) : AdminAmong (· ≠ id) (exec c o d).2 := by
  obtain ⟨role, rfl⟩ | ⟨now, rfl⟩ := hc
  · rw [exec, Data.updateRole]
    split
    · exact h
    · exact h.statement o _ (h.update_others fun u hu hne => hne (by simpa using hu))
  · refine h.statement o _ (h.update_others fun u hu hne => hne ?_)
    simp only [Bool.and_eq_true, beq_iff_eq] at hu
    exact hu.1

theorem admin_of_allows {c : Call} (hallows : Allows φ ⟨c, (exec c o d).1⟩ φ') (hholds : holds φ d)
    (hadmin : AdminAmong (fun _ => True) d) :
    AdminAmong (fun _ => True) (exec c o d).2 ∧ holds φ' (exec c o d).2 := by
  have hread : takesAdminAway c = false → AdminAmong (fun _ => True) (exec c o d).2 :=
    fun hc => hadmin.after_exec hc
  generalize hr : (exec c o d).1 = r at hallows
  cases hallows with
  | clock | lookFailed | absent | admin | countFailed | last | toAdmin | enable =>
      exact ⟨hread rfl, trivial⟩
  | other id hrole =>
    have hbesides := adminBesides_of_other hadmin (getById_of_exec hr) hrole
    exact ⟨hread rfl, hbesides.after_exec rfl⟩
  | several id hcount =>
    rw [← count_of_exec hr] at hcount
    exact ⟨hread rfl, (adminBesides_of_count hcount).after_exec rfl⟩
  | role id role =>
    obtain ⟨u, hu, ha, -⟩ := adminBesides_of_update (.inl ⟨role, rfl⟩) hholds
    exact ⟨⟨u, hu, ha, trivial⟩, trivial⟩
  | disable id now =>
    obtain ⟨u, hu, ha, -⟩ := adminBesides_of_update (.inr ⟨now, rfl⟩) hholds
    exact ⟨⟨u, hu, ha, trivial⟩, trivial⟩

/-! ## Every run -/

/-- No statement takes an admin away while another request is between its check and its update. -/
def undisturbed (s : UserUpdates) : Label → Bool
  | .call request _ =>
    !(s.pending request).any takesAdminAway ||
      (List.range s.processes.length).all fun j =>
        j == request || !(s.phase next .free j).any isCleared
  | .request _ _ _ => true

structure Guarded (s : UserUpdates) : Prop where
  conforms : s.Conforms next .free (fun φ _ => φ = .free)
  relies : s.Relies next .free holds
  admin : AdminAmong (fun _ => True) s.shared

theorem Guarded.step {s t : UserUpdates} {label : Label} (h : Guarded s)
    (hok : undisturbed s label) (hstep : s.Step label t) : Guarded t := by
  cases label with
  | request auth id body =>
    cases hstep
    exact ⟨h.conforms.start (updateUser_follows id), h.relies.start _, h.admin⟩
  | call request o =>
    have hadvance : s.advance exec (fun _ _ => []) request o = some t := hstep
    obtain ⟨hconforms, c, φ, φ', hadv⟩ := h.conforms.advance (by simp) hadvance
    have hpending := hadv.pending hadvance
    obtain ⟨hadmin, hown⟩ :=
      admin_of_allows (allows_of_next hadv.allowed) (h.relies _ _ hadv.before) h.admin
    rw [← hadv.shared] at hadmin hown
    refine ⟨hconforms, hadv.relies h.relies hown ?_, hadmin⟩
    intro j ψ hj hψ hholds
    cases ψ with
    | free | looked => trivial
    | cleared id =>
      -- somebody else is cleared, so the statement is not one that takes an admin away
      have hc : takesAdminAway c = false := by
        by_contra hne
        have hlt : j < s.processes.length := by
          by_contra hge
          rw [h.conforms.phase_of_length_le (by omega)] at hψ
          cases hψ
        simp only [undisturbed, hpending, Option.any_some, Bool.or_eq_true,
          Bool.not_eq_true', all_eq_true, mem_range, beq_iff_eq] at hok
        obtain hfalse | hall := hok
        · exact hne hfalse
        · obtain hji | hnot := hall j hlt
          · exact hj hji
          · rw [hψ] at hnot
            cases hnot
      have hbesides : AdminAmong (· ≠ id) s.shared := hholds
      rw [hadv.shared]
      exact hbesides.after_exec hc

/-- **The last administrator stays**, unless an admin is taken away between another request's check
and its update. -/
theorem admin_remains {d : Data} (hd : HasActiveAdmin d) {t : UserUpdates}
    (h : Run Step (fun s label => undisturbed s label) (new d) t) : HasActiveAdmin t.shared := by
  have hstart : Guarded (new d) := by
    refine ⟨Pool.conforms_of_empty, ?_, hasActiveAdmin_iff.mp hd⟩
    intro i φ hφ
    cases hφ
    trivial
  have hend := h.invariant Guarded Guarded.step hstart
  exact hasActiveAdmin_iff.mpr hend.admin

/-! ## Two admins -/

def sampleUser (username : String) (consoleRole : ConsoleRole) : UserRow :=
  { id := id, username := username, usernameLower := sqlLower username, displayName := username
    passwordHash := "hash-" ++ id, consoleRole := consoleRole, mustChangePassword := false
    disabledAt := none }

def twoAdmins : Data where
  users :=
    { rows := [sampleUser "u1" "ada" .admin, sampleUser "u2" "bob" .admin]
      ids := by decide
      names := by decide
      lower := by decide }
  sessions := []
  tokens := []
  attempts := []
  sessionHashes := nodup_nil
  tokenHashes := nodup_nil

def willing : Outside :=
  { now := 0, dbError := none, text := "", valid := .ok true, passwordHash := .ok "" }

def demotions : List Label :=
  [.request ⟨"u1", "ada", .admin⟩ "u2" ⟨some "viewer", none⟩,
   .request ⟨"u2", "bob", .admin⟩ "u1" ⟨some "viewer", none⟩]

def calls (requests : List ℕ) : List Label := requests.map fun i => .call i willing

theorem admin_remains_of_demotions :
    ∃ t, Run Step (fun s label => undisturbed s label) (new twoAdmins) t ∧
      t.processes.length = 2 ∧ HasActiveAdmin t.shared := by
  have hrun := Run.of_checked undisturbed (fun _ _ _ hok => hok)
    (rfl : (demotions ++ calls [0, 0, 0, 0, 1, 1, 1]).foldlM
      (fun s label => if undisturbed s label then s.apply label else none)
      (new twoAdmins) = some _)
  have hadmin : HasActiveAdmin twoAdmins := ⟨sampleUser "u1" "ada" .admin, by decide, rfl, rfl⟩
  exact ⟨_, hrun, rfl, admin_remains hadmin hrun⟩

theorem two_requests_lose_last_admin : HasActiveAdmin twoAdmins ∧
      ∃ t, Run Step anyStep (new twoAdmins) t ∧ ¬ HasActiveAdmin t.shared := by
  refine ⟨⟨sampleUser "u1" "ada" .admin, by decide, rfl, rfl⟩, _, Run.of_ops
    (rfl : (demotions ++ calls [0, 0, 0, 1, 1, 1, 0, 1]).foldlM apply _ = some _), ?_⟩
  rintro ⟨u, hu, hrole, -⟩
  have hu : u ∈ [sampleUser "u1" "ada" .viewer, sampleUser "u2" "bob" .viewer] := hu
  simp only [mem_cons, not_mem_nil, or_false] at hu
  obtain rfl | rfl := hu
  · cases hrole
  · cases hrole

end UserUpdates

end Wacp.Console.Accounts
