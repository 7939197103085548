import Wacp.Analysis.ProfileVersions

/-!
# What the profile endpoints show of private profiles

Nothing leaks if every endpoint answers alike on two tables that differ in hidden profiles only.
`list_versions` checks the live row only if there is one, so after a soft delete it shows all
versions to everybody.
-/

namespace Wacp.Console.Profiles

open Library Prog List Profiles.ProfileRow Profiles Edits

/-! ## Tables that agree for a user -/

def ProfileTable.Hidden (t : ProfileTable) (u id : String) : Prop :=
  ∀ r ∈ t.rows, r.id = id → r.ownerUserId ≠ u ∧ r.visibility ≠ "shared"

/-- The same version of the same profile, current and deleted alike. -/
structure ProfileRow.SamePlace (r r' : ProfileRow) : Prop where
  key : r.key = r'.key
  isCurrent : r.isCurrent = r'.isCurrent
  deleted : r.deletedAt.isNone = r'.deletedAt.isNone

def AgreeFor (u : String) (t t' : ProfileTable) : Prop :=
  List.Forall₂ (fun r r' => r = r' ∨ (r.SamePlace r' ∧ t.Hidden u r.id ∧ t'.Hidden u r'.id))
    t.rows t'.rows

section

variable {R : ProfileRow → ProfileRow → Prop} {p : ProfileRow → Bool} {rows rows' : List ProfileRow}
  (h : List.Forall₂ R rows rows')
include h

theorem filter_eq_of_forall₂
    (hp : ∀ r r', r ∈ rows → r' ∈ rows' → R r r' → r = r' ∨ (p r = false ∧ p r' = false)) :
    rows.filter p = rows'.filter p := by
  induction h with
  | nil => rfl
  | @cons r r' rows rows' hr _ ih =>
    have htail := ih fun s s' hs hs' => hp s s' (mem_cons_of_mem _ hs) (mem_cons_of_mem _ hs')
    obtain rfl | ⟨hfalse, hfalse'⟩ := hp r r' mem_cons_self mem_cons_self hr
    · rw [filter_cons, filter_cons, htail]
    · rw [filter_cons_of_neg (by simp [hfalse]), filter_cons_of_neg (by simp [hfalse']), htail]

theorem find?_of_forall₂ (hp : ∀ r r', R r r' → p r = p r') :
    (rows.find? p = none ∧ rows'.find? p = none) ∨
      ∃ r r', rows.find? p = some r ∧ rows'.find? p = some r' ∧ R r r' := by
  induction h with
  | nil => exact .inl ⟨rfl, rfl⟩
  | @cons r r' rows rows' hr _ ih =>
    cases hpr : p r with
    | true =>
      refine .inr ⟨r, r', find?_cons_of_pos hpr, find?_cons_of_pos ?_, hr⟩
      rw [← hp r r' hr, hpr]
    | false =>
      rw [find?_cons_of_neg (by simp [hpr]), find?_cons_of_neg (by simp [← hp r r' hr, hpr])]
      exact ih

end

namespace AgreeFor

variable {u : String} {t t' : ProfileTable}

variable (h : AgreeFor u t t')
include h

variable {p : ProfileRow → Bool}

theorem filter_eq (hp : ∀ r, p r → r.ownerUserId = u ∨ r.visibility = "shared") :
    t.rows.filter p = t'.rows.filter p := by
  refine filter_eq_of_forall₂ h ?_
  rintro r r' hr hr' (rfl | ⟨-, hhid, hhid'⟩)
  · exact .inl rfl
  · have hnot : ∀ s : ProfileRow, s.ownerUserId ≠ u ∧ s.visibility ≠ "shared" → p s = false := by
      rintro s ⟨howner, hshared⟩
      by_contra hne
      obtain h | h := hp s (by simpa using hne)
      · exact howner h
      · exact hshared h
    exact .inr ⟨hnot r (hhid r hr rfl), hnot r' (hhid' r' hr' rfl)⟩

theorem keys_eq : t.rows.map key = t'.rows.map key := by
  rw [← forall₂_eq_eq_eq, forall₂_map_left_iff, forall₂_map_right_iff]
  refine List.Forall₂.imp ?_ h
  rintro r r' (rfl | ⟨hplace, -⟩)
  · rfl
  · exact hplace.key

theorem rows_eq {id : String} (hid : ¬ t.Hidden u id) :
    (t.rows.filter fun r => r.id == id) = t'.rows.filter fun r => r.id == id := by
  refine filter_eq_of_forall₂ h ?_
  rintro r r' hr hr' (rfl | ⟨hplace, hhid, -⟩)
  · exact .inl rfl
  · have hne : r.id ≠ id := fun heq => hid (heq ▸ hhid)
    have hsame : r.id = r'.id := congrArg Prod.fst hplace.key
    exact .inr ⟨by simpa using hne, by simpa [← hsame] using hne⟩

/-- **The live row of a profile** is the same, or hidden in both tables. -/
theorem getCurrent_cases {id : String} : t.getCurrent id = t'.getCurrent id ∨
      ∃ r r', t.getCurrent id = some r ∧ t'.getCurrent id = some r' ∧
        (r.ownerUserId ≠ u ∧ r.visibility ≠ "shared") ∧
        (r'.ownerUserId ≠ u ∧ r'.visibility ≠ "shared") := by
  have hlive : ∀ r r' : ProfileRow,
      r = r' ∨ (r.SamePlace r' ∧ t.Hidden u r.id ∧ t'.Hidden u r'.id) →
      (r.id == id && r.isLive) = (r'.id == id && r'.isLive) := by
    rintro r r' (rfl | ⟨hplace, -⟩)
    · rfl
    · have hid : r.id = r'.id := congrArg Prod.fst hplace.key
      simp [isLive, hid, hplace.isCurrent, hplace.deleted]
  obtain ⟨hnone, hnone'⟩ | ⟨r, r', hr, hr', hrel⟩ := find?_of_forall₂ h hlive
  · exact .inl (hnone.trans hnone'.symm)
  · obtain rfl | ⟨-, hhid, hhid'⟩ := hrel
    · exact .inl (hr.trans hr'.symm)
    · exact .inr ⟨r, r', hr, hr', hhid r (mem_of_find?_eq_some hr) rfl,
        hhid' r' (mem_of_find?_eq_some hr') rfl⟩

theorem any_eq (hp : ∀ r, p r → r.ownerUserId = u ∨ r.visibility = "shared") :
    t.rows.any p = t'.rows.any p := by
  have hfilter := h.filter_eq hp
  have hmem : ∀ r, r ∈ t.rows ∧ p r ↔ r ∈ t'.rows ∧ p r := by
    intro r
    rw [← mem_filter, ← mem_filter, hfilter]
  rw [Bool.eq_iff_iff, any_eq_true, any_eq_true]
  exact exists_congr hmem

theorem nameExistsForUser_eq {name : String} {excludeId : Option String} :
    t.nameExistsForUser name u excludeId = t'.nameExistsForUser name u excludeId := by
  refine h.any_eq fun r hr => .inl ?_
  simp only [Bool.and_eq_true, beq_iff_eq] at hr
  exact hr.1.1.2

theorem listVisible_eq {q : ListQuery} (hviewer : q.viewerUserId = u) (hadmin : q.isAdmin = false) :
    t.listVisible q = t'.listVisible q := by
  unfold ProfileTable.listVisible
  rw [h.filter_eq]
  intro r hr
  simp only [ListQuery.selects, ListQuery.visible, hadmin, hviewer, Bool.false_or,
    Bool.and_eq_true, Bool.or_eq_true, beq_iff_eq] at hr
  exact hr.1.1.1.2

end AgreeFor

/-! ## Calls and parts of the endpoints -/

section Parts

variable {u : String} {t t' : ProfileTable}

theorem statement_alike {α : Type} {a a' : α} (h : AgreeFor u t t') (ha : a = a') {o : Outside} :
    (t.statement o a t).1 = (t'.statement o a' t').1 ∧
      AgreeFor u (t.statement o a t).2 (t'.statement o a' t').2 := by
  subst ha
  unfold ProfileTable.statement
  cases o.dbError with
  | some | none => exact ⟨rfl, h⟩

abbrev Alike {α : Type} (u : String) (p : Program α) : Prop :=
  p.SameAnswers exec (AgreeFor u) (AgreeFor u)

theorem taxonomy_alike : Alike u (perform Call.taxonomy) :=
  SameAnswers.perform fun _ _ _ h => ⟨rfl, h⟩

theorem newId_alike : Alike u (perform Call.newId) :=
  SameAnswers.perform fun _ _ _ h => ⟨rfl, h⟩

theorem now_alike : Alike u (perform Call.now) :=
  SameAnswers.perform fun _ _ _ h => ⟨rfl, h⟩

theorem deriveDisplayName_alike {profile : ProfileRow} {viewerUserId : String} :
    Alike u (deriveDisplayName profile viewerUserId) := by
  unfold deriveDisplayName
  split_ifs
  · exact (SameAnswers.perform fun o _ _ h => statement_alike h rfl).bind fun _ => .ret _
  · exact .ret _

variable {rows : List ProfileRow}

theorem listRows_alike {index : TaxonomyIndex} {viewerUserId : String} :
    Alike u (listRows index viewerUserId rows) := by
  induction rows with
  | nil => exact .ret _
  | cons p rows ih =>
    exact deriveDisplayName_alike.bind fun _ => ih.bind fun _ => .ret _

variable (r : ProfileRow) (fmt : Formats)

theorem validated_alike {input : ProfileInput} (hinput : input.ownerUserId = u) :
    Alike u (validated fmt input) := by
  refine taxonomy_alike.bind fun index => ?_
  refine (SameAnswers.perform (Q := AgreeFor u) fun o s s' h =>
    statement_alike h (hinput ▸ h.nameExistsForUser_eq)).bind fun nameExists => ?_
  cases validateProfile fmt input index nameExists with
  | none => exact .ret _
  | some =>
    dsimp only
    split_ifs
    · exact .ret _
    · exact .ret _

theorem checkProfileReadAccess_of_hidden {auth : AuthenticatedUser} {r : ProfileRow}
    (hrole : auth.consoleRole ≠ .admin)
    (h : r.ownerUserId ≠ auth.userId ∧ r.visibility ≠ "shared") : checkProfileReadAccess auth r =
      .error (.console (.forbidden "You do not have access to this profile")) := by
  rw [checkProfileReadAccess, if_neg hrole, if_neg h.1, if_neg h.2]

def answerChecked (check : ProfileRow → Except ProfileError Unit) (id : String) :
    Except DbError (Option ProfileRow) → Except ProfileError ProfileRow
  | .error e => .error (.database e)
  | .ok none => .error (.notFound "profile" id)
  | .ok (some profile) => (check profile).map fun _ => profile

theorem getChecked_eq (check : ProfileRow → Except ProfileError Unit) (id : String) :
    getChecked check id =
      perform (Call.getCurrent id) >>= fun r => Prog.ret (answerChecked check id r) := by
  unfold getChecked
  congr 1
  funext r
  obtain e | _ | profile := r
  · rfl
  · rfl
  · rfl

/-- **A checked read** tells nothing of a hidden profile. -/
theorem getChecked_alike {auth : AuthenticatedUser} (hrole : auth.consoleRole ≠ .admin)
    {id : String} : Alike auth.userId (getChecked (checkProfileReadAccess auth) id) := by
  rw [getChecked_eq]
  intro env s s' h
  have hrun : ∀ t : ProfileTable, (perform (Call.getCurrent id) >>= fun r =>
      Prog.ret (answerChecked (checkProfileReadAccess auth) id r)).run exec env t =
        ⟨answerChecked (checkProfileReadAccess auth) id (exec (.getCurrent id) (env 0) t).1,
          (exec (.getCurrent id) (env 0) t).2,
          [⟨.getCurrent id, (exec (.getCurrent id) (env 0) t).1⟩]⟩ := fun _ => rfl
  rw [hrun s, hrun s']
  obtain heq | ⟨r, r', hr, hr', hhid, hhid'⟩ := h.getCurrent_cases
  · obtain ⟨hreply, hagree⟩ := statement_alike h heq
    refine ⟨?_, rfl, hagree⟩
    exact congrArg (answerChecked (checkProfileReadAccess auth) id) hreply
  · simp only [exec, ProfileTable.statement, hr, hr']
    cases (env 0).dbError with
    | some => exact ⟨rfl, rfl, h⟩
    | none =>
      refine ⟨?_, rfl, h⟩
      simp only [answerChecked, checkProfileReadAccess_of_hidden hrole hhid,
        checkProfileReadAccess_of_hidden hrole hhid', Except.map]

/-! ## The endpoints that check -/

variable {auth : AuthenticatedUser}

theorem listProfiles_alike (hrole : auth.consoleRole ≠ .admin) {params : ListParams} :
    Alike auth.userId (listProfiles auth params) := by
  unfold listProfiles
  cases authorize auth .listOwnProfiles with
  | error => exact .ret _
  | ok =>
    have hadmin : (auth.consoleRole == .admin) = false := by simpa using hrole
    refine SameAnswers.bind (SameAnswers.perform fun o _ _ h =>
        statement_alike h (h.listVisible_eq rfl hadmin)) fun r => ?_
    obtain e | rows := r
    · exact .ret _
    · exact taxonomy_alike.bind fun index =>
        listRows_alike.bind fun _ => .ret _

theorem getProfile_alike (hrole : auth.consoleRole ≠ .admin) {id : String} :
    Alike auth.userId (getProfile fmt auth id) := by
  refine (getChecked_alike hrole).bind fun r => ?_
  obtain e | profile := r
  · exact .ret _
  · exact taxonomy_alike.bind fun index =>
      deriveDisplayName_alike.bind fun _ => .ret _

theorem exportProfile_alike {yaml : ProfileYaml → Except String String}
    (hrole : auth.consoleRole ≠ .admin) {id : String} :
    Alike auth.userId (exportProfile fmt yaml auth id) := by
  unfold exportProfile
  cases authorize auth .exportProfile with
  | error => exact .ret _
  | ok =>
    refine (getChecked_alike hrole).bind fun r => ?_
    obtain e | profile := r
    · exact .ret _
    · exact .ret _

theorem insertProfile_alike (row : ProfileRow) :
    (perform (Call.insertProfile row)).SameAnswers exec (AgreeFor u) (fun _ _ => True) := by
  refine SameAnswers.perform fun o s s' h => ⟨?_, trivial⟩
  simp only [exec, ProfileTable.insert, ProfileTable.insertProfile, h.keys_eq]
  cases o.dbError with
  | some => rfl
  | none => split_ifs <;> rfl

theorem cloneProfile_alike (hrole : auth.consoleRole ≠ .admin) {id : String} :
    (cloneProfile fmt auth id).SameAnswers exec (AgreeFor auth.userId) (fun _ _ => True) := by
  have hret : ∀ {α : Type} (a : α), (Prog.ret a : Program α).SameAnswers exec
      (AgreeFor auth.userId) (fun _ _ => True) := fun a =>
    (SameAnswers.ret a).mono fun _ _ _ => trivial
  unfold cloneProfile
  cases authorize auth .createProfile with
  | error => exact hret _
  | ok =>
    refine (getChecked_alike hrole).bind fun r => ?_
    obtain e | source := r
    · exact hret _
    · refine newId_alike.bind fun newId => now_alike.bind fun now => ?_
      refine (validated_alike (u := auth.userId) fmt rfl).bind fun r => ?_
      obtain e | warnings := r
      · exact hret _
      · refine (insertProfile_alike _).bind fun r => ?_
        obtain e | _ := r
        · exact .ret _
        · exact .ret _

/-! ## The versions -/

def versionsAfter (auth : AuthenticatedUser) (id : String) (current : Option ProfileRow) :
    Program (Except ProfileError (List ListedVersion)) := do
  match (current.map (checkProfileReadAccess auth)).getD (.ok ()) with
  | .error e => return .error e
  | .ok () =>
    match ← perform (Call.listVersions id) with
    | .error e => return .error (.database e)
    | .ok versions => return .ok (versions.map listedVersion)

variable {env : ℕ → Outside}

theorem listVersions_run_ok (henv : (env 0).dbError = none) (id : String)
    (t : ProfileTable) : ((listVersions auth id).run exec env t).result =
      ((versionsAfter auth id (t.getCurrent id)).run exec (fun n => env (n + 1)) t).result := by
  have hexec : exec (.getCurrent id) (env 0) t = (.ok (t.getCurrent id), t) := by
    simp [exec, ProfileTable.statement, henv]
  rw [listVersions, run_perform hexec]
  rfl

theorem listVersions_run_error {e : DbError}
    (henv : (env 0).dbError = some e) (id : String) (t : ProfileTable) :
    ((listVersions auth id).run exec env t).result = .error (.database e) := by
  have hexec : exec (.getCurrent id) (env 0) t = (.error e, t) := by
    simp [exec, ProfileTable.statement, henv]
  rw [listVersions, run_perform hexec]
  rfl

variable {id : String}

theorem versionsAfter_alike (hrows : t.listVersions id = t'.listVersions id)
    {current : Option ProfileRow} : ((versionsAfter auth id current).run exec env t).result =
      ((versionsAfter auth id current).run exec env t').result := by
  have hsame : (versionsAfter auth id current).SameAnswers exec
      (fun s s' => s = t ∧ s' = t') (fun _ _ => True) := by
    unfold versionsAfter
    cases (current.map (checkProfileReadAccess auth)).getD (.ok ()) with
    | error => exact (SameAnswers.ret _).mono fun _ _ _ => trivial
    | ok =>
      refine SameAnswers.bind (Q := fun _ _ => True) (SameAnswers.perform ?_) fun r => ?_
      · rintro o s s' ⟨rfl, rfl⟩
        refine ⟨?_, trivial⟩
        simp only [exec, ProfileTable.statement, hrows]
        cases o.dbError with
        | some | none => rfl
      · obtain e | versions := r
        · exact .ret _
        · exact .ret _
  exact (hsame env t t' ⟨rfl, rfl⟩).1

/-- The versions of a hidden profile are asked for, and it has rows but no live one. -/
def ShowsHidden (u : String) (t : ProfileTable) : ReadRequest → Prop
  | .versions id => t.Hidden u id ∧ (∃ r ∈ t.rows, r.id = id) ∧ t.getCurrent id = none
  | _ => False

theorem versionsAfter_of_hidden (hrole : auth.consoleRole ≠ .admin) {id : String} {r : ProfileRow}
    (h : r.ownerUserId ≠ auth.userId ∧ r.visibility ≠ "shared") : versionsAfter auth id (some r) =
      .ret (.error (.console (.forbidden "You do not have access to this profile"))) := by
  simp only [versionsAfter, Option.map_some, Option.getD_some,
    checkProfileReadAccess_of_hidden hrole h]
  rfl

theorem listVersions_eq_of_absent (h : AgreeFor u t t') (hnone : ∀ r ∈ t.rows, r.id ≠ id) :
    t.listVersions id = t'.listVersions id := by
  have hnone' : ∀ r ∈ t'.rows, r.id ≠ id := by
    intro r hr hrid
    have hkey : r.key ∈ t.rows.map key := by
      rw [h.keys_eq]
      exact mem_map_of_mem hr
    obtain ⟨s, hs, hskey⟩ := mem_map.mp hkey
    exact hnone s hs ((congrArg Prod.fst hskey).trans hrid)
  unfold ProfileTable.listVersions
  rw [filter_eq_nil_iff.mpr (by simpa using hnone), filter_eq_nil_iff.mpr (by simpa using hnone')]

theorem listVersions_alike (hrole : auth.consoleRole ≠ .admin) (h : AgreeFor auth.userId t t')
    (hshows : ¬ ShowsHidden auth.userId t (.versions id)) :
    ((listVersions auth id).run exec env t).result =
      ((listVersions auth id).run exec env t').result := by
  cases henv : (env 0).dbError with
  | some => rw [listVersions_run_error henv, listVersions_run_error henv]
  | none =>
    rw [listVersions_run_ok henv, listVersions_run_ok henv]
    obtain heq | ⟨r, r', hr, hr', hhid, hhid'⟩ := h.getCurrent_cases
    · rw [← heq]
      by_cases hid : t.Hidden auth.userId id
      · cases hcur : t.getCurrent id with
        | none =>
          -- hidden and without a live row, so without rows
          exact versionsAfter_alike (listVersions_eq_of_absent h fun r hr hrid =>
            hshows ⟨hid, ⟨r, hr, hrid⟩, hcur⟩)
        | some r =>
          have hp := find?_some hcur
          simp only [Bool.and_eq_true, beq_iff_eq] at hp
          rw [versionsAfter_of_hidden hrole (hid r (mem_of_find?_eq_some hcur) hp.1)]
          rfl
      · refine versionsAfter_alike ?_
        unfold ProfileTable.listVersions
        rw [h.rows_eq hid]
    · rw [hr, hr', versionsAfter_of_hidden hrole hhid, versionsAfter_of_hidden hrole hhid']
      rfl

/-! ## A table with other content -/

def ProfileRow.renamed : ProfileRow := { r with name := r.name ++ "2" }

theorem ProfileRow.key_renamed : r.renamed.key = r.key := rfl

def ProfileTable.renamed (t : ProfileTable) (id : String) : ProfileTable where
  rows := updateWhere (fun r => r.id == id) ProfileRow.renamed t.rows
  keys := by
    rw [map_updateWhere _ ProfileRow.key_renamed]
    exact t.keys

theorem renamed_hidden (h : t.Hidden u id) : (t.renamed id).Hidden u id := by
  intro r hr hid
  obtain ⟨s, hs, hp, rfl⟩ | ⟨hs, hp⟩ := mem_updateWhere.mp hr
  · exact h s hs hid
  · exact h r hs hid

theorem agreeFor_renamed (h : t.Hidden u id) : AgreeFor u t (t.renamed id) := by
  change List.Forall₂ _ t.rows (t.rows.map _)
  rw [forall₂_map_right_iff, forall₂_same]
  intro r hr
  by_cases hid : r.id = id
  · rw [if_pos (by simpa using hid)]
    refine .inr ⟨⟨rfl, rfl, rfl⟩, hid ▸ h, ?_⟩
    have hsame : r.renamed.id = id := hid
    rw [hsame]
    exact renamed_hidden h
  · rw [if_neg (by simpa using hid)]
    exact .inl rfl

theorem filter_renamed {id : String} :
    (updateWhere (fun r => r.id == id) renamed rows).filter (fun r => r.id == id) =
      (rows.filter fun r => r.id == id).map renamed := by
  unfold updateWhere
  induction rows with
  | nil => rfl
  | cons r rows ih =>
    by_cases hid : r.id = id
    · have hid' : r.renamed.id = id := hid
      simpa [hid, hid'] using ih
    · simpa [hid] using ih

theorem listVersions_renamed (t : ProfileTable) (id : String) :
    (t.renamed id).listVersions id = (t.listVersions id).map ProfileRow.renamed := by
  unfold ProfileTable.listVersions
  rw [map_insertionSort (fun a b : ProfileRow => b.version ≤ a.version)
    (fun a b : ProfileRow => b.version ≤ a.version) ProfileRow.renamed _ fun _ _ _ _ => Iff.rfl]
  exact congrArg _ filter_renamed

theorem renamed_name_ne : r.renamed.name ≠ r.name := by
  intro h
  have hlength := congrArg String.length h
  simp [renamed] at hlength

theorem listVersions_shows (hcur : t.getCurrent id = none) :
    ((listVersions auth id).run exec (fun _ => willing) t).result =
      .ok ((t.listVersions id).map listedVersion) := by
  rw [listVersions_run_ok rfl, hcur]
  rfl

theorem listVersions_renamed_ne (hhid : t.Hidden u id) (hrows : ∃ r ∈ t.rows, r.id = id)
    (hcur : t.getCurrent id = none) :
    ((listVersions auth id).run exec (fun _ => willing) t).result ≠
      ((listVersions auth id).run exec (fun _ => willing)
        (t.renamed id)).result := by
  have hcur' : (t.renamed id).getCurrent id = none := by
    obtain heq | ⟨r, -, hr, -⟩ := (agreeFor_renamed hhid).getCurrent_cases
    · rw [← heq, hcur]
    · rw [hcur] at hr
      cases hr
  rw [listVersions_shows hcur, listVersions_shows hcur', listVersions_renamed, map_map]
  intro heq
  obtain ⟨r, hr, hid⟩ := hrows
  have hmem : r ∈ t.listVersions id := by
    refine (perm_insertionSort _ _).mem_iff.mpr (mem_filter.mpr ⟨hr, ?_⟩)
    simpa using hid
  have hall := map_inj_left.mp (Except.ok.inj heq) r hmem
  exact renamed_name_ne r (congrArg ListedVersion.name hall).symm

/-! ## The endpoints -/

theorem program_result {α : Type} {β : Type} (p : Program (Except ProfileError α)) (f : α → β)
    (env : ℕ → Outside) (t : ProfileTable) :
    ((do return (← p).map f : Program (Except ProfileError β)).run exec env t).result =
      (p.run exec env t).result.map f := by
  rw [run_bind]
  rfl

theorem eq_of_map_versions_eq {a b : Except ProfileError (List ListedVersion)}
    (h : a.map ReadResponse.versions = b.map ReadResponse.versions) : a = b := by
  cases a with
  | error =>
    cases b with
    | error =>
      cases h
      rfl
    | ok => cases h
  | ok =>
    cases b with
    | error => cases h
    | ok =>
      cases h
      rfl

/-- **What the endpoints show of private profiles** to a user who is not an admin. -/
theorem reads_alike_iff (fmt : Formats) (yaml : ProfileYaml → Except String String)
    (auth : AuthenticatedUser) (hrole : auth.consoleRole ≠ .admin) (request : ReadRequest)
    (t : ProfileTable) : (∀ t', AgreeFor auth.userId t t' → ∀ env,
      ((request.program fmt yaml auth).run exec env t).result =
        ((request.program fmt yaml auth).run exec env t').result) ↔
      ¬ ShowsHidden auth.userId t request := by
  cases request with
  | list params =>
    refine iff_of_true (fun t' h env => ?_) fun h => h
    simp [ReadRequest.program, program_result, (listProfiles_alike hrole env t t' h).1]
  | get id =>
    refine iff_of_true (fun t' h env => ?_) fun h => h
    simp [ReadRequest.program, program_result, (getProfile_alike fmt hrole env t t' h).1]
  | exportYaml id =>
    refine iff_of_true (fun t' h env => ?_) fun h => h
    simp [ReadRequest.program, program_result, (exportProfile_alike fmt hrole env t t' h).1]
  | clone id =>
    refine iff_of_true (fun t' h env => ?_) fun h => h
    simp [ReadRequest.program, program_result, (cloneProfile_alike fmt hrole env t t' h).1]
  | versions =>
    constructor
    · rintro halike ⟨hhid, hrows, hcur⟩
      have hsame := halike _ (agreeFor_renamed hhid) fun _ => willing
      simp only [ReadRequest.program, program_result] at hsame
      exact listVersions_renamed_ne hhid hrows hcur (eq_of_map_versions_eq hsame)
    · intro hshows t' h env
      simp [ReadRequest.program, program_result, listVersions_alike hrole h hshows]

end Parts

/-! ## A deleted profile -/

variable (name : String) (deletedAt : Option String)

def privateRow : ProfileRow :=
  { id := "p", version := 1, name := name, description := none, tags := none, roleRef := "worker"
    llmProvider := "provider", llmModel := "model", llmTemperature := none, llmMaxTokens := none
    autonomy := "assisted", toolAllowlist := none, toolDenylist := none
    budgetMaxCostMicros := none, budgetMaxTokens := none, budgetMaxWallTimeMs := none
    budgetWarningThreshold := none, ownerUserId := "u1", visibility := "private"
    isCurrent := true, createdAt := "t", deletedAt := deletedAt }

def privateTable : ProfileTable :=
  ⟨[privateRow name deletedAt], nodup_singleton _⟩

theorem privateTable_hidden : (privateTable name deletedAt).Hidden "u2" "p" := by
  intro r hr _
  rw [mem_singleton.mp hr]
  change "u1" ≠ "u2" ∧ "private" ≠ "shared"
  decide

theorem agreeFor_privateTable (name' : String) (deletedAt : Option String) :
    AgreeFor "u2" (privateTable name deletedAt) (privateTable name' deletedAt) :=
  List.Forall₂.cons (.inr ⟨⟨rfl, rfl, rfl⟩, privateTable_hidden name deletedAt,
    privateTable_hidden name' deletedAt⟩) .nil

def otherUser : AuthenticatedUser := ⟨"u2", "bob", .viewer⟩

def askVersions : Program (Except ProfileError ReadResponse) :=
  (ReadRequest.versions "p").program plainFormats (fun _ => .ok "") otherUser

theorem live_versions_alike :
    AgreeFor "u2" (privateTable "plan a" none) (privateTable "plan b" none) ∧
      ∀ env, (askVersions.run exec env (privateTable "plan a" none)).result =
        (askVersions.run exec env (privateTable "plan b" none)).result := by
  have hagree := agreeFor_privateTable "plan a" "plan b" none
  refine ⟨hagree, ?_⟩
  refine (reads_alike_iff plainFormats (fun _ => .ok "") otherUser (by decide)
    (.versions "p") (privateTable "plan a" none)).mpr ?_ _ hagree
  rintro ⟨-, -, hcur⟩
  cases hcur

theorem deleted_versions_shown : otherUser.consoleRole ≠ .admin ∧
      AgreeFor "u2" (privateTable "plan a" (some "d")) (privateTable "plan b" (some "d")) ∧
      (askVersions.run exec (fun _ => willing) (privateTable "plan a" (some "d"))).result ≠
        (askVersions.run exec (fun _ => willing)
          (privateTable "plan b" (some "d"))).result := by
  refine ⟨by decide, agreeFor_privateTable "plan a" "plan b" (some "d"), ?_⟩
  simp only [askVersions, ReadRequest.program, program_result]
  intro heq
  have hversions := eq_of_map_versions_eq heq
  rw [listVersions_shows rfl, listVersions_shows rfl] at hversions
  exact absurd (Except.ok.inj hversions) (by decide)

end Wacp.Console.Profiles
