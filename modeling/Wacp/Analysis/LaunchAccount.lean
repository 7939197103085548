import Wacp.Analysis.LaunchProtocol

/-!
# What a component does to workspaces

The phase of a component says which workspaces it created, aborted and handed over to the session
(`Account`).
-/

namespace Wacp.Console

open Library Prog List

variable {log : List (Exchange Call Reply)} {x : Exchange Call Reply} {pre : List String}
  {φ φ' : Phase}

/-! ## Logs that grow -/

theorem filterMap_snoc {f : Exchange Call Reply → Option String} :
    (log ++ [x]).filterMap f = log.filterMap f ++ (f x).toList := by
  rw [filterMap_append]
  cases h : f x <;> simp [h]

@[simp] theorem created_snoc : created (log ++ [x]) = created log ++ (createdBy x).toList :=
  filterMap_snoc

@[simp] theorem aborted_snoc : aborted (log ++ [x]) = aborted log ++ (abortedBy x).toList :=
  filterMap_snoc

@[simp] theorem committed_snoc : committed (log ++ [x]) = committed log ++ (committedBy x).toList :=
  filterMap_snoc

@[simp] theorem reads_snoc : reads (log ++ [x]) = reads log ++ (readBy x).toList :=
  filterMap_snoc

/-! ## The account -/

/-- What a component has created, handed over and aborted; `pre` it aborted without creating it. -/
def Account (log : List (Exchange Call Reply)) (pre : List String) : Phase → Prop
  | .fresh seen =>
    created log = [] ∧ committed log = [] ∧ aborted log = pre ∧ seen ⊆ reads log
  | .validating | .loading | .loaded | .stuck =>
    created log = [] ∧ committed log = [] ∧ aborted log = pre
  | .building rootWs own =>
    created log = rootWs :: own ∧ committed log = [] ∧ aborted log = pre
  | .aborting left =>
    ∃ done, created log = done ++ left ∧ committed log = [] ∧ aborted log = pre ++ done
  | .settled => committed log = [] ∧ aborted log = pre ++ created log
  | .leaked => created log ≠ [] ∧ committed log = [] ∧ aborted log = pre
  | .committed =>
    ∃ rootWs own, own ≠ [] ∧ created log = rootWs :: own ∧ committed log = [rootWs] ∧
      aborted log = pre

theorem Account.idle (h : Account log pre φ) (hc : createdBy x = none) (ha : abortedBy x = none)
    (hm : committedBy x = none) : Account (log ++ [x]) pre φ := by
  have hcreated : created (log ++ [x]) = created log := by simp [hc]
  have haborted : aborted (log ++ [x]) = aborted log := by simp [ha]
  have hcommitted : committed (log ++ [x]) = committed log := by simp [hm]
  have hreads : reads log ⊆ reads (log ++ [x]) := by simp
  cases φ with
  | fresh =>
    obtain ⟨hcreated₀, hcommitted₀, haborted₀, hseen⟩ := h
    exact ⟨hcreated.trans hcreated₀, hcommitted.trans hcommitted₀, haborted.trans haborted₀,
      List.Subset.trans hseen hreads⟩
  | _ =>
    simp only [Account, hcreated, haborted, hcommitted] at h ⊢
    exact h

theorem Account.plain (h : Account log pre φ) (hx : Plain x) : Account (log ++ [x]) pre φ :=
  h.idle hx.created hx.aborted hx.committed

theorem Account.settle (h : Account log pre .loading) : Account log pre .settled := by
  obtain ⟨hcreated, hcommitted, haborted⟩ := h
  exact ⟨hcommitted, by rw [haborted, hcreated, append_nil]⟩

theorem Account.nothingToAbort (h : Account log pre .loaded) : Account log pre (.aborting []) := by
  obtain ⟨hcreated, hcommitted, haborted⟩ := h
  exact ⟨[], hcreated, hcommitted, by rw [haborted, append_nil]⟩

theorem lists_of_created {l : List String} {w : String}
    (h : created log = l ∧ committed log = [] ∧ aborted log = pre) (hc : createdBy x = some w)
    (ha : abortedBy x = none) (hm : committedBy x = none) :
    created (log ++ [x]) = l ++ [w] ∧ committed (log ++ [x]) = [] ∧
      aborted (log ++ [x]) = pre := by
  obtain ⟨hcreated, hcommitted, haborted⟩ := h
  simp [hcreated, hcommitted, haborted, hc, ha, hm]

theorem account_of_updates {f t : SessionState} {r : Except DbError Bool}
    (h : Account log pre φ) (hupdates : Phase.Updates φ f t r φ') :
    Account (log ++ [⟨.transitionState f t, r⟩]) pre φ' := by
  have hsame : Account (log ++ [⟨.transitionState f t, r⟩]) pre φ := h.idle rfl rfl rfl
  cases hupdates with
  | take =>
    obtain ⟨hcreated, hcommitted, haborted, -⟩ := hsame
    exact ⟨hcreated, hcommitted, haborted⟩
  | takeRefused =>
    obtain ⟨hcreated, hcommitted, haborted, -⟩ := hsame
    exact Account.settle ⟨hcreated, hcommitted, haborted⟩
  | complete | fail | proceed | markLeaked => exact hsame
  | giveBack | proceedRefused => exact Account.settle hsame
  | markFailed =>
    obtain ⟨done, hcreated, hcommitted, haborted⟩ := hsame
    exact ⟨hcommitted, by rw [haborted, hcreated, append_nil]⟩

/-- **One exchange.** Only a component that has not begun to launch adds to `pre`. -/
theorem account_step (h : Account log pre φ) (hx : Phase.Allows φ x φ') :
    Account (log ++ [x]) pre φ' ∨
      ∃ seen, φ = .fresh seen ∧ ∃ w ∈ seen, Account (log ++ [x]) (pre ++ [w]) φ' := by
  cases hx with
  | update hupdates => exact .inl (account_of_updates h hupdates)
  | cancel | load | loadRefused | monitor => exact .inl (h.idle rfl rfl rfl)
  | read seen row =>
    obtain ⟨hcreated, hcommitted, haborted, hseen⟩ := h.idle
      (x := (⟨.getById, .ok (some row)⟩ : Exchange Call Reply)) rfl rfl rfl
    refine .inl ⟨hcreated, hcommitted, haborted, append_subset.mpr ⟨?_, hseen⟩⟩
    rw [reads_snoc]
    exact subset_append_right _ _
  | look seen x hx => exact .inl (h.plain hx)
  | abortSeen seen request r hmem =>
    obtain ⟨hcreated, hcommitted, haborted, hseen⟩ := h
    refine .inr ⟨seen, rfl, request.workspaceId, hmem, ?_, ?_, ?_, ?_⟩
    · simp [hcreated, createdBy]
    · simp [hcommitted, committedBy]
    · simp [haborted, abortedBy]
    · simpa [readBy] using hseen
  | check x hx => exact .inl (h.plain hx)
  | loadOther => exact .inl (Account.settle (h.idle rfl rfl rfl))
  | ask x hx => exact .inl (h.plain hx)
  | unassigned x hx => exact .inl (Account.nothingToAbort (h.plain hx))
  | stop x hx => exact .inl (h.plain hx)
  | goal | dispatched => exact .inl (lists_of_created h rfl rfl rfl)
  | goalRefused =>
    exact .inl (Account.nothingToAbort (h.idle rfl rfl rfl))
  | build rootWs own x hx => exact .inl (h.plain hx)
  | leave rootWs own x hx =>
    obtain ⟨hcreated, hcommitted, haborted⟩ := h.plain hx
    exact .inl ⟨by simp [hcreated], hcommitted, haborted⟩
  | rollback =>
    obtain ⟨hcreated, hcommitted, haborted⟩ := h.idle
      (x := (⟨.coordinator, true⟩ : Exchange Call Reply)) rfl rfl rfl
    exact .inl ⟨[], hcreated, hcommitted, by rw [haborted, append_nil]⟩
  | commit rootWs launched hne =>
    obtain ⟨hcreated, hcommitted, haborted⟩ := h
    refine .inl ⟨rootWs, launched.map (·.workspaceId), by simpa using hne, ?_, ?_, ?_⟩
    · simp [hcreated, createdBy]
    · simp [hcommitted, committedBy]
    · simp [haborted, abortedBy]
  | abort request =>
    obtain ⟨done, hcreated, hcommitted, haborted⟩ := h
    refine .inl ⟨done ++ [request.workspaceId], ?_, ?_, ?_⟩
    · simp [hcreated, createdBy]
    · simp [hcommitted, committedBy]
    · simp [haborted, abortedBy]

theorem account_of_log (h : log.foldlM Phase.next (.fresh []) = some φ) :
    ∃ pre, pre ⊆ reads log ∧ Account log pre φ := by
  refine log_keeps (fun φ log => ∃ pre, pre ⊆ reads log ∧ Account log pre φ) ?_ ?_ h
  · exact ⟨[], nil_subset _, rfl, rfl, rfl, nil_subset _⟩
  · rintro φ φ' log x ⟨pre, hpre, haccount⟩ hnext
    have hreads : reads log ⊆ reads (log ++ [x]) := by simp
    have hpre' := List.Subset.trans hpre hreads
    obtain hstep | ⟨seen, rfl, w, hw, hstep⟩ :=
      account_step haccount (Phase.allows_of_next hnext)
    · exact ⟨pre, hpre', hstep⟩
    · have hseen : seen ⊆ reads log := haccount.2.2.2
      refine ⟨pre ++ [w], append_subset.mpr ⟨hpre', ?_⟩, hstep⟩
      exact cons_subset.mpr ⟨hreads (hseen hw), nil_subset _⟩

end Wacp.Console
