import Wacp.Analysis.TreeInvariant

/-!
# The cascade against its reference

By `topology.md` the cascade fails the owner's non-terminal nodes from the failed workspace down,
and moves non-terminal children of others under the root. `cascade_failure` runs over all
descendants: it also fails nodes below somebody else's, overwrites Closed, and tears moved subtrees
apart.
-/

namespace Wacp.WorkspaceTree

open Relation Library Library.Forest TransGen

variable {t t' : WorkspaceTree} {id : WorkspaceId} {moved : List WorkspaceId}

/-- The nodes of the reference search: `id`, and the non-terminal children of its owner from there
on. -/
inductive Doomed (t : WorkspaceTree) (id : WorkspaceId) : WorkspaceId → Prop where
  | self : Doomed t id id
  | child {p c : WorkspaceId} (hp : Doomed t id p) (hc : t.parentOf c = some p)
      (hlive : t.Live c) (howner : t.ownerOf c = t.ownerOf id) : Doomed t id c

/-- The nodes that become Failed; all non-terminal ones when the root fails. -/
def ReferenceFails (t : WorkspaceTree) (id w : WorkspaceId) : Prop :=
  if id = t.root then w = id ∨ t.Live w else t.Doomed id w

def ReferenceMoves (t : WorkspaceTree) (id c : WorkspaceId) : Prop :=
  id ≠ t.root ∧ t.Live c ∧ t.ownerOf c ≠ t.ownerOf id ∧
    ∃ p, t.parentOf c = some p ∧ t.Doomed id p

structure MeetsReference (t t' : WorkspaceTree) (id : WorkspaceId) (moved : List WorkspaceId) :
    Prop where
  fails : ∀ w, t.ReferenceFails id w → t'.statusOf w = some .failed
  keeps : ∀ w, ¬ t.ReferenceFails id w → t'.statusOf w = t.statusOf w
  returns : ∀ c, c ∈ moved ↔ t.ReferenceMoves id c
  once : moved.Nodup
  moves : ∀ c, t.ReferenceMoves id c → t'.parentOf c = some t.root ∧ c ∈ t'.children t.root
  stays : ∀ c, ¬ t.ReferenceMoves id c → t'.parentOf c = t.parentOf c
  inside : ∀ c w, t.ReferenceMoves id c → w = c ∨ Below t.parentOf w c →
    t'.statusOf w = t.statusOf w ∧ t'.children w = t.children w ∧
      (w ≠ c → t'.parentOf w = t.parentOf w)
  owners : ∀ w, t'.ownerOf w = t.ownerOf w

/-- For the root: every descendant is of its owner and none Closed. Otherwise no descendant is
Closed, no foreign one Failed, and below a foreign or Failed one all are Failed and of the owner. -/
def CascadeSafe (t : WorkspaceTree) (id : WorkspaceId) : Prop :=
  if id = t.root then
    ∀ d, Below t.parentOf d id →
      t.ownerOf d = t.ownerOf id ∧ t.statusOf d ≠ some .closed
  else
    ∀ d, Below t.parentOf d id →
      t.statusOf d ≠ some .closed ∧
      (t.ownerOf d ≠ t.ownerOf id → t.statusOf d ≠ some .failed) ∧
      ∀ x, Below t.parentOf d x → Below t.parentOf x id →
        (t.ownerOf x ≠ t.ownerOf id ∨ t.statusOf x = some .failed) →
          t.statusOf d = some .failed ∧ t.ownerOf d = t.ownerOf id

/-! ## The reference search -/

theorem Doomed.cases' {w : WorkspaceId} (h : t.Doomed id w) :
    w = id ∨ Below t.parentOf w id ∧ t.Live w ∧ t.ownerOf w = t.ownerOf id := by
  induction h with
  | self => exact .inl rfl
  | child hp hc hlive howner ih =>
    refine .inr ⟨?_, hlive, howner⟩
    rcases ih with rfl | ⟨hbelow, -, -⟩
    · exact single hc
    · exact head hc hbelow

theorem Doomed.between {d x : WorkspaceId} (h : t.Doomed id d) (hdx : Below t.parentOf d x)
    (hxi : Below t.parentOf x id) (hacyc : ∀ y, ¬ Below t.parentOf y y) : t.Doomed id x := by
  induction h with
  | self => exact absurd (trans hdx hxi) (hacyc id)
  | child hp hc _ _ ih =>
    rcases (below_iff_of_up hc).mp hdx with rfl | hpx
    · exact hp
    · exact ih hpx

theorem doomed_parent {d : WorkspaceId} (h : Below t.parentOf d id)
    (hpath : ∀ x, Below t.parentOf d x → Below t.parentOf x id →
      t.Live x ∧ t.ownerOf x = t.ownerOf id) :
    ∃ p, t.parentOf d = some p ∧ t.Doomed id p := by
  -- induction from the end of the path towards `id`
  induction h using head_induction_on with
  | single hup => exact ⟨id, hup, Doomed.self⟩
  | @head a b hup hbelow ih =>
    have hb := hpath b (single hup) hbelow
    obtain ⟨q, hq, hdq⟩ := ih fun x hbx hx => hpath x (head hup hbx) hx
    exact ⟨b, hup, Doomed.child hdq hq hb.1 hb.2⟩

/-! ## When the root fails -/

theorem referenceFails_root (hroot : id = t.root) (w : WorkspaceId) :
    t.ReferenceFails id w ↔ w = id ∨ t.Live w := by
  simp [ReferenceFails, hroot]

theorem not_referenceMoves_root (hroot : id = t.root) (c : WorkspaceId) :
    ¬ t.ReferenceMoves id c := fun h => h.1 hroot

theorem safe_of_meets_root (hwf : t.WellFormed) (hres : t.CascadeResult t' id moved)
    (hroot : id = t.root) (hmeets : t.MeetsReference t' id moved) {d : WorkspaceId}
    (hd : Below t.parentOf d id) : t.ownerOf d = t.ownerOf id ∧ t.statusOf d ≠ some .closed := by
  have howner : t.ownerOf d = t.ownerOf id := by
    by_contra hne
    have hmem := (hres.mem_moved d).mpr ⟨hd, hne⟩
    exact not_referenceMoves_root hroot d ((hmeets.returns d).mp hmem)
  refine ⟨howner, fun hclosed => ?_⟩
  have hfailed := hres.status_hit d (.inr ⟨hd, howner⟩)
  have hnot : ¬ t.ReferenceFails id d := by
    rw [referenceFails_root hroot]
    rintro (rfl | hlive)
    · exact hwf.acyclic d hd
    · exact hlive.ne_closed hclosed
  have hkept := hmeets.keeps d hnot
  rw [hfailed, hclosed] at hkept
  cases hkept

theorem meets_of_safe_root (hwf : t.WellFormed) (hres : t.CascadeResult t' id moved)
    (hroot : id = t.root) (hsafe : ∀ d, Below t.parentOf d id →
      t.ownerOf d = t.ownerOf id ∧ t.statusOf d ≠ some .closed) :
    t.MeetsReference t' id moved := by
  have hempty : ∀ c, c ∉ moved := by
    intro c hc
    obtain ⟨hbelow, hne⟩ := (hres.mem_moved c).mp hc
    exact hne (hsafe c hbelow).1
  have hno := not_referenceMoves_root hroot
  refine ⟨?_, ?_, ?_, hres.nodup, ?_, ?_, ?_, hres.owner⟩
  · intro w hw
    rw [referenceFails_root hroot] at hw
    by_cases hwid : w = id
    · exact hres.status_hit w (.inl hwid)
    · have hlive : t.Live w := hw.resolve_left hwid
      obtain ⟨s, hs, -⟩ := hlive
      obtain ⟨n, hn, -⟩ := Option.map_eq_some_iff.mp hs
      have hreach := hwf.rooted w n hn
      rw [← hroot] at hreach
      have hbelow : Below t.parentOf w id := by
        rcases reflTransGen_iff_eq_or_transGen.mp hreach with h | h
        · exact absurd h.symm hwid
        · exact h
      exact hres.status_hit w (.inr ⟨hbelow, (hsafe w hbelow).1⟩)
  · intro w hw
    rw [referenceFails_root hroot, not_or] at hw
    by_cases hhit : t.Hit id w
    · rcases hhit with h | ⟨hbelow, howner⟩
      · exact absurd h hw.1
      · obtain ⟨n, hn⟩ := get_of_below hbelow
        have hfailed : t.statusOf w = some .failed := by
          by_contra hf
          exact hw.2 (live_of_ne hn (hsafe w hbelow).2 hf)
        rw [hfailed]
        exact hres.status_hit w (.inr ⟨hbelow, howner⟩)
    · exact hres.status_kept w hhit
  · intro c
    exact ⟨fun h => absurd h (hempty c), fun h => absurd h (hno c)⟩
  · intro c hc
    exact absurd hc (hno c)
  · intro c _
    rw [hres.parent, if_neg (hempty c)]
  · intro c w hc
    exact absurd hc (hno c)

/-! ## When another node fails -/

theorem safe_iff_agrees (hwf : t.WellFormed) (hroot : id ≠ t.root) :
    t.CascadeSafe id ↔ ∀ d, Below t.parentOf d id →
      (t.ownerOf d = t.ownerOf id → t.Doomed id d ∨ t.statusOf d = some .failed) ∧
      (t.ownerOf d ≠ t.ownerOf id → t.ReferenceMoves id d) := by
  unfold CascadeSafe
  rw [if_neg hroot]
  constructor
  · intro hsafe d hd
    have hlive : ∀ x, Below t.parentOf x id → t.statusOf x ≠ some .failed → t.Live x := by
      intro x hx hfailed
      obtain ⟨n, hn⟩ := get_of_below hx
      exact live_of_ne hn (hsafe x hx).1 hfailed
    -- if `d` itself is not a Failed node of the owner, the path to it is clear
    have hpath : ¬ (t.statusOf d = some .failed ∧ t.ownerOf d = t.ownerOf id) →
        ∃ p, t.parentOf d = some p ∧ t.Doomed id p := by
      intro hd'
      apply doomed_parent hd
      intro x hdx hx
      have hclear : ¬ (t.ownerOf x ≠ t.ownerOf id ∨ t.statusOf x = some .failed) :=
        fun hbad => hd' ((hsafe d hd).2.2 x hdx hx hbad)
      rw [not_or, not_not] at hclear
      exact ⟨hlive x hx hclear.2, hclear.1⟩
    constructor
    · intro howner
      by_cases hfailed : t.statusOf d = some .failed
      · exact .inr hfailed
      · obtain ⟨p, hp, hdp⟩ := hpath fun h => hfailed h.1
        exact .inl (Doomed.child hdp hp (hlive d hd hfailed) howner)
    · intro howner
      refine ⟨hroot, hlive d hd ((hsafe d hd).2.1 howner), howner, hpath fun h => howner h.2⟩
  · intro hagree d hd
    obtain ⟨hsame, hother⟩ := hagree d hd
    refine ⟨?_, fun howner => (hother howner).2.1.ne_failed, ?_⟩
    · by_cases howner : t.ownerOf d = t.ownerOf id
      · rcases hsame howner with hdoomed | hfailed
        · rcases hdoomed.cases' with rfl | ⟨-, hlive, -⟩
          · exact absurd hd (hwf.acyclic d)
          · exact hlive.ne_closed
        · rw [hfailed]
          simp
      · exact (hother howner).2.1.ne_closed
    · intro x hdx hx hbad
      have hnot : ¬ t.Doomed id x := by
        intro hdoomed
        rcases hdoomed.cases' with rfl | ⟨-, hlive, howner⟩
        · exact hwf.acyclic x hx
        · exact hbad.elim (fun h => h howner) hlive.ne_failed
      by_cases howner : t.ownerOf d = t.ownerOf id
      · refine ⟨(hsame howner).resolve_left fun hdoomed => hnot ?_, howner⟩
        exact hdoomed.between hdx hx hwf.acyclic
      · obtain ⟨-, -, -, p, hp, hdoomed⟩ := hother howner
        rcases (below_iff_of_up hp).mp hdx with rfl | hpx
        · exact absurd hdoomed hnot
        · exact absurd (hdoomed.between hpx hx hwf.acyclic) hnot

theorem referenceFails_iff (hroot : id ≠ t.root) (w : WorkspaceId) :
    t.ReferenceFails id w ↔ t.Doomed id w := by
  simp [ReferenceFails, hroot]

theorem ReferenceMoves.below {c : WorkspaceId} (h : t.ReferenceMoves id c) :
    Below t.parentOf c id := by
  obtain ⟨-, -, -, p, hp, hdoomed⟩ := h
  rcases hdoomed.cases' with rfl | ⟨hbelow, -, -⟩
  · exact single hp
  · exact head hp hbelow

theorem ReferenceMoves.not_below {c w : WorkspaceId} (h : t.ReferenceMoves id c)
    (hwc : Below t.parentOf w c) (hacyc : ∀ y, ¬ Below t.parentOf y y) :
    ¬ t.Doomed id w ∧ ¬ t.ReferenceMoves id w := by
  have hc : ¬ t.Doomed id c := by
    intro hdoomed
    rcases hdoomed.cases' with rfl | ⟨-, -, howner⟩
    · exact h.2.2.1 rfl
    · exact h.2.2.1 howner
  refine ⟨fun hdoomed => hc (hdoomed.between hwc h.below hacyc), ?_⟩
  rintro ⟨-, -, -, p, hp, hdoomed⟩
  rcases (below_iff_of_up hp).mp hwc with rfl | hpc
  · exact hc hdoomed
  · exact hc (hdoomed.between hpc h.below hacyc)

theorem moved_iff_of_agrees (hres : t.CascadeResult t' id moved)
    (hagree : ∀ d, Below t.parentOf d id → t.ownerOf d ≠ t.ownerOf id →
      t.ReferenceMoves id d) (c : WorkspaceId) :
    c ∈ moved ↔ t.ReferenceMoves id c := by
  rw [hres.mem_moved]
  exact ⟨fun h => hagree c h.1 h.2, fun h => ⟨h.below, h.2.2.1⟩⟩

theorem meets_of_agrees (hwf : t.WellFormed) (hres : t.CascadeResult t' id moved)
    (hroot : id ≠ t.root) (hagree : ∀ d, Below t.parentOf d id →
      (t.ownerOf d = t.ownerOf id → t.Doomed id d ∨ t.statusOf d = some .failed) ∧
      (t.ownerOf d ≠ t.ownerOf id → t.ReferenceMoves id d)) :
    t.MeetsReference t' id moved := by
  have hmoved := moved_iff_of_agrees hres fun d hd => (hagree d hd).2
  have hkeep : ∀ w, ¬ t.Doomed id w → t'.statusOf w = t.statusOf w := by
    intro w hw
    by_cases hhit : t.Hit id w
    · rcases hhit with rfl | ⟨hbelow, howner⟩
      · exact absurd Doomed.self hw
      · have hfailed := ((hagree w hbelow).1 howner).resolve_left hw
        rw [hfailed]
        exact hres.status_hit w (.inr ⟨hbelow, howner⟩)
    · exact hres.status_kept w hhit
  have hparent : ∀ c, ¬ t.ReferenceMoves id c → t'.parentOf c = t.parentOf c := by
    intro c hc
    rw [hres.parent, if_neg fun h => hc ((hmoved c).mp h)]
  refine ⟨?_, ?_, hmoved, hres.nodup, ?_, hparent, ?_, hres.owner⟩
  · intro w hw
    rw [referenceFails_iff hroot] at hw
    apply hres.status_hit
    rcases hw.cases' with h | ⟨hbelow, -, howner⟩
    · exact .inl h
    · exact .inr ⟨hbelow, howner⟩
  · intro w hw
    rw [referenceFails_iff hroot] at hw
    exact hkeep w hw
  · intro c hc
    have hmem := (hmoved c).mpr hc
    have hup : t'.parentOf c = some t.root := by rw [hres.parent, if_pos hmem]
    exact ⟨hup, (hres.wellFormed.mem_children t.root c).mpr hup⟩
  · intro c w hc hw
    have hbelow : Below t.parentOf w id := by
      rcases hw with rfl | hw
      · exact hc.below
      · exact trans hw hc.below
    have hwroot : w ≠ t.root := fun e => hwf.not_below_root id (e ▸ hbelow)
    have hnot : ¬ t.Doomed id w := by
      rcases hw with rfl | hw
      · intro hdoomed
        rcases hdoomed.cases' with rfl | ⟨-, -, howner⟩
        · exact hc.2.2.1 rfl
        · exact hc.2.2.1 howner
      · exact (hc.not_below hw hwf.acyclic).1
    refine ⟨hkeep w hnot, ?_, fun hwc => ?_⟩
    · -- a child of `w` lies below `c`, so it is not moved
      rw [hres.children, if_neg hwroot, List.append_nil, List.filter_eq_self]
      intro x hx
      have hxw : t.parentOf x = some w := (hwf.mem_children w x).mp hx
      have hxc : Below t.parentOf x c := by
        rcases hw with rfl | hw
        · exact single hxw
        · exact head hxw hw
      simp [hmoved, (hc.not_below hxc hwf.acyclic).2]
    · exact hparent w (hc.not_below (hw.resolve_left hwc) hwf.acyclic).2

theorem agrees_of_meets (hres : t.CascadeResult t' id moved) (hroot : id ≠ t.root)
    (hmeets : t.MeetsReference t' id moved) (d : WorkspaceId) (hd : Below t.parentOf d id) :
    (t.ownerOf d = t.ownerOf id → t.Doomed id d ∨ t.statusOf d = some .failed) ∧
      (t.ownerOf d ≠ t.ownerOf id → t.ReferenceMoves id d) := by
  constructor
  · intro howner
    by_cases hdoomed : t.Doomed id d
    · exact .inl hdoomed
    · have hkept := hmeets.keeps d (by rwa [referenceFails_iff hroot])
      rw [← hkept]
      exact .inr (hres.status_hit d (.inr ⟨hd, howner⟩))
  · intro howner
    exact (hmeets.returns d).mp ((hres.mem_moved d).mpr ⟨hd, howner⟩)

theorem meetsReference_iff (hwf : t.WellFormed) (hres : t.CascadeResult t' id moved) :
    t.MeetsReference t' id moved ↔ t.CascadeSafe id := by
  by_cases hroot : id = t.root
  · unfold CascadeSafe
    rw [if_pos hroot]
    exact ⟨fun hmeets d hd => safe_of_meets_root hwf hres hroot hmeets hd,
      meets_of_safe_root hwf hres hroot⟩
  · rw [safe_iff_agrees hwf hroot]
    exact ⟨agrees_of_meets hres hroot, meets_of_agrees hwf hres hroot⟩

/-- **When `cascade_failure` is the reference cascade**, on every reachable tree. -/
theorem cascade_meets_reference_iff {rootId : WorkspaceId} {owner : UserId}
    (h : Run Step Childless (new rootId owner) t) {node : WorkspaceNode}
    (hid : t.get id = some node) : ∃ t' moved, t.cascadeFailure id = some (t', moved) ∧
      (t.MeetsReference t' id moved ↔ t.CascadeSafe id) := by
  have hwf := wellFormed_run h
  obtain ⟨t', moved, hc, hres⟩ := cascadeFailure_result hwf hid
  exact ⟨t', moved, hc, meetsReference_iff hwf hres⟩

/-! ## A subtree that does not survive -/

def sampleNode (id parent owner : String) : WorkspaceNode :=
  { id := ⟨id⟩, parent := some ⟨parent⟩, children := [], owner := ⟨owner⟩,
    originator := .system, status := .active, taskId := none }

def alternating : List Op :=
  [.insert (sampleNode "a" "root" "alice"), .insert (sampleNode "b" "a" "bob"),
    .insert (sampleNode "c" "b" "alice")]

theorem childless_alternating : ∀ o ∈ alternating, ∀ s, Childless s o := by
  simp [alternating, Childless, sampleNode]

/-- **A cascade that breaks a moved subtree.** When `a` fails, Bob's `b` moves to the root; the code
also fails `c` below it. -/
theorem cascade_fails_inside_moved : ∃ t t' moved, Run Step Childless (new ⟨"root"⟩ ⟨"alice"⟩) t ∧
      (t.get ⟨"a"⟩).isSome ∧ t.cascadeFailure ⟨"a"⟩ = some (t', moved) ∧
      moved = [⟨"b"⟩] ∧ t'.parentOf ⟨"c"⟩ = some ⟨"b"⟩ ∧
      t.statusOf ⟨"c"⟩ = some .active ∧ t'.statusOf ⟨"c"⟩ = some .failed ∧
      ¬ t.MeetsReference t' ⟨"a"⟩ moved := by
  obtain ⟨t, ht⟩ : ∃ t, alternating.foldlM apply (new ⟨"root"⟩ ⟨"alice"⟩) = some t := ⟨_, rfl⟩
  obtain ⟨⟨t', moved⟩, hc⟩ : ∃ r, t.cascadeFailure ⟨"a"⟩ = some r := by
    cases ht
    exact ⟨_, rfl⟩
  have hbefore : (t.get ⟨"a"⟩).isSome ∧ ⟨"a"⟩ ≠ t.root ∧ t.parentOf ⟨"b"⟩ = some ⟨"a"⟩ ∧
      t.parentOf ⟨"c"⟩ = some ⟨"b"⟩ ∧ t.ownerOf ⟨"b"⟩ ≠ t.ownerOf ⟨"a"⟩ ∧
      t.statusOf ⟨"c"⟩ = some .active := by
    cases ht
    decide
  have hafter : moved = [⟨"b"⟩] ∧ t'.parentOf ⟨"c"⟩ = some ⟨"b"⟩ ∧
      t'.statusOf ⟨"c"⟩ = some .failed := by
    cases ht
    cases hc
    decide
  have hrun : Run Step Childless (new ⟨"root"⟩ ⟨"alice"⟩) t := Run.of_foldlM childless_alternating ht
  obtain ⟨hnode, hroot, hba, hcb, howner, hactive⟩ := hbefore
  obtain ⟨hmoved, hparent, hfailed⟩ := hafter
  refine ⟨t, t', moved, hrun, hnode, hc, hmoved, hparent, hactive, hfailed, fun hmeets => ?_⟩
  have hnot : ¬ t.ReferenceFails ⟨"a"⟩ ⟨"c"⟩ := by
    rw [referenceFails_iff hroot]
    intro hdoomed
    have hb := hdoomed.between (single hcb) (single hba) (wellFormed_run hrun).acyclic
    rcases hb.cases' with e | ⟨-, -, hsame⟩
    · exact absurd e (by decide)
    · exact howner hsame
  have hkept := hmeets.keeps _ hnot
  rw [hfailed, hactive] at hkept
  cases hkept

theorem cascade_meets_reference_iff_alternating :
    ∃ t t' moved, Run Step Childless (new ⟨"root"⟩ ⟨"alice"⟩) t ∧
      t.cascadeFailure ⟨"c"⟩ = some (t', moved) ∧
      (t.MeetsReference t' ⟨"c"⟩ moved ↔ t.CascadeSafe ⟨"c"⟩) := by
  have hrun := Run.of_foldlM childless_alternating
    (rfl : alternating.foldlM apply (new ⟨"root"⟩ ⟨"alice"⟩) = some _)
  obtain ⟨t', moved, hc, hiff⟩ :=
    cascade_meets_reference_iff hrun (rfl : WorkspaceTree.get _ ⟨"c"⟩ = some _)
  exact ⟨_, t', moved, hrun, hc, hiff⟩

end Wacp.WorkspaceTree
