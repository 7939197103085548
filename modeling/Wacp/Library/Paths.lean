import Mathlib.Data.List.Infix

/-!
# Lexical paths

A text over an alphabet with a separator and a dot is read as a path. `follow` walks along its
components from a directory, `render` is the absolute path of a directory. `resolve` takes several
texts from right to left and leads where following them from left to right leads. The text of one
directory begins that of another exactly if the other lies below it, or below a sibling whose name
continues its own (`render_prefix_iff`).
-/

namespace Wacp.Library.Paths

open List

variable {α : Type} (sep dot : α)

def render (dir : List (List α)) : List α :=
  if dir = [] then [sep] else dir.flatMap (sep :: ·)

def IsAbsolute (text : List α) : Prop := text.head? = some sep

structure Proper (c : List α) : Prop where
  ne_nil : c ≠ []
  no_sep : sep ∉ c
  ne_dot : c ≠ [dot]
  ne_dots : c ≠ [dot, dot]

theorem isAbsolute_render {dir : List (List α)} : IsAbsolute sep (render sep dir) := by
  cases dir with
  | nil | cons => rfl

section Walking

variable [DecidableEq α]

def components (text : List α) : List (List α) := (text.splitOn sep).filter (· ≠ [])

def walk (dir : List (List α)) (c : List α) : List (List α) :=
  if c = [dot] then dir else if c = [dot, dot] then dir.dropLast else dir ++ [c]

def walkAll (dir : List (List α)) (cs : List (List α)) : List (List α) := cs.foldl (walk dot) dir

instance (text : List α) : Decidable (IsAbsolute sep text) :=
  inferInstanceAs (Decidable (text.head? = some sep))

/-- Where a text leads from a directory; an absolute one starts at the root. -/
def follow (dir : List (List α)) (text : List α) : List (List α) :=
  walkAll dot (if IsAbsolute sep text then [] else dir) (components sep text)

/-- One text in front of those gathered so far, unless these are absolute already. -/
def prepend (text : List α) (gathered : List α × Bool) : List α × Bool :=
  if gathered.2 ∨ text = [] then gathered
  else (text ++ sep :: gathered.1, decide (IsAbsolute sep text))

/-- The texts joined from right to left until the result is absolute, and whether it is. -/
def gather (texts : List (List α)) : List α × Bool := texts.foldr (prepend sep) ([], false)

/-- The absolute path the texts lead to from an absolute current directory. -/
def resolve (cwd : List α) (texts : List (List α)) : List α :=
  render sep (walkAll dot [] (components sep (gather sep (cwd :: texts)).1))

/-! ## Components -/

@[simp] theorem components_nil : components sep ([] : List α) = [] := by
  unfold components
  rw [splitOn_nil]
  rfl

theorem components_append (a b : List α) :
    components sep (a ++ sep :: b) = components sep a ++ components sep b := by
  unfold components List.splitOn
  rw [splitOnP_append_cons a b (by simp), filter_append]

theorem components_sep_cons (a : List α) : components sep (sep :: a) = components sep a := by
  have h := components_append sep [] a
  rwa [components_nil, nil_append, nil_append] at h

variable {c : List α}

theorem components_of_no_sep (hne : c ≠ []) (hsep : sep ∉ c) : components sep c = [c] := by
  unfold components
  rw [splitOn_eq_singleton hsep, filter_cons_of_pos (by simpa using hne), filter_nil]

variable {text : List α}

theorem no_sep_of_mem_splitOn : ∀ c ∈ text.splitOn sep, sep ∉ c := by
  induction text with
  | nil => simp [splitOn_nil]
  | cons x text ih =>
    unfold List.splitOn at ih ⊢
    rw [splitOnP_cons_eq_if_modifyHead]
    by_cases hx : x = sep
    · simp only [hx, beq_self_eq_true, if_true, forall_mem_cons]
      exact ⟨not_mem_nil, ih⟩
    · simp only [beq_iff_eq, hx, if_false]
      -- the head part gets `x` in front, which is no separator
      cases hparts : text.splitOnP (· == sep) with
      | nil => simp
      | cons =>
        rw [hparts, forall_mem_cons] at ih
        rw [modifyHead_cons, forall_mem_cons]
        refine ⟨?_, ih.2⟩
        rw [mem_cons, not_or]
        exact ⟨Ne.symm hx, ih.1⟩

theorem no_sep_of_mem_components (h : c ∈ components sep text) : sep ∉ c :=
  no_sep_of_mem_splitOn sep c (mem_of_mem_filter h)

theorem ne_nil_of_mem_components (h : c ∈ components sep text) : c ≠ [] := by
  simpa using (mem_filter.mp h).2

variable {sep dot} {dir : List (List α)}

theorem components_flatMap (h : ∀ c ∈ dir, Proper sep dot c) :
    components sep (dir.flatMap (sep :: ·)) = dir := by
  induction dir with
  | nil => exact components_nil sep
  | cons c dir ih =>
    rw [forall_mem_cons] at h
    have hc := components_of_no_sep sep h.1.ne_nil h.1.no_sep
    rw [flatMap_cons, cons_append, components_sep_cons]
    cases dir with
    | nil => rw [flatMap_nil, append_nil, hc]
    | cons =>
      have ih := ih h.2
      rw [flatMap_cons, cons_append] at ih ⊢
      rw [components_append, hc]
      rw [components_sep_cons] at ih
      rw [ih]
      rfl

theorem components_render (h : ∀ c ∈ dir, Proper sep dot c) :
    components sep (render sep dir) = dir := by
  unfold render
  split_ifs with hnil
  · rw [hnil, components_sep_cons, components_nil]
  · exact components_flatMap h

/-! ## Walking -/

theorem walkAll_append (dir cs cs' : List (List α)) :
    walkAll dot dir (cs ++ cs') = walkAll dot (walkAll dot dir cs) cs' := by
  unfold walkAll
  rw [foldl_append]

theorem walkAll_proper (dir : List (List α)) {cs : List (List α)}
    (h : ∀ c ∈ cs, Proper sep dot c) : walkAll dot dir cs = dir ++ cs := by
  induction cs generalizing dir with
  | nil => simp [walkAll]
  | cons c cs ih =>
    rw [forall_mem_cons] at h
    have hc : walk dot dir c = dir ++ [c] := by
      unfold walk
      rw [if_neg h.1.ne_dot, if_neg h.1.ne_dots]
    have hrest := ih (dir ++ [c]) h.2
    unfold walkAll at hrest ⊢
    rw [foldl_cons, hc, hrest, append_assoc]
    rfl

theorem proper_walkAll {cs : List (List α)} (hdir : ∀ c ∈ dir, Proper sep dot c)
    (hne : ∀ c ∈ cs, c ≠ []) (hsep : ∀ c ∈ cs, sep ∉ c) :
    ∀ c ∈ walkAll dot dir cs, Proper sep dot c := by
  induction cs generalizing dir with
  | nil => exact hdir
  | cons c cs ih =>
    rw [forall_mem_cons] at hne hsep
    refine ih ?_ hne.2 hsep.2
    unfold walk
    split_ifs with hdot hdots
    · exact hdir
    · intro d hd
      exact hdir d (mem_of_mem_dropLast hd)
    · rw [forall_mem_append, forall_mem_singleton]
      exact ⟨hdir, hne.1, hsep.1, hdot, hdots⟩

theorem proper_follow (hdir : ∀ c ∈ dir, Proper sep dot c) :
    ∀ c ∈ follow sep dot dir text, Proper sep dot c := by
  apply proper_walkAll
  · split_ifs
    · simp
    · exact hdir
  · exact fun c => ne_nil_of_mem_components sep
  · exact fun c => no_sep_of_mem_components sep

theorem follow_render (dir : List (List α)) {dir' : List (List α)}
    (h : ∀ c ∈ dir', Proper sep dot c) : follow sep dot dir (render sep dir') = dir' := by
  unfold follow
  rw [if_pos (isAbsolute_render sep), components_render h, walkAll_proper [] h, nil_append]

theorem follow_nil (dir : List (List α)) : follow sep dot dir [] = dir := by
  unfold follow
  rw [components_nil, if_neg (by simp [IsAbsolute])]
  rfl

theorem walkAll_gather {texts : List (List α)} (dir : List (List α)) :
    walkAll dot (if (gather sep texts).2 then [] else dir) (components sep (gather sep texts).1) =
      texts.foldl (follow sep dot) dir := by
  induction texts generalizing dir with
  | nil =>
    unfold gather
    rw [foldr_nil, components_nil]
    rfl
  | cons text texts ih =>
    have ih := ih (follow sep dot dir text)
    have hgather : gather sep (text :: texts) = prepend sep text (gather sep texts) := rfl
    rw [foldl_cons, ← ih, hgather]
    unfold prepend
    by_cases habs : (gather sep texts).2 = true
    · rw [if_pos (Or.inl habs), if_pos habs, if_pos habs]
    · by_cases hnil : text = []
      · rw [if_pos (Or.inr hnil), if_neg habs, if_neg habs, hnil, follow_nil]
      · rw [if_neg (not_or.mpr ⟨habs, hnil⟩), if_neg habs, components_append, walkAll_append]
        simp only [decide_eq_true_eq]
        rfl

/-- **Resolution from right to left follows the texts from left to right.** -/
theorem resolve_eq (cwd : List α) (texts : List (List α)) : resolve sep dot cwd texts =
      render sep (texts.foldl (follow sep dot) (follow sep dot [] cwd)) := by
  have h : walkAll dot (if (gather sep (cwd :: texts)).2 then [] else [])
      (components sep (gather sep (cwd :: texts)).1) =
        (cwd :: texts).foldl (follow sep dot) [] := walkAll_gather []
  rw [ite_self, foldl_cons] at h
  unfold resolve
  rw [h]

end Walking

/-! ## Prefixes of texts -/

variable {sep dot}

/-- `dir'` is, or lies below, a sibling of `dir` whose name properly continues the name of
`dir`. -/
def NameContinues (dir dir' : List (List α)) : Prop :=
  ∃ parent name name' rest, dir = parent ++ [name] ∧ dir' = parent ++ name' :: rest ∧
    name <+: name' ∧ name ≠ name'

variable {dir dir' : List (List α)}

theorem NameContinues.cons (h : NameContinues dir dir') (c : List α) :
    NameContinues (c :: dir) (c :: dir') := by
  obtain ⟨parent, name, name', rest, rfl, rfl, hname, hne⟩ := h
  exact ⟨c :: parent, name, name', rest, rfl, rfl, hname, hne⟩

theorem NameContinues.not_prefix (h : NameContinues dir dir') : ¬ dir <+: dir' := by
  obtain ⟨parent, name, name', rest, rfl, rfl, -, hne⟩ := h
  rw [prefix_append_right_inj]
  intro h
  exact hne (cons_prefix_cons.mp h).1

theorem prefix_of_prefix_append {name c : List α} {rest : List α} (hname : sep ∉ name)
    (h : name <+: c ++ sep :: rest) : name <+: c := by
  obtain hle | hle := prefix_or_prefix_of_prefix h (prefix_append c _)
  · exact hle
  · obtain ⟨more, rfl⟩ := hle
    rw [prefix_append_right_inj] at h
    cases more with
    | nil => simp
    | cons =>
      obtain ⟨rfl, -⟩ := cons_prefix_cons.mp h
      exact absurd (by simp) hname

theorem eq_of_prefix_append {c d : List α} {text rest : List α} (hd : sep ∉ d) (hc : sep ∉ c)
    (h : d ++ sep :: text <+: c ++ rest) (hrest : rest = [] ∨ ∃ more, rest = sep :: more) :
    d = c ∧ sep :: text <+: rest := by
  obtain rfl | ⟨more, rfl⟩ := hrest
  · rw [append_nil] at h
    exact absurd (h.subset (by simp)) hc
  · have hdc : d <+: c := prefix_of_prefix_append hd ((prefix_append _ _).trans h)
    obtain ⟨tail, rfl⟩ := hdc
    rw [append_assoc, prefix_append_right_inj] at h
    cases tail with
    | nil => exact ⟨(append_nil d).symm, h⟩
    | cons =>
      obtain ⟨rfl, -⟩ := cons_prefix_cons.mp h
      exact absurd (by simp) hc

theorem isPrefix_flatMap (h : dir <+: dir' ∨ NameContinues dir dir') :
    dir.flatMap (sep :: ·) <+: dir'.flatMap (sep :: ·) := by
  obtain ⟨rest, rfl⟩ | ⟨parent, name, name', rest, rfl, rfl, hname, -⟩ := h
  · rw [flatMap_append]
    exact prefix_append _ _
  · rw [flatMap_append, flatMap_append, prefix_append_right_inj, flatMap_cons,
      flatMap_nil, append_nil, flatMap_cons, cons_append, cons_prefix_cons]
    exact ⟨rfl, hname.trans (prefix_append _ _)⟩

theorem of_isPrefix_flatMap (h : ∀ c ∈ dir, sep ∉ c) (h' : ∀ c ∈ dir', sep ∉ c)
    (hpre : dir.flatMap (sep :: ·) <+: dir'.flatMap (sep :: ·)) :
    dir <+: dir' ∨ NameContinues dir dir' := by
  induction dir generalizing dir' with
  | nil => exact .inl nil_prefix
  | cons d dir ih =>
    rw [flatMap_cons] at hpre
    cases dir' with
    | nil => cases prefix_nil.mp hpre
    | cons c dir' =>
      rw [forall_mem_cons] at h h'
      rw [flatMap_cons, cons_append, cons_append, cons_prefix_cons] at hpre
      have hrest : dir'.flatMap (sep :: ·) = [] ∨
          ∃ more, dir'.flatMap (sep :: ·) = sep :: more := by
        cases dir' with
        | nil => exact .inl rfl
        | cons => exact .inr ⟨_, rfl⟩
      cases dir with
      | nil =>
        -- the last name: it begins the name at its place
        rw [flatMap_nil, append_nil] at hpre
        have hname : d <+: c := by
          obtain hnil | ⟨more, hmore⟩ := hrest
          · rw [hnil, append_nil] at hpre
            exact hpre.2
          · rw [hmore] at hpre
            exact prefix_of_prefix_append h.1 hpre.2
        by_cases heq : d = c
        · exact .inl (by simp [heq])
        · exact .inr ⟨[], d, c, dir', rfl, rfl, hname, heq⟩
      | cons =>
        obtain ⟨rfl, htail⟩ := eq_of_prefix_append h.1 h'.1 hpre.2 hrest
        exact (ih h.2 h'.2 htail).imp
          (fun hp => cons_prefix_cons.mpr ⟨rfl, hp⟩) (fun hn => hn.cons d)

/-- **When the text of a path begins the text of another.** -/
theorem render_prefix_iff (h : ∀ c ∈ dir, Proper sep dot c) (h' : ∀ c ∈ dir', Proper sep dot c) :
    render sep dir <+: render sep dir' ↔ dir <+: dir' ∨ NameContinues dir dir' := by
  have hiff : dir.flatMap (sep :: ·) <+: dir'.flatMap (sep :: ·) ↔
      dir <+: dir' ∨ NameContinues dir dir' :=
    ⟨of_isPrefix_flatMap (fun c hc => (h c hc).no_sep) fun c hc => (h' c hc).no_sep,
      isPrefix_flatMap⟩
  rw [← hiff]
  unfold render
  cases dir with
  | nil =>
    cases dir' with
    | nil | cons => simp
  | cons d =>
    cases dir' with
    | nil =>
      have hne := (h d mem_cons_self).ne_nil
      simp [hne]
    | cons => rfl

end Wacp.Library.Paths
