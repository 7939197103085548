import Wacp.Library.Loops
import Wacp.Model.LocalResources

/-!
# Confinement to the working directory

`resolvePath` compares texts and not components: it also accepts a sibling whose name continues the
directory's. `writeFile` creates the parent of what it writes.
-/

namespace Wacp.Local

open Library Library.Paths List LocalResources

/-! ## Inside and outside -/

def Normalised (path : JsString) : Prop :=
  ∃ dir, (∀ c ∈ dir, Proper slash dot c) ∧ path = render slash dir

def Below (workingDir path : JsString) : Prop :=
  components slash workingDir <+: components slash path

/-- The methods that take a path; for the shell it is the directory. -/
inductive FileOp where
  | readFile
  | writeFile (content : JsString)
  | deleteFile
  | readDir
  | fileExists
  | exec (command : JsString) (timeout : Option ℕ)
  deriving DecidableEq

namespace FileOp

def calls (cwd : JsString) (r : LocalResources) (input : JsString) :
    FileOp → Except AutonomyError (List HostCall)
  | .readFile => r.readFile cwd input
  | .writeFile content => r.writeFile cwd input content
  | .deleteFile => r.deleteFile cwd input
  | .readDir => r.readDir cwd input
  | .fileExists => r.fileExists cwd input
  | .exec command timeout => r.exec cwd command input timeout

def operation : FileOp → String
  | .readFile => "file_read"
  | .writeFile _ => "file_write"
  | .deleteFile => "file_delete"
  | .readDir => "file_read"
  | .fileExists => "file_read"
  | .exec _ _ => "shell_exec"

def hostCalls (path : JsString) : FileOp → List HostCall
  | .readFile => [.readFile path]
  | .writeFile content => [.mkdir (dirname path), .writeFile path content]
  | .deleteFile => [.unlink path]
  | .readDir => [.readdir path]
  | .fileExists => [.access path]
  | .exec command timeout => [.spawn path command (timeout.getD 30000)]

def createsParent : FileOp → Bool
  | .writeFile _ => true
  | _ => false

theorem paths_hostCalls (path : JsString) (op : FileOp) : ∀ call ∈ op.hostCalls path,
    call.path = path ∨ op.createsParent ∧ call.path = dirname path := by
  intro call hcall
  cases op with
  | writeFile =>
    obtain rfl | hcall := mem_cons.mp hcall
    · exact .inr ⟨rfl, rfl⟩
    · rw [mem_singleton.mp hcall]
      exact .inl rfl
  | _ =>
    rw [mem_singleton.mp hcall]
    exact .inl rfl

end FileOp

variable {cwd : JsString} {r : LocalResources} {input : JsString} {dir : List (List UInt16)}

def target (r : LocalResources) (input : JsString) : List (List UInt16) :=
  follow slash dot (components slash r.workingDir) input

section Directory

variable (hdir : ∀ c ∈ dir, Proper slash dot c) (hwd : r.workingDir = render slash dir)
include hdir hwd

theorem resolved_eq : r.resolved cwd input = render slash (target r input) := by
  unfold resolved target
  rw [resolve_eq, foldl_cons, foldl_cons, foldl_nil, hwd, follow_render _ hdir,
    components_render hdir]

theorem proper_target : ∀ c ∈ target r input, Proper slash dot c := by
  unfold target
  rw [hwd, components_render hdir]
  exact proper_follow hdir

theorem components_resolved : components slash (r.resolved cwd input) = target r input := by
  rw [resolved_eq hdir hwd]
  exact components_render (proper_target hdir hwd)

/-- **What `resolvePath` accepts**: what stays inside, or leads into a sibling whose name continues
the directory's. -/
theorem resolvePath_eq_ok_iff {path : JsString} : r.resolvePath cwd input = .ok path ↔
      path = r.resolved cwd input ∧
        (dir <+: target r input ∨ NameContinues dir (target r input)) := by
  have hresolved : r.resolved cwd input = render slash (target r input) := resolved_eq hdir hwd
  rw [← render_prefix_iff hdir (proper_target hdir hwd), ← hwd, ← hresolved,
    ← isPrefixOf_iff_prefix]
  unfold resolvePath
  split_ifs with hstarts
  · constructor
    · intro h
      exact ⟨(Except.ok.inj h).symm, hstarts⟩
    · rintro ⟨rfl, -⟩
      rfl
  · constructor
    · intro h
      cases h
    · rintro ⟨-, h⟩
      exact absurd h hstarts

theorem execDir_eq : r.execDir cwd input = r.resolvePath cwd input := by
  unfold execDir
  split_ifs with hnil
  · have htarget : target r input = dir := by
      unfold target
      rw [hnil, follow_nil, hwd, components_render hdir]
    symm
    rw [resolvePath_eq_ok_iff hdir hwd, resolved_eq hdir hwd, htarget]
    exact ⟨hwd, .inl (prefix_refl dir)⟩
  · rfl

theorem FileOp.calls_eq (op : FileOp) :
    op.calls cwd r input = (r.requireTrust op.operation >>= fun _ =>
      r.resolvePath cwd input >>= fun path => pure (op.hostCalls path)) := by
  cases op with
  | exec =>
    rw [← execDir_eq hdir hwd]
    rfl
  | _ => rfl

theorem FileOp.calls_eq_ok_iff (op : FileOp) {calls : List HostCall} :
    op.calls cwd r input = .ok calls ↔ r.autonomy.check (.named op.operation) ∧
      ∃ path, r.resolvePath cwd input = .ok path ∧ calls = op.hostCalls path := by
  rw [op.calls_eq hdir hwd, bind_eq_ok_iff]
  unfold requireTrust
  constructor
  · rintro ⟨⟨⟩, htrust, hrest⟩
    obtain ⟨path, hpath, hcalls⟩ := bind_eq_ok_iff.mp hrest
    split_ifs at htrust with hcheck
    exact ⟨hcheck, path, hpath, (Except.ok.inj hcalls).symm⟩
  · rintro ⟨hcheck, path, hpath, rfl⟩
    exact ⟨(), by rw [if_pos hcheck], bind_eq_ok_iff.mpr ⟨path, hpath, rfl⟩⟩

end Directory

/-! ## Confinement -/

/-- What is resolved lies inside, what stays inside is resolved, and nothing outside is touched. -/
structure Confined (cwd : JsString) (r : LocalResources) (op : FileOp) (input : JsString) :
    Prop where
  sound : ∀ path, r.resolvePath cwd input = .ok path → Below r.workingDir path
  complete : Below r.workingDir (r.resolved cwd input) →
    r.resolvePath cwd input = .ok (r.resolved cwd input)
  touched : ∀ calls, op.calls cwd r input = .ok calls →
    ∀ call ∈ calls, Below r.workingDir call.path

/-- Into a sibling whose name continues that of the working directory. -/
def IntoSibling (r : LocalResources) (input : JsString) : Prop :=
  NameContinues (components slash r.workingDir) (target r input)

/-- A write to the working directory itself creates its parent. -/
def CreatesOutside (r : LocalResources) (op : FileOp) (input : JsString) : Prop :=
  op.createsParent ∧ r.autonomy.check (.named op.operation) ∧
    target r input = components slash r.workingDir ∧ components slash r.workingDir ≠ []

theorem prefix_dropLast {d t : List (List UInt16)} (h : d <+: t) (hne : t = d → d = []) :
    d <+: t.dropLast := by
  obtain ⟨rest, rfl⟩ := h
  cases rest with
  | nil =>
    rw [append_nil] at hne ⊢
    rw [hne rfl]
    exact nil_prefix
  | cons c rest =>
    rw [dropLast_append_of_ne_nil (cons_ne_nil c rest)]
    exact prefix_append _ _

/-- **Confinement to the working directory**, for every absolute normalised one, every method and
input. -/
theorem confined_iff (cwd : JsString) (r : LocalResources) (hwd : Normalised r.workingDir)
    (op : FileOp) (input : JsString) :
    Confined cwd r op input ↔ ¬ IntoSibling r input ∧ ¬ CreatesOutside r op input := by
  obtain ⟨dir, hdir, hwd⟩ := hwd
  have hcomp : components slash r.workingDir = dir := by rw [hwd, components_render hdir]
  have hres : components slash (r.resolved cwd input) = target r input :=
    components_resolved hdir hwd
  have hparent : components slash (dirname (r.resolved cwd input)) =
      (target r input).dropLast := by
    unfold dirname
    rw [hres]
    exact components_render fun c hc =>
      proper_target hdir hwd c (mem_of_mem_dropLast hc)
  unfold IntoSibling CreatesOutside
  rw [hcomp]
  constructor
  · intro h
    constructor
    · intro hsib
      have hpath : r.resolvePath cwd input = .ok (r.resolved cwd input) :=
        (resolvePath_eq_ok_iff hdir hwd).mpr ⟨rfl, .inr hsib⟩
      have hbelow := h.sound _ hpath
      unfold Below at hbelow
      rw [hcomp, hres] at hbelow
      exact hsib.not_prefix hbelow
    · rintro ⟨hparents, hcheck, hself, hne⟩
      have hpath : r.resolvePath cwd input = .ok (r.resolved cwd input) :=
        (resolvePath_eq_ok_iff hdir hwd).mpr ⟨rfl, .inl (by rw [hself])⟩
      have hcalls := (op.calls_eq_ok_iff hdir hwd).mpr ⟨hcheck, _, hpath, rfl⟩
      cases op with
      | writeFile =>
        have hbelow : components slash r.workingDir <+:
            components slash (dirname (r.resolved cwd input)) :=
          h.touched _ hcalls _ mem_cons_self
        rw [hcomp, hparent, hself] at hbelow
        have hlen := hbelow.length_le
        rw [length_dropLast] at hlen
        have hpos := length_pos_of_ne_nil hne
        omega
      | _ => cases hparents
  · rintro ⟨hsib, hout⟩
    refine ⟨?_, ?_, ?_⟩
    · intro path hpath
      obtain ⟨rfl, hin | hin⟩ := (resolvePath_eq_ok_iff hdir hwd).mp hpath
      · unfold Below
        rw [hcomp, hres]
        exact hin
      · exact absurd hin hsib
    · intro hbelow
      unfold Below at hbelow
      rw [hcomp, hres] at hbelow
      exact (resolvePath_eq_ok_iff hdir hwd).mpr ⟨rfl, .inl hbelow⟩
    · intro calls hcalls call hcall
      obtain ⟨hcheck, path, hpath, rfl⟩ := (op.calls_eq_ok_iff hdir hwd).mp hcalls
      obtain ⟨rfl, hin | hin⟩ := (resolvePath_eq_ok_iff hdir hwd).mp hpath
      · unfold Below
        rw [hcomp]
        obtain hsame | ⟨hparents, hdirname⟩ := op.paths_hostCalls _ call hcall
        · rw [hsame, hres]
          exact hin
        · rw [hdirname, hparent]
          refine prefix_dropLast hin ?_
          intro hself
          by_contra hne
          exact hout ⟨hparents, hcheck, hself, hne⟩
      · exact absurd hin hsib

def sampleResources : LocalResources :=
  { workingDir := js "/work", autonomy := .new .autonomous }

theorem normalised_sample : Normalised sampleResources.workingDir := by
  refine ⟨[js "work"], ?_, by decide⟩
  intro c hc
  rw [mem_singleton.mp hc]
  exact ⟨by decide, by decide, by decide, by decide⟩

theorem confined_inside : Confined (js "/") sampleResources (.writeFile (js "x"))
      (js "src/../notes.txt") ∧
    sampleResources.resolvePath (js "/") (js "src/../notes.txt") = .ok (js "/work/notes.txt") := by
  refine ⟨(confined_iff _ _ normalised_sample _ _).mpr ⟨?_, ?_⟩, by decide⟩
  · intro hsib
    exact hsib.not_prefix (by decide)
  · rintro ⟨-, -, hself, -⟩
    exact absurd hself (by decide)

/-- **The two ways out**: a read beside `/work`, and a write to `/work`, which creates its parent.
-/
theorem paths_outside_touched : (sampleResources.readFile (js "/") (js "../work-old/key") =
        .ok [.readFile (js "/work-old/key")] ∧
      ¬ Below (js "/work") (js "/work-old/key")) ∧
    (sampleResources.writeFile (js "/") (js ".") (js "x") =
        .ok [.mkdir (js "/"), .writeFile (js "/work") (js "x")] ∧
      ¬ Below (js "/work") (js "/")) := by
  unfold Below
  refine ⟨⟨by decide, by decide⟩, by decide, by decide⟩

end Wacp.Local
