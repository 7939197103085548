import Mathlib.Algebra.Order.Ring.Nat
import Mathlib.Data.List.Basic
import Mathlib.Tactic.Ring

/-!
# Records in byte strings

Numbers as big-endian bytes, and byte strings that hold records one after another. A format whose
records read back wherever they stand gives back by a scan what was written, with positions; so does
a sequence of byte strings.
-/

namespace Wacp.Library

open List

/-! ## Big-endian numbers -/

def beBytes : ℕ → ℕ → List UInt8
  | 0, _ => []
  | width + 1, n => UInt8.ofNat (n / 256 ^ width) :: beBytes width n

def beValue (bytes : List UInt8) : ℕ := bytes.foldl (fun acc b => acc * 256 + b.toNat) 0

@[simp]
theorem length_beBytes (width n : ℕ) : (beBytes width n).length = width := by
  induction width with
  | zero => rfl
  | succ width ih => simp [beBytes, ih]

theorem foldl_beBytes (width n acc : ℕ) :
    (beBytes width n).foldl (fun acc b => acc * 256 + b.toNat) acc =
      acc * 256 ^ width + n % 256 ^ width := by
  induction width generalizing acc with
  | zero => simp [beBytes, Nat.mod_one]
  | succ width ih =>
    have hmod : n % 256 ^ (width + 1) =
        256 ^ width * (n / 256 ^ width % 256) + n % 256 ^ width := by
      rw [pow_succ, Nat.mod_mul, Nat.add_comm]
    rw [beBytes, foldl_cons, ih, UInt8.toNat_ofNat', hmod]
    ring

theorem beValue_beBytes (width n : ℕ) : beValue (beBytes width n) = n % 256 ^ width := by
  rw [beValue, foldl_beBytes, Nat.zero_mul, Nat.zero_add]

theorem beValue_lt (bytes : List UInt8) : beValue bytes < 256 ^ bytes.length := by
  have hfold : ∀ acc, bytes.foldl (fun acc b => acc * 256 + b.toNat) acc <
      (acc + 1) * 256 ^ bytes.length := by
    induction bytes with
    | nil => intro acc; simp
    | cons b bytes ih =>
      intro acc
      have hb : b.toNat < 256 := b.toNat_lt
      calc (b :: bytes).foldl (fun acc b => acc * 256 + b.toNat) acc
          < (acc * 256 + b.toNat + 1) * 256 ^ bytes.length := ih _
        _ ≤ ((acc + 1) * 256) * 256 ^ bytes.length := Nat.mul_le_mul_right _ (by omega)
        _ = (acc + 1) * 256 ^ (b :: bytes).length := by rw [length_cons, pow_succ]; ring
  simpa [beValue] using hfold 0

theorem beValue_append (bytes bytes' : List UInt8) :
    beValue (bytes ++ bytes') = beValue bytes * 256 ^ bytes'.length + beValue bytes' := by
  have hfold : ∀ acc, bytes'.foldl (fun acc b => acc * 256 + b.toNat) acc =
      acc * 256 ^ bytes'.length + beValue bytes' := by
    induction bytes' with
    | nil => intro acc; simp [beValue]
    | cons b bytes' ih =>
      intro acc
      have htail : beValue (b :: bytes') = b.toNat * 256 ^ bytes'.length + beValue bytes' := by
        rw [beValue, foldl_cons, ih, Nat.zero_mul, Nat.zero_add]
      rw [foldl_cons, ih, htail, length_cons, pow_succ]
      ring
  rw [beValue, foldl_append, hfold]
  rfl

variable {bytes bytes' : List UInt8}

/-- **Byte strings of the same length are in the lexicographic order of their
numbers.** -/
theorem lt_iff_beValue_lt (h : bytes.length = bytes'.length) :
    bytes < bytes' ↔ beValue bytes < beValue bytes' := by
  induction bytes generalizing bytes' with
  | nil =>
    rw [length_nil, eq_comm, length_eq_zero_iff] at h
    subst h
    simp
  | cons b bytes ih =>
    cases bytes' with
    | nil => cases h
    | cons b' bytes' =>
      have hlen : bytes.length = bytes'.length := Nat.succ.inj h
      have hb : beValue (b :: bytes) = b.toNat * 256 ^ bytes.length + beValue bytes := by
        rw [← singleton_append, beValue_append]
        simp [beValue]
      have hb' : beValue (b' :: bytes') = b'.toNat * 256 ^ bytes.length + beValue bytes' := by
        rw [← singleton_append, beValue_append, hlen]
        simp [beValue]
      have hlt := beValue_lt bytes
      have hlt' := beValue_lt bytes'
      rw [← hlen] at hlt'
      rw [cons_lt_cons_iff, ih hlen, hb, hb', UInt8.lt_iff_toNat_lt, ← UInt8.toNat_inj]
      constructor
      · rintro (hhead | ⟨hhead, htail⟩)
        · -- a smaller first byte outweighs what follows
          have hmul : (b.toNat + 1) * 256 ^ bytes.length ≤ b'.toNat * 256 ^ bytes.length :=
            Nat.mul_le_mul_right _ hhead
          rw [Nat.add_mul] at hmul
          omega
        · rw [hhead]
          omega
      · intro hval
        rcases Nat.lt_trichotomy b.toNat b'.toNat with hhead | hhead | hhead
        · exact .inl hhead
        · rw [hhead] at hval
          exact .inr ⟨hhead, by omega⟩
        · have hmul : (b'.toNat + 1) * 256 ^ bytes.length ≤ b.toNat * 256 ^ bytes.length :=
            Nat.mul_le_mul_right _ hhead
          rw [Nat.add_mul] at hmul
          omega

theorem eq_of_beValue_eq (h : bytes.length = bytes'.length)
    (hval : beValue bytes = beValue bytes') : bytes = bytes' := by
  have hle : bytes ≤ bytes' := by
    rw [← List.not_lt, lt_iff_beValue_lt h.symm]
    omega
  have hge : bytes' ≤ bytes := by
    rw [← List.not_lt, lt_iff_beValue_lt h]
    omega
  exact List.le_antisymm hle hge

theorem beBytes_beValue (bytes : List UInt8) : beBytes bytes.length (beValue bytes) = bytes := by
  apply eq_of_beValue_eq (length_beBytes _ _)
  rw [beValue_beBytes, Nat.mod_eq_of_lt (beValue_lt bytes)]

/-! ## Records -/

/-- How a record is written, and how the record at a position is read, with the position after
it. -/
structure Format (α : Type) where
  encode : α → List UInt8
  next : List UInt8 → ℕ → Option (α × ℕ)

namespace Format

variable {α : Type} (f : Format α)

def write (as : List α) : List UInt8 := as.flatMap f.encode

def located : ℕ → List α → List (ℕ × α)
  | _, [] => []
  | pos, a :: as => (pos, a) :: located (pos + (f.encode a).length) as

def scan (data : List UInt8) : ℕ → ℕ → List (ℕ × α) → List (ℕ × α)
  | 0, _, found => found
  | fuel + 1, pos, found =>
    match f.next data pos with
    | none => found
    | some (a, pos') => scan data fuel pos' (found ++ [(pos, a)])

def stop (data : List UInt8) : ℕ → ℕ → ℕ
  | 0, pos => pos
  | fuel + 1, pos =>
    match f.next data pos with
    | none => pos
    | some (_, pos') => stop data fuel pos'

/-- The records of a list that are complete in the first bytes of what is written. -/
def fitting : ℕ → List α → List α
  | _, [] => []
  | n, a :: as =>
    if (f.encode a).length ≤ n then a :: fitting (n - (f.encode a).length) as else []

def Readable (a : α) : Prop :=
  ∀ before after, f.next (before ++ f.encode a ++ after) before.length =
    some (a, before.length + (f.encode a).length)

def Whole (a : α) : Prop :=
  ∀ before n, n < (f.encode a).length →
    f.next (before ++ (f.encode a).take n) before.length = none

@[simp]
theorem write_nil : f.write [] = [] := rfl

@[simp]
theorem write_cons (a : α) (as : List α) : f.write (a :: as) = f.encode a ++ f.write as := rfl

@[simp]
theorem write_append (as bs : List α) : f.write (as ++ bs) = f.write as ++ f.write bs :=
  flatMap_append

theorem located_append (pos : ℕ) (as bs : List α) :
    f.located pos (as ++ bs) = f.located pos as ++ f.located (pos + (f.write as).length) bs := by
  induction as generalizing pos with
  | nil => rfl
  | cons a as ih =>
    rw [cons_append, located, located, ih, write_cons, length_append, Nat.add_assoc]
    rfl

theorem map_snd_located (pos : ℕ) (as : List α) : (f.located pos as).map Prod.snd = as := by
  induction as generalizing pos with
  | nil => rfl
  | cons a as ih => rw [located, map_cons, ih]

variable {f} {pos : ℕ} {as : List α}

theorem le_of_mem_located {entry : ℕ × α} (h : entry ∈ f.located pos as) : pos ≤ entry.1 := by
  induction as generalizing pos with
  | nil => cases h
  | cons a as ih =>
    rcases mem_cons.mp h with rfl | h
    · exact Nat.le_refl _
    · exact Nat.le_trans (Nat.le_add_right _ _) (ih h)

theorem append_write_cons (before : List UInt8) (a : α) (as : List α) :
    before ++ f.write (a :: as) = before ++ f.encode a ++ f.write as := by
  rw [write_cons, append_assoc]

variable {a : α}

theorem next_encode (ha : f.Readable a) (before rest : List UInt8) (as : List α) :
    f.next (before ++ f.encode a ++ f.write as ++ rest) before.length =
      some (a, (before ++ f.encode a).length) := by
  have hnext := ha before (f.write as ++ rest)
  rw [length_append]
  simpa only [append_assoc] using hnext

section

variable (hread : ∀ a ∈ as, f.Readable a) (before rest : List UInt8)
  (hend : f.next (before ++ f.write as ++ rest) (before ++ f.write as).length = none) {fuel : ℕ}
  (hfuel : as.length < fuel)
include hread hend hfuel

/-- **A scan finds what was written**, each record at its position, up to bytes where
no record can be read. -/
theorem scan_write (found : List (ℕ × α)) :
    f.scan (before ++ f.write as ++ rest) fuel before.length found =
      found ++ f.located before.length as := by
  induction as generalizing before fuel found with
  | nil =>
    cases fuel with
    | zero => omega
    | succ =>
      rw [write_nil, append_nil] at hend ⊢
      rw [scan, hend]
      exact (append_nil found).symm
  | cons a as ih =>
    cases fuel with
    | zero => omega
    | succ fuel =>
      have hnext := next_encode (hread a mem_cons_self) before rest as
      rw [append_write_cons] at hend ⊢
      have hrest := ih (fun b hb => hread b (mem_cons_of_mem _ hb))
        (before ++ f.encode a) hend (Nat.lt_of_succ_lt_succ hfuel)
        (found ++ [(before.length, a)])
      rw [scan, hnext]
      show f.scan _ fuel _ _ = _
      rw [hrest, located, append_assoc, length_append]
      rfl

theorem stop_write : f.stop (before ++ f.write as ++ rest) fuel before.length =
      (before ++ f.write as).length := by
  induction as generalizing before fuel with
  | nil =>
    cases fuel with
    | zero => omega
    | succ =>
      rw [write_nil, append_nil] at hend ⊢
      rw [stop, hend]
  | cons a as ih =>
    cases fuel with
    | zero => omega
    | succ =>
      have hnext := next_encode (hread a mem_cons_self) before rest as
      rw [append_write_cons] at hend ⊢
      rw [stop, hnext]
      exact ih (fun b hb => hread b (mem_cons_of_mem _ hb)) (before ++ f.encode a) hend
        (Nat.lt_of_succ_lt_succ hfuel)

end

theorem split_of_mem_located {f : Format α} (before : List UInt8)
    (h : (pos, a) ∈ f.located before.length as) :
    ∃ left right, before ++ f.write as = left ++ f.encode a ++ right ∧ left.length = pos := by
  induction as generalizing before with
  | nil => cases h
  | cons b as ih =>
    rw [write_cons, ← append_assoc]
    rcases mem_cons.mp h with heq | h
    · cases heq
      exact ⟨before, f.write as, rfl, rfl⟩
    · rw [← length_append] at h
      exact ih _ h

/-! ## Cut byte strings -/

variable {n : ℕ}

theorem mem_of_mem_fitting (h : a ∈ f.fitting n as) : a ∈ as := by
  induction as generalizing n with
  | nil => cases h
  | cons b as ih =>
    rw [fitting] at h
    split at h
    · rcases mem_cons.mp h with rfl | h
      · exact mem_cons_self
      · exact mem_cons_of_mem _ (ih h)
    · cases h

/-- **The first bytes of what is written** are the complete records and, where a
record is cut, some of its bytes. -/
theorem take_write (f : Format α) (n : ℕ) (as : List α) :
    ∃ rest, (f.write as).take n = f.write (f.fitting n as) ++ rest ∧
      (rest = [] ∨ ∃ a ∈ as, ∃ m < (f.encode a).length, rest = (f.encode a).take m) := by
  induction as generalizing n with
  | nil => exact ⟨[], by simp [fitting], .inl rfl⟩
  | cons a as ih =>
    rw [write_cons, take_append, fitting]
    by_cases hfit : (f.encode a).length ≤ n
    · obtain ⟨rest, htake, hrest⟩ := ih (n - (f.encode a).length)
      refine ⟨rest, ?_, ?_⟩
      · rw [if_pos hfit, take_of_length_le hfit, htake, write_cons, append_assoc]
      · rcases hrest with hrest | ⟨b, hb, m, hm, hrest⟩
        · exact .inl hrest
        · exact .inr ⟨b, mem_cons_of_mem _ hb, m, hm, hrest⟩
    · have hzero : n - (f.encode a).length = 0 := by omega
      refine ⟨(f.encode a).take n, ?_, .inr ⟨a, mem_cons_self, n, by omega, rfl⟩⟩
      rw [if_neg hfit, hzero, take_zero, append_nil, write_nil, nil_append]

theorem take_fitting (f : Format α) (n : ℕ) (as : List α) :
    as.take (f.fitting n as).length = f.fitting n as := by
  induction as generalizing n with
  | nil => rfl
  | cons a as ih =>
    rw [fitting]
    split
    · rw [length_cons, take_succ_cons, ih]
    · rfl

theorem fitting_of_length_le (f : Format α) (h : (f.write as).length ≤ n) :
    f.fitting n as = as := by
  induction as generalizing n with
  | nil => rfl
  | cons a as ih =>
    rw [write_cons, length_append] at h
    rw [fitting, if_pos (by omega), ih (by omega)]

theorem located_take (f : Format α) (pos k : ℕ) (as : List α) :
    f.located pos (as.take k) = (f.located pos as).take k := by
  induction as generalizing pos k with
  | nil => simp [located]
  | cons a as ih =>
    cases k with
    | zero => rfl
    | succ => rw [take_succ_cons, located, located, take_succ_cons, ih]

/-- The records that end within the first bytes are the complete ones, and these stand
in front. -/
theorem filter_eq_take_fitting {β : Type} {f : Format α} (g : β → ℕ × α) {l : List β}
    (h : l.map g = f.located pos as) (n : ℕ) :
    (l.filter fun b => decide ((g b).1 + (f.encode (g b).2).length ≤ pos + n)) =
      l.take (f.fitting n as).length := by
  induction as generalizing l pos n with
  | nil =>
    rw [map_eq_nil_iff.mp h]
    rfl
  | cons a as ih =>
    obtain ⟨b, l, rfl, hb, hl⟩ := map_eq_cons_iff.mp h
    rw [fitting]
    by_cases hfit : (f.encode a).length ≤ n
    · have hn : pos + (f.encode a).length + (n - (f.encode a).length) = pos + n := by omega
      have hrest := ih hl (n - (f.encode a).length)
      rw [hn] at hrest
      rw [if_pos hfit, filter_cons_of_pos (by simpa [hb] using hfit), hrest,
        length_cons, take_succ_cons]
    · -- what stands behind a record that is cut is cut as well
      rw [if_neg hfit, filter_cons_of_neg (by simpa [hb] using hfit), length_nil,
        take_zero, filter_eq_nil_iff]
      intro c hc
      have hmem : g c ∈ f.located (pos + (f.encode a).length) as := by
        rw [← hl]
        exact mem_map_of_mem hc
      have hle := le_of_mem_located hmem
      simp only [decide_eq_true_eq]
      omega

/-! ## Segments -/

variable (f)

/-- The records of numbered byte strings, with their segments and positions. -/
def locate : ℕ → List (List α) → List (ℕ × ℕ × α)
  | _, [] => []
  | i, seg :: segs => (f.located 0 seg).map (fun entry => (i, entry)) ++ locate (i + 1) segs

theorem locate_append (i : ℕ) (segs segs' : List (List α)) :
    f.locate i (segs ++ segs') = f.locate i segs ++ f.locate (i + segs.length) segs' := by
  induction segs generalizing i with
  | nil => rfl
  | cons seg segs ih =>
    rw [cons_append, locate, locate, ih, append_assoc, length_cons,
      Nat.add_assoc i 1, Nat.add_comm 1]

variable {i : ℕ}

theorem map_locate (segs : List (List α)) :
    (f.locate i segs).map (fun entry => entry.2.2) = segs.flatten := by
  induction segs generalizing i with
  | nil => rfl
  | cons seg segs ih =>
    have hseg : ((f.located 0 seg).map fun entry => (i, entry)).map (fun entry => entry.2.2) =
        seg := by
      rw [map_map]
      exact f.map_snd_located 0 seg
    rw [locate, map_append, ih, hseg, flatten_cons]

theorem le_of_mem_locate {segs : List (List α)} {entry : ℕ × ℕ × α}
    (h : entry ∈ f.locate i segs) : i ≤ entry.1 := by
  induction segs generalizing i with
  | nil => cases h
  | cons seg segs ih =>
    rcases mem_append.mp h with h | h
    · obtain ⟨x, -, rfl⟩ := mem_map.mp h
      exact Nat.le_refl i
    · exact Nat.le_of_succ_le (ih h)

theorem filter_locate (i k : ℕ) (segs : List (List α)) :
    ((f.locate i segs).filter fun entry => decide (entry.1 = i + k)).map (fun entry => entry.2.2) =
      (segs[k]?).getD [] := by
  induction segs generalizing i k with
  | nil => rfl
  | cons seg segs ih =>
    rw [locate, filter_append, map_append]
    cases k with
    | zero =>
      have hseg : (((f.located 0 seg).map fun entry => (i, entry)).filter
          fun entry => decide (entry.1 = i + 0)) =
          (f.located 0 seg).map fun entry => (i, entry) := by
        rw [filter_eq_self]
        intro entry hentry
        obtain ⟨x, -, rfl⟩ := mem_map.mp hentry
        simp
      have hrest : ((f.locate (i + 1) segs).filter fun entry => decide (entry.1 = i + 0)) =
          [] := by
        rw [filter_eq_nil_iff]
        intro entry hentry
        have hle := f.le_of_mem_locate hentry
        simp only [decide_eq_true_eq]
        omega
      rw [hseg, hrest, map_nil, append_nil, map_map]
      exact f.map_snd_located 0 seg
    | succ k =>
      have hseg : (((f.located 0 seg).map fun entry => (i, entry)).filter
          fun entry => decide (entry.1 = i + (k + 1))) = [] := by
        rw [filter_eq_nil_iff]
        intro entry hentry
        obtain ⟨x, -, rfl⟩ := mem_map.mp hentry
        simp
      have hrest := ih (i + 1) k
      rw [Nat.add_assoc, Nat.add_comm 1 k] at hrest
      rw [hseg, map_nil, nil_append, hrest, getElem?_cons_succ]

theorem mem_located_of_mem_locate {j : ℕ} {segs : List (List α)}
    (h : (j, pos, a) ∈ f.locate i segs) :
    ∃ k seg, j = i + k ∧ segs[k]? = some seg ∧ (pos, a) ∈ f.located 0 seg := by
  induction segs generalizing i with
  | nil => cases h
  | cons seg segs ih =>
    rcases mem_append.mp h with h | h
    · obtain ⟨entry, hentry, heq⟩ := mem_map.mp h
      cases heq
      exact ⟨0, seg, rfl, rfl, hentry⟩
    · obtain ⟨k, seg', hj, hk, hmem⟩ := ih h
      exact ⟨k + 1, seg', by omega, hk, hmem⟩

end Format

end Wacp.Library
