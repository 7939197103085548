import Mathlib.Algebra.Order.Ring.Nat
import Wacp.Library.Causality
import Wacp.Model.Clock

/-!
# Timestamps follow happens-before

Each operation of a clock puts its stamp above what it read, or leaves it equal when the logical
counter is saturated (`Precedes`).
-/

namespace Wacp

open Library Causality

/-! ## The order of timestamps -/

namespace Timestamp

def value (t : Timestamp) : ℕ := t.physicalUs.toNat * 2 ^ 16 + t.logical.toNat

theorem cmp_eq (a b : Timestamp) : a.cmp b = compare a.value b.value := by
  have ha := UInt16.toNat_lt a.logical
  have hb := UInt16.toNat_lt b.logical
  have hphys : compare a.physicalUs b.physicalUs =
      compare a.physicalUs.toNat b.physicalUs.toNat := by
    simp [compare, compareOfLessAndEq, UInt64.lt_iff_toNat_lt, UInt64.toNat_inj]
  have hlog : compare a.logical b.logical = compare a.logical.toNat b.logical.toNat := by
    simp [compare, compareOfLessAndEq, UInt16.lt_iff_toNat_lt, UInt16.toNat_inj]
  unfold cmp value
  rw [hphys, hlog]
  rcases Nat.lt_trichotomy a.physicalUs.toNat b.physicalUs.toNat with h | h | h
  · have hval : a.physicalUs.toNat * 2 ^ 16 + a.logical.toNat <
        b.physicalUs.toNat * 2 ^ 16 + b.logical.toNat := by omega
    rw [Nat.compare_eq_lt.mpr h, Nat.compare_eq_lt.mpr hval]
    rfl
  · rw [h, Nat.compare_eq_eq.mpr rfl]
    rcases Nat.lt_trichotomy a.logical.toNat b.logical.toNat with h' | h' | h'
    · rw [Nat.compare_eq_lt.mpr h', Nat.compare_eq_lt.mpr (by omega)]
      rfl
    · rw [h', Nat.compare_eq_eq.mpr rfl, Nat.compare_eq_eq.mpr rfl]
      rfl
    · rw [Nat.compare_eq_gt.mpr h', Nat.compare_eq_gt.mpr (by omega)]
      rfl
  · have hval : b.physicalUs.toNat * 2 ^ 16 + b.logical.toNat <
        a.physicalUs.toNat * 2 ^ 16 + a.logical.toNat := by omega
    rw [Nat.compare_eq_gt.mpr h, Nat.compare_eq_gt.mpr hval]
    rfl

theorem lt_iff (a b : Timestamp) : a < b ↔ a.value < b.value := by
  change a.cmp b = .lt ↔ _
  rw [cmp_eq, Nat.compare_eq_lt]

theorem le_iff (a b : Timestamp) : a ≤ b ↔ a.value ≤ b.value := by
  change a.cmp b ≠ .gt ↔ _
  rw [cmp_eq, ne_eq, Nat.compare_eq_gt, Nat.not_lt]

def Precedes (a b : Timestamp) : Prop := a < b ∨ (a = b ∧ a.logical = u16Max)

variable {a b : Timestamp}

theorem Precedes.trans {c : Timestamp} (hab : a.Precedes b) (hbc : b.Precedes c) :
    a.Precedes c := by
  rcases hab with hab | ⟨rfl, ha⟩
  · rcases hbc with hbc | ⟨rfl, -⟩
    · left
      rw [lt_iff] at hab hbc ⊢
      omega
    · exact .inl hab
  · exact hbc

theorem Precedes.le (h : a.Precedes b) : a ≤ b := by
  rw [le_iff]
  rcases h with h | ⟨rfl, -⟩
  · rw [lt_iff] at h
    omega
  · exact Nat.le_refl _

theorem Precedes.saturated (h : a.Precedes b) (heq : a = b) :
    a.logical = u16Max ∧ b.logical = u16Max := by
  subst heq
  rcases h with h | ⟨-, h⟩
  · rw [lt_iff] at h
    omega
  · exact ⟨h, h⟩

theorem Precedes.lt (h : a.Precedes b) (hb : b.logical ≠ u16Max) : a < b := by
  rcases h with h | ⟨rfl, h⟩
  · exact h
  · exact absurd h hb

theorem Precedes.of_physical (h : a.physicalUs < b.physicalUs) : a.Precedes b := by
  left
  rw [lt_iff]
  unfold value
  rw [UInt64.lt_iff_toNat_lt] at h
  have ha := UInt16.toNat_lt a.logical
  omega

theorem Precedes.of_logical {n : UInt16} (hp : a.physicalUs = b.physicalUs) (hn : a.logical ≤ n)
    (hl : b.logical = saturatingAdd n 1) : a.Precedes b := by
  rw [UInt16.le_iff_toNat_le] at hn
  have hmax : u16Max.toNat = 65535 := rfl
  have hone : (1 : UInt16).toNat = 1 := rfl
  unfold saturatingAdd at hl
  split_ifs at hl with hsat
  · left
    have hadd : b.logical.toNat = n.toNat + 1 := by
      rw [hl, UInt16.toNat_add, Nat.mod_eq_of_lt (by omega), hone]
    rw [lt_iff]
    unfold value
    rw [hp]
    omega
  · by_cases ha : a.logical = u16Max
    · right
      cases a
      cases b
      simp_all
    · left
      have hne : a.logical.toNat ≠ u16Max.toNat := fun h => ha (UInt16.toNat_inj.mp h)
      have hlt := UInt16.toNat_lt a.logical
      rw [lt_iff]
      unfold value
      rw [hp, hl]
      omega

end Timestamp

/-! ## The clock's operations -/

namespace Clock

open Timestamp

theorem now_precedes (c : Clock) (physical : UInt64) : c.last.Precedes (c.now physical).last := by
  unfold now
  split_ifs with h
  · exact Precedes.of_physical h
  · exact Precedes.of_logical rfl (UInt16.le_refl _) rfl

theorem recv_precedes (c : Clock) (physical : UInt64) (remote : Timestamp) :
    c.last.Precedes (c.recv physical remote).last ∧
      remote.Precedes (c.recv physical remote).last := by
  unfold recv
  simp only
  generalize hm : max (max physical c.last.physicalUs) remote.physicalUs = m
  have hc : c.last.physicalUs ≤ m := by
    rw [UInt64.le_iff_toNat_le, ← hm, UInt64.toNat_max, UInt64.toNat_max]
    omega
  have hr : remote.physicalUs ≤ m := by
    rw [UInt64.le_iff_toNat_le, ← hm, UInt64.toNat_max]
    omega
  have hlt : ∀ p : UInt64, p ≤ m → m ≠ p → p < m := fun p hp hne =>
    UInt64.lt_of_le_of_ne hp (Ne.symm hne)
  split_ifs with hreset htie hlocal
  · exact ⟨Precedes.of_physical hreset.1, Precedes.of_physical hreset.2⟩
  · have hmax : c.last.logical ≤ max c.last.logical remote.logical ∧
        remote.logical ≤ max c.last.logical remote.logical := by
      rw [UInt16.le_iff_toNat_le, UInt16.le_iff_toNat_le, UInt16.toNat_max]
      omega
    exact ⟨Precedes.of_logical htie.1.symm hmax.1 rfl, Precedes.of_logical htie.2.symm hmax.2 rfl⟩
  · have hne : m ≠ remote.physicalUs := fun h => htie ⟨hlocal, h⟩
    exact ⟨Precedes.of_logical hlocal.symm (UInt16.le_refl _) rfl,
      Precedes.of_physical (hlt _ hr hne)⟩
  · have hremote : m = remote.physicalUs := by
      by_contra hne
      exact hreset ⟨hlt _ hc hlocal, hlt _ hr hne⟩
    exact ⟨Precedes.of_physical (hlt _ hc hlocal),
      Precedes.of_logical hremote.symm (UInt16.le_refl _) rfl⟩

/-- The clock as a way to stamp events, by readings of the time source. -/
def stamping : Stamping Clock UInt64 Timestamp where
  stamp := Clock.last
  event := now
  send := send
  receive := recv

theorem stamping_advances : Advances stamping Precedes where
  event := now_precedes
  send := now_precedes
  receive := recv_precedes

abbrev Network (P : Type) : Type := World P Clock Timestamp

/-- **Timestamps follow happens-before**, strictly where no counter is saturated; a reception is
after the last stamp and the message's. -/
theorem happensBefore_timestamps {P : Type} [DecidableEq P] (initial : P → Clock) (w : Network P)
    (hrun : Run (Step stamping) anyStep { states := initial, log := [] } w) :
    (∀ (i j : ℕ) (e f : Event P Timestamp), w.log[i]? = some e → w.log[j]? = some f →
      HappensBefore w.log i j →
      e.stamp ≤ f.stamp ∧
        (e.stamp = f.stamp → e.stamp.logical = u16Max ∧ f.stamp.logical = u16Max)) ∧
    ((∀ e ∈ w.log, e.stamp.logical ≠ u16Max) →
      ∀ (i j : ℕ) (e f : Event P Timestamp), w.log[i]? = some e →
        w.log[j]? = some f → HappensBefore w.log i j → e.stamp < f.stamp) ∧
    (∀ (p : P) (source : ℕ) (physical : UInt64) (t : Timestamp) (w' : Network P),
      w.message source = some t → Step stamping w ⟨p, .receive source, physical⟩ w' →
      (w'.states p).last.logical ≠ u16Max →
      (w.states p).last < (w'.states p).last ∧ t < (w'.states p).last) := by
  have hrel : ∀ (i j : ℕ) (e f : Event P Timestamp), w.log[i]? = some e →
      w.log[j]? = some f → HappensBefore w.log i j → e.stamp.Precedes f.stamp :=
    fun i j e f hi hj h =>
      stamps_related (R := Precedes) (fun _ _ _ => Precedes.trans) stamping_advances
        hrun hi hj h
  refine ⟨?_, ?_, ?_⟩
  · intro i j e f hi hj h
    exact ⟨(hrel i j e f hi hj h).le, (hrel i j e f hi hj h).saturated⟩
  · intro hmax i j e f hi hj h
    exact (hrel i j e f hi hj h).lt (hmax f (List.mem_of_getElem? hj))
  · intro p source physical t w' ht hstep hmax
    simp only [Step, World.apply, ht, Option.some.injEq] at hstep
    subst hstep
    have hprec := recv_precedes (w.states p) physical t
    simp only [World.record, Function.update_self] at hmax ⊢
    exact ⟨hprec.1.lt hmax, hprec.2.lt hmax⟩

/-- `false` sends; `true` receives and then has a local event, its time source behind and moving
back. -/
def relayLabels : List (Label Bool UInt64) :=
  [⟨false, .send, 1000⟩, ⟨true, .receive 0, 500⟩, ⟨true, .event, 400⟩]

theorem happensBefore_timestamps_relay : ∃ w : Network Bool,
    Run (Step stamping) anyStep { states := fun _ => ⟨ZERO⟩, log := [] } w ∧
      w.log.map (·.stamp) = [⟨1000, 0⟩, ⟨1000, 1⟩, ⟨1000, 2⟩] ∧
      HappensBefore w.log 0 2 ∧ (⟨1000, 0⟩ : Timestamp) < ⟨1000, 2⟩ := by
  obtain ⟨w, hw⟩ : ∃ w, relayLabels.foldlM (World.apply stamping)
      { states := fun _ => ⟨ZERO⟩, log := [] } = some w := ⟨_, rfl⟩
  have hrun : Run (Step stamping) anyStep { states := fun _ => ⟨ZERO⟩, log := [] } w :=
    Run.of_ops hw
  have hlog : w.log = [⟨false, .send, ⟨1000, 0⟩⟩, ⟨true, .receive 0, ⟨1000, 1⟩⟩,
      ⟨true, .event, ⟨1000, 2⟩⟩] := by
    obtain rfl := Option.some.inj hw
    decide
  have hbefore : HappensBefore w.log 0 2 := by
    rw [hlog]
    have hsend : Direct [(⟨false, .send, ⟨1000, 0⟩⟩ : Event Bool Timestamp),
        ⟨true, .receive 0, ⟨1000, 1⟩⟩, ⟨true, .event, ⟨1000, 2⟩⟩] 0 1 :=
      ⟨_, _, rfl, rfl, .inr ⟨rfl, rfl⟩⟩
    exact (Relation.TransGen.single hsend).tail ⟨_, _, rfl, rfl, .inl ⟨by decide, rfl⟩⟩
  have hstrict := (happensBefore_timestamps _ w hrun).2.1 (by rw [hlog]; decide) 0 2
    ⟨false, .send, ⟨1000, 0⟩⟩ ⟨true, .event, ⟨1000, 2⟩⟩ (by rw [hlog]; rfl) (by rw [hlog]; rfl) hbefore
  exact ⟨w, hrun, by rw [hlog]; rfl, hbefore, hstrict⟩

end Clock

end Wacp
