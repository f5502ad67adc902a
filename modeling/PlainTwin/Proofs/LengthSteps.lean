import Mathlib.Data.Nat.Dist
import PlainTwin.Proofs.Checking

namespace PlainTwin.LengthSteps

open Checking Settling StepChain

variable {α : Type} {d : α}

def resized (k : Nat) (v : List (Option α)) : List (Option α) :=
  v.take k ++ List.replicate (k - v.length) none

theorem length_resized (k : Nat) (v : List (Option α)) : (resized k v).length = k := by
  simp only [resized, List.length_append, List.length_take, List.length_replicate]
  omega

theorem getElem?_resized_of_lt {k i : Nat} {v : List (Option α)} (hv : i < v.length) (hk : i < k) :
    (resized k v)[i]? = v[i]? := by
  have htake : i < (v.take k).length := by
    rw [List.length_take]
    omega
  rw [resized, List.getElem?_append_left htake, List.getElem?_take_of_lt hk]

theorem getElem?_resized_of_le {k i : Nat} {v : List (Option α)} (hv : v.length ≤ i) (hk : i < k) :
    (resized k v)[i]? = some none := by
  have htake : (v.take k).length = v.length := by
    rw [List.length_take]
    omega
  rw [resized, List.getElem?_append_right (by omega), List.getElem?_replicate_of_lt (by omega)]

def target (r : LengthRule) (k : Nat) : Nat :=
  match r.op with
  | .eq => r.bound.toNat
  | .gt => max k (min (r.bound.toNat + 1) maxLength)
  | .ge => max k r.bound.toNat
  | .lt => min k (r.bound.toNat - 1)
  | .le => min k r.bound.toNat

theorem settleStep_step (r : LengthRule) (v : List (Option α)) :
    settleStep d r.step v = resized (target r v.length) v := by
  have hpad (n : Nat) : padTo n v = resized (max v.length n) v := by
    have htake : v.take (max v.length n) = v := List.take_of_length_le (by omega)
    have hrest : max v.length n - v.length = n - v.length := by omega
    rw [resized, htake, hrest, padTo]
  have hcut (n : Nat) : cutTo n v = resized (min v.length n) v := by
    have htake : v.take (min v.length n) = v.take n := by
      rw [Nat.min_comm, ← List.take_take, List.take_length]
    have hrest : min v.length n - v.length = 0 := by omega
    rw [resized, htake, hrest, List.replicate_zero, List.append_nil, cutTo]
  obtain ⟨op, bound⟩ := r
  cases op with
  | eq => rfl
  | gt | ge => exact hpad _
  | lt | le => exact hcut _

theorem dist_target_lt {r : LengthRule} {k n : Nat} (hn : r.allows n) (hne : n ≠ target r k) :
    Nat.dist (target r k) k < Nat.dist n k := by
  obtain ⟨op, bound⟩ := r
  have hsize : bound.toNat < UInt64.size := bound.toNat_lt
  cases op with
  | eq => exact absurd (by simpa [LengthRule.allows, target] using hn) hne
  | gt | ge | lt | le =>
      simp only [LengthRule.allows, decide_eq_true_eq] at hn
      simp only [target, maxLength] at hne ⊢
      unfold Nat.dist
      omega

/-- What a rule makes of a sequence: the nearest length that it allows, at the end of which
elements are dropped or nulls are added. -/
structure Adjusted (r : LengthRule) (v w : List (Option α)) : Prop where
  allows : r.allows w.length
  eq_iff : w = v ↔ r.allows v.length
  agrees : ∀ i, i < v.length → i < w.length → w[i]? = v[i]?
  fills : ∀ i, v.length ≤ i → i < w.length → w[i]? = some none
  nearest : ∀ n, r.allows n → n ≠ w.length → Nat.dist w.length v.length < Nat.dist n v.length

theorem adjusted_settleStep {r : LengthRule} (hlt : r ≠ ⟨.lt, 0⟩)
    (hgt : r ≠ ⟨.gt, .ofNat maxLength⟩) (v : List (Option α)) :
    Adjusted r v (settleStep d r.step v) := by
  have hallows := allows_of_fits_step hlt hgt (fits_settleStep (d := d) r.step v)
  refine ⟨hallows, ⟨fun h => ?_, fun h => settleStep_eq_self (fits_step_of_allows h)⟩,
    ?_, ?_, ?_⟩
  · rw [h] at hallows
    exact hallows
  · rw [settleStep_step, length_resized]
    exact fun i => getElem?_resized_of_lt
  · rw [settleStep_step, length_resized]
    exact fun i => getElem?_resized_of_le
  · rw [settleStep_step, length_resized]
    exact fun n => dist_target_lt

theorem exists_acts (d : α) (r : LengthRule) :
    ∃ g F B, Acts d r.step (.list (.option .elem)) g F B := by
  obtain ⟨op, bound⟩ := r
  cases op with
  | eq => exact ⟨_, _, _, .fix _⟩
  | gt | ge => exact ⟨_, _, _, .pad _⟩
  | lt | le => exact ⟨_, _, _, .cut _⟩

def stepBound? : Step → Option Nat
  | .fix n | .pad n | .cut n => some n
  | .nonnull _ | .single => none

theorem stepBound?_step (r : LengthRule) : ∃ n ≤ maxLength, stepBound? r.step = some n := by
  obtain ⟨op, bound⟩ := r
  have hsize : bound.toNat < UInt64.size := bound.toNat_lt
  cases op with
  | eq | ge | le => exact ⟨bound.toNat, Nat.le_sub_one_of_lt hsize, rfl⟩
  | gt => exact ⟨_, Nat.min_le_right _ _, rfl⟩
  | lt => exact ⟨bound.toNat - 1, by unfold maxLength; omega, rfl⟩

theorem steps_eq_cons {c : Constraint} {r : LengthRule} (hr : c.length = some r) :
    ∃ rest, c.steps = r.step :: rest ∧ ∀ s ∈ rest, stepBound? s = none := by
  have hsteps : c.steps = r.step ::
      ((if c.requiresNonnull then [.nonnull c.fixedLength?.isSome] else []) ++
        if c.fixedLength? = some 1 then [.single] else []) := by
    simp [Constraint.steps, hr]
  refine ⟨_, hsteps, fun s hs => ?_⟩
  rcases List.mem_append.mp hs with hs | hs
  · split at hs
    · rw [List.mem_singleton.mp hs, stepBound?]
    · cases hs
  · split at hs
    · rw [List.mem_singleton.mp hs, stepBound?]
    · cases hs

/-- The step on the length is the first one. It makes what it is given fit the rule, changes as
little as it can and nothing that fits already. Its bound can be counted: where the next length
below or above would not be one, which is where a rule allows none, it stays at the last that is. -/
theorem adjusted_of_rule (d : α) {c : Constraint} {r : LengthRule} (hr : c.length = some r) :
    (∃ rest, c.steps = r.step :: rest ∧ ∀ s ∈ rest, stepBound? s = none) ∧
      (∃ n ≤ maxLength, stepBound? r.step = some n) ∧
      (∃ g F, r.step.forwardPrimitive.meaning? d (.list (.option .elem)) = some ⟨g, F⟩ ∧
        (r ≠ ⟨.lt, 0⟩ → r ≠ ⟨.gt, .ofNat maxLength⟩ → ∀ v, Adjusted r v (slots g (F v)))) ∧
      (r = ⟨.lt, 0⟩ → (∀ n, r.allows n = false) ∧ r.step = .cut 0) ∧
      (r = ⟨.gt, .ofNat maxLength⟩ →
        (∀ n ≤ maxLength, r.allows n = false) ∧ r.step = .pad maxLength) := by
  refine ⟨steps_eq_cons hr, stepBound?_step r, ?_, ?_, ?_⟩
  · obtain ⟨g, F, B, hacts⟩ := exists_acts d r
    refine ⟨g, F, hacts.forward, fun hlt hgt v => ?_⟩
    rw [slots_forward hacts]
    exact adjusted_settleStep hlt hgt v
  · rintro rfl
    exact ⟨fun n => by simp [LengthRule.allows], rfl⟩
  · rintro rfl
    have hbound : (UInt64.ofNat maxLength).toNat = maxLength := by decide
    refine ⟨fun n hn => ?_, ?_⟩
    · simp only [LengthRule.allows, hbound, decide_eq_false_iff_not]
      omega
    · simp only [LengthRule.step, hbound]
      exact congrArg Step.pad (Nat.min_eq_right (Nat.le_succ maxLength))

theorem adjusted_of_rule_gt :
    (⟨none, some ⟨.gt, 2⟩, none⟩ : Constraint).length = some ⟨.gt, 2⟩ ∧
      Adjusted ⟨.gt, 2⟩ [some 'a'] [some 'a', none, none] := by
  have hlength : (⟨none, some ⟨.gt, 2⟩, none⟩ : Constraint).length = some ⟨.gt, 2⟩ := rfl
  have hstep : (⟨.gt, 2⟩ : LengthRule).step = .pad 3 := by decide
  obtain ⟨-, -, ⟨g, F, hF, hadjusted⟩, -⟩ := adjusted_of_rule 'z' hlength
  rw [hstep] at hF
  cases hF
  exact ⟨hlength, hadjusted (by decide) (by decide) [some 'a']⟩

end PlainTwin.LengthSteps
