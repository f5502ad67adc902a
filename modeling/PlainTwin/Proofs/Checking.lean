import PlainTwin.Proofs.ElasticStates
import PlainTwin.Proofs.Settling
import PlainTwin.Tag.Check

namespace PlainTwin.Checking

open ElasticStates Settling

variable {α : Type}

def check (c : Constraint) : (k : Kind) → k.form.Val α → Except Violation Unit
  | .option, o => c.checkOption o
  | .tri, t => c.checkTri t
  | .elastic, e => c.checkElastic e

theorem checkOption_some {c : Constraint} {s : StateSet} (hc : c.states = some s)
    (hs : s.defined = true) (a : α) : c.checkOption (some a) = .ok () := by
  simp [Constraint.checkOption, hc, hs]

theorem checkOption_none {c : Constraint} {s : StateSet} (hc : c.states = some s)
    (hs : s.allowsNullish = true) : c.checkOption (none : Option α) = .ok () := by
  simp [Constraint.checkOption, hc, hs]

theorem checkStates_of_some {c : Constraint} {s : StateSet} (hc : c.states = some s) (t : Tri α) :
    c.checkTri t = .ok () ↔ s.meets t.states := by
  obtain ⟨a, b, u⟩ := s
  cases t <;> simp [Constraint.checkTri, Constraint.checkStates, hc, Tri.states, StateSet.meets,
    Tri.isDefined, Tri.isNull, Tri.isUndefined]

theorem checkElastic_undefined (c : Constraint) :
    c.checkElastic (Elastic.undefined : Elastic α) =
      if c.effectiveStates.undefined then .ok () else .error .undefined := rfl

theorem checkElastic_null (c : Constraint) :
    c.checkElastic (Elastic.null : Elastic α) =
      if c.states.isSome then if c.effectiveStates.null then .ok () else .error .null
      else c.checkSequence (Elastic.null : Elastic α) := rfl

theorem checkElastic_ofList (c : Constraint) {xs : List (Option α)} (h : xs ≠ [none]) :
    c.checkElastic (Elastic.ofList xs) =
      if !c.effectiveStates.defined then .error .defined
      else c.checkSequence (Elastic.ofList xs) := by
  have hund : (Elastic.ofList xs).isUndefined = false := rfl
  simp [Constraint.checkElastic, isNull_ofList h, hund]

theorem effectiveStates_of_none {c : Constraint} (h : c.states = none) :
    c.effectiveStates = .all := by
  unfold Constraint.effectiveStates
  rw [h]
  split <;> rfl

theorem checkTri_of_meets {c : Constraint} (hc : c.effectiveStates = c.states.getD .all)
    {t : Tri α} (h : c.effectiveStates.meets t.states) : c.checkTri t = .ok () := by
  cases hs : c.states with
  | none => simp [Constraint.checkTri, Constraint.checkStates, hs]
  | some s =>
      obtain rfl : c.effectiveStates = s := by rw [hc, hs, Option.getD_some]
      exact (checkStates_of_some hs t).mpr h

theorem hasNull_ofList (xs : List (Option α)) :
    (Elastic.ofList xs).hasNull = true ↔ none ∈ xs := by
  simp [Elastic.hasNull, Elastic.toList_ofList]

theorem checkLength_eq_ok_iff (c : Constraint) (n : Nat) :
    c.checkLength n = .ok () ↔ ∀ r, c.length = some r → r.allows n := by
  cases hr : c.length <;> simp [Constraint.checkLength, hr]

theorem checkValues_eq_ok_iff (c : Constraint) (hasNull : Bool) :
    c.checkValues hasNull = .ok () ↔ (c.requiresNonnull → hasNull = false) := by
  obtain ⟨states, length, values⟩ := c
  rcases values with _ | ⟨_ | _⟩ <;>
    simp [Constraint.checkValues, Constraint.requiresNonnull, ValuesRule.allows]

theorem checkLength_eq_error {c : Constraint} {n : Nat} {e : Violation}
    (h : c.checkLength n = .error e) : ∃ r, c.length = some r ∧ e = .length r n := by
  unfold Constraint.checkLength at h
  split at h
  · next r hr =>
      split at h
      · cases h
      · exact ⟨r, hr, (Except.error.inj h).symm⟩
  · cases h

theorem checkValues_eq_error {c : Constraint} {hasNull : Bool} {e : Violation}
    (h : c.checkValues hasNull = .error e) : e = .nullElement := by
  unfold Constraint.checkValues at h
  split at h
  · split at h
    · cases h
    · exact (Except.error.inj h).symm
  · cases h

theorem checkSequence_eq_error {c : Constraint} {e : Elastic α} {v : Violation}
    (h : c.checkSequence e = .error v) :
    (∃ r, c.length = some r ∧ v = .length r e.length) ∨ v = .nullElement := by
  unfold Constraint.checkSequence at h
  cases hlen : c.checkLength e.length with
  | error u =>
      rw [hlen] at h
      obtain rfl : u = v := Except.error.inj h
      exact .inl (checkLength_eq_error hlen)
  | ok u =>
      rw [hlen] at h
      exact .inr (checkValues_eq_error h)

theorem checkSequence_iff (c : Constraint) (e : Elastic α) : c.checkSequence e = .ok () ↔
    (∀ r, c.length = some r → r.allows e.length) ∧ (c.requiresNonnull → e.hasNull = false) := by
  rw [← checkLength_eq_ok_iff, ← checkValues_eq_ok_iff, Constraint.checkSequence]
  cases hl : c.checkLength e.length with
  | ok u => simp [bind, Except.bind]
  | error e => simp [bind, Except.bind]

theorem checkSequence_eq_ok_iff (c : Constraint) (xs : List (Option α)) :
    c.checkSequence (Elastic.ofList xs) = .ok () ↔
      (∀ r, c.length = some r → r.allows xs.length) ∧ (c.requiresNonnull → none ∉ xs) := by
  have hlen : (Elastic.ofList xs).length = xs.length := rfl
  rw [checkSequence_iff, hlen, ← hasNull_ofList, Bool.not_eq_true]

theorem mem_steps {c : Constraint} {s : Step} : s ∈ c.steps ↔
    (∃ r, c.length = some r ∧ r.step = s) ∨
      (c.requiresNonnull ∧ s = .nonnull c.fixedLength?.isSome) ∨
      (c.fixedLength? = some 1 ∧ s = .single) := by
  simp only [Constraint.steps, List.mem_append, Option.mem_toList, Option.map_eq_some_iff, or_assoc]
  refine or_congr_right (or_congr ?_ ?_)
  · cases c.requiresNonnull <;> simp
  · by_cases h : c.fixedLength? = some 1 <;> simp [h]

theorem fits_step_of_allows {r : LengthRule} {xs : List (Option α)} (h : r.allows xs.length) :
    Fits r.step xs := by
  obtain ⟨op, bound⟩ := r
  cases op <;> simp [LengthRule.allows, LengthRule.step, Fits] at h ⊢ <;> omega

/-- A step leads to an allowed length, unless no countable length is allowed at all. -/
theorem allows_of_fits_step {r : LengthRule} {xs : List (Option α)} (hlt : r ≠ ⟨.lt, 0⟩)
    (hgt : r ≠ ⟨.gt, .ofNat maxLength⟩) (h : Fits r.step xs) : r.allows xs.length := by
  obtain ⟨op, bound⟩ := r
  cases op with
  | eq | ge | le => simpa [LengthRule.allows, LengthRule.step, Fits] using h
  | gt =>
      have hbound : bound.toNat ≠ maxLength := by
        intro hb
        exact hgt (by rw [← hb, UInt64.ofNat_toNat])
      have hsize : bound.toNat < UInt64.size := bound.toNat_lt
      have hfits : min (bound.toNat + 1) maxLength ≤ xs.length := h
      simp only [LengthRule.allows, decide_eq_true_eq, maxLength] at hbound hfits ⊢
      omega
  | lt =>
      have hbound : bound.toNat ≠ 0 := by
        intro hb
        exact hlt (by rw [← UInt64.ofNat_toNat (x := bound), hb]; rfl)
      have hfits : xs.length ≤ bound.toNat - 1 := h
      simp only [LengthRule.allows, decide_eq_true_eq]
      omega

theorem fits_of_checkSequence {c : Constraint} {xs : List (Option α)}
    (h : c.checkSequence (Elastic.ofList xs) = .ok ()) : ∀ s ∈ c.steps, Fits s xs := by
  obtain ⟨hlen, hnull⟩ := (checkSequence_eq_ok_iff c xs).mp h
  intro s hs
  rcases mem_steps.mp hs with ⟨r, hr, rfl⟩ | ⟨hc, rfl⟩ | ⟨-, rfl⟩
  · exact fits_step_of_allows (hlen r hr)
  · exact hnull hc
  · trivial

theorem checkSequence_of_fits {c : Constraint} {xs : List (Option α)}
    (hlt : c.length ≠ some ⟨.lt, 0⟩) (hgt : c.length ≠ some ⟨.gt, .ofNat maxLength⟩)
    (h : ∀ s ∈ c.steps, Fits s xs) : c.checkSequence (Elastic.ofList xs) = .ok () := by
  rw [checkSequence_eq_ok_iff]
  refine ⟨fun r hr => ?_, fun hc => ?_⟩
  · refine allows_of_fits_step ?_ ?_ (h r.step (mem_steps.mpr (.inl ⟨r, hr, rfl⟩)))
    · exact fun he => hlt (he ▸ hr)
    · exact fun he => hgt (he ▸ hr)
  · exact h _ (mem_steps.mpr (.inr (.inl ⟨hc, rfl⟩)))

end PlainTwin.Checking
