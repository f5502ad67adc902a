import PlainTwin.Proofs.StepChain

namespace PlainTwin.Selection

open StepChain Conversion

variable {α : Type}

structure Selected (c : Constraint) (conv : Conversion) : Prop where
  refined : c.isRefined → conv.kind = .elastic
  nonempty : c.effectiveStates.isEmpty = false
  wrap : c.wrap? conv.kind = some conv.wrap
  steps : conv.steps = if conv.kind = .elastic ∧ conv.wrap.carriesValue then c.steps else []

theorem selected_of_select {c : Constraint} {k : Kind} {conv : Conversion}
    (h : c.select k = .ok (some conv)) : conv.kind = k ∧ Selected c conv := by
  by_cases hkind : c.isRefined && k != .elastic
  · simp [Constraint.select, hkind] at h
  · by_cases hempty : c.effectiveStates.isEmpty
    · simp [Constraint.select, hkind, hempty] at h
    · rw [Constraint.select, if_neg hkind, if_neg hempty] at h
      obtain ⟨w, hw, rfl⟩ := Option.map_eq_some_iff.mp (Except.ok.inj h)
      refine ⟨rfl, ?_, by simpa using hempty, hw, rfl⟩
      intro hc
      simpa [hc] using hkind

theorem Selected.steps_of_elastic {c : Constraint} {conv : Conversion} (h : Selected c conv)
    (hk : conv.kind = .elastic) (hw : conv.wrap.carriesValue) : conv.steps = c.steps := by
  rw [h.steps, if_pos ⟨hk, hw⟩]

theorem Selected.steps_of_ne_elastic {c : Constraint} {conv : Conversion} (h : Selected c conv)
    (hk : conv.kind ≠ .elastic) : conv.steps = [] := by
  rw [h.steps, if_neg (fun hc => hk hc.1)]

theorem Selected.mem_steps {c : Constraint} {conv : Conversion} (h : Selected c conv) {s : Step}
    (hs : s ∈ conv.steps) : s ∈ c.steps := by
  rw [h.steps] at hs
  split at hs
  · exact hs
  · exact absurd hs List.not_mem_nil

theorem Selected.carriesValue_or_steps_eq_nil {c : Constraint} {conv : Conversion}
    (h : Selected c conv) : conv.wrap.carriesValue ∨ conv.steps = [] := by
  by_cases hw : conv.wrap.carriesValue
  · exact .inl hw
  · exact .inr (by rw [h.steps, if_neg (fun hc => hw hc.2)])

theorem Selected.wrap_eq {c : Constraint} {conv : Conversion} (h : Selected c conv)
    (hk : conv.kind ≠ .option) : conv.wrap = c.effectiveStates.triWrap := by
  have hwrap : (if c.effectiveStates.isAll && !c.isRefined then none
      else some c.effectiveStates.triWrap) = some conv.wrap := by
    obtain ⟨k, ss, w⟩ := conv
    cases k with
    | option => exact absurd rfl hk
    | tri | elastic => exact h.wrap
  split at hwrap
  · cases hwrap
  · exact (Option.some.inj hwrap).symm

theorem Selected.effectiveStates_eq {c : Constraint} {conv : Conversion} (h : Selected c conv)
    (hk : conv.kind ≠ .elastic) : c.effectiveStates = c.states.getD .all := by
  have hc : c.isRefined = false := Bool.eq_false_iff.mpr fun hr => hk (h.refined hr)
  have hlen : c.length = none := by simpa using (Bool.or_eq_false_iff.mp hc).1
  simp [Constraint.effectiveStates, hlen]

/-- A two-state container is converted only when one of its states is not allowed. -/
theorem Selected.option_cases {c : Constraint} {conv : Conversion} (h : Selected c conv)
    (hk : conv.kind = .option) : ∃ s, c.states = some s ∧
      ((conv.wrap = .value ∧ s.defined = true ∧ s.allowsNullish = false) ∨
        (conv.wrap = .marker false ∧ s.defined = false ∧ s.allowsNullish = true)) := by
  have heff := h.effectiveStates_eq (by simp [hk])
  have hwrap : c.effectiveStates.optionWrap? = some conv.wrap := by
    obtain ⟨k, ss, w⟩ := conv
    subst hk
    exact h.wrap
  have hempty := h.nonempty
  rw [heff] at hwrap hempty
  cases hs : c.states with
  | none => simp [hs, StateSet.optionWrap?, StateSet.all, StateSet.allowsNullish] at hwrap
  | some s =>
      refine ⟨s, rfl, ?_⟩
      rw [hs, Option.getD_some] at hwrap hempty
      obtain ⟨defined, null, undefined⟩ := s
      cases defined <;> cases null <;> cases undefined <;>
        simp_all [StateSet.optionWrap?, StateSet.allowsNullish, StateSet.isEmpty, StateSet.empty]

end PlainTwin.Selection
