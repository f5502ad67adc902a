import PlainTwin.Tag.Parser

namespace PlainTwin.StateWords

open Tag

def named (ws : List StateWord) : StateSet := ⟨.defined ∈ ws, .null ∈ ws, .undefined ∈ ws⟩

/-- The words that may stand in one tag, and the states that they name together. -/
inductive NamesStates : List StateWord → Option StateSet → Prop
  | nil : NamesStates [] none
  | required : NamesStates [.required] (some ⟨true, false, false⟩)
  | nullish : NamesStates [.nullish] (some ⟨false, true, true⟩)
  | words {ws} (hne : ws ≠ []) (hnodup : ws.Nodup)
      (hplain : ∀ w ∈ ws, w ∈ [.defined, .null, .undefined]) : NamesStates ws (some (named ws))

theorem namesStates_nil_iff {o : Option StateSet} : NamesStates [] o ↔ o = none := by
  constructor
  · intro h
    cases h with
    | nil => rfl
    | words hne => exact absurd rfl hne
  · rintro rfl
    exact .nil

theorem isShorthand_eq_false_iff {w : StateWord} :
    w.isShorthand = false ↔ w ∈ [.defined, .null, .undefined] := by
  cases w <;> simp [StateWord.isShorthand]

theorem any_isShorthand_eq_false_iff {ws : List StateWord} :
    ws.any StateWord.isShorthand = false ↔ ∀ w ∈ ws, w ∈ [.defined, .null, .undefined] := by
  simp only [List.any_eq_false, Bool.not_eq_true, isShorthand_eq_false_iff]

theorem meets_named {w : StateWord} (hw : w.isShorthand = false) (ws : List StateWord) :
    (named ws).meets w.states = decide (w ∈ ws) := by
  cases w with
  | required | nullish => cases hw
  | defined | null | undefined =>
      simp [named, StateSet.meets, StateWord.states, StateSet.empty]

theorem union_named {w : StateWord} (hw : w.isShorthand = false) (ws : List StateWord) :
    (named ws).union w.states = named (ws ++ [w]) := by
  cases w with
  | required | nullish => cases hw
  | defined | null | undefined =>
      simp [named, StateSet.union, StateWord.states, StateSet.empty]

theorem named_nil : named [] = .empty := by
  simp [named, StateSet.empty]

theorem eq_nil_of_isEmpty_named {ws : List StateWord}
    (hshort : ws.any StateWord.isShorthand = false) (h : (named ws).isEmpty) : ws = [] := by
  cases ws with
  | nil => rfl
  | cons w ws =>
      have hw : w ∈ [.defined, .null, .undefined] :=
        any_isShorthand_eq_false_iff.mp hshort w List.mem_cons_self
      simp only [List.mem_cons, List.not_mem_nil, or_false] at hw
      rcases hw with rfl | rfl | rfl <;> simp [named, StateSet.isEmpty, StateSet.empty] at h

theorem exists_namesStates {ws : List StateWord} (hnodup : ws.Nodup)
    (hshort : ws.any StateWord.isShorthand = false) :
    ∃ o, NamesStates ws o ∧ o.getD .empty = named ws := by
  by_cases hne : ws = []
  · subst hne
    exact ⟨none, .nil, named_nil.symm⟩
  · exact ⟨some (named ws), .words hne hnodup (any_isShorthand_eq_false_iff.mp hshort), rfl⟩

theorem NamesStates.nodup_and_eq {ws : List StateWord} {o : Option StateSet} (h : NamesStates ws o)
    (hshort : ws.any StateWord.isShorthand = false) : ws.Nodup ∧ o.getD .empty = named ws := by
  cases h with
  | nil => exact ⟨List.nodup_nil, named_nil.symm⟩
  | required | nullish => cases hshort
  | words hne hnodup hplain => exact ⟨hnodup, rfl⟩

theorem namesStates_concat_iff {ws : List StateWord} {w : StateWord} {o' : Option StateSet} :
    NamesStates (ws ++ [w]) o' ↔ ∃ o, NamesStates ws o ∧ ws.any StateWord.isShorthand = false ∧
      (w.isShorthand → (o.getD .empty).isEmpty) ∧ (o.getD .empty).meets w.states = false ∧
      o' = some ((o.getD .empty).union w.states) := by
  constructor
  · intro h
    generalize hws : ws ++ [w] = ws' at h
    cases h with
    | nil => simp at hws
    | required | nullish =>
        obtain ⟨rfl, ⟨⟩⟩ := (List.append_eq_singleton_iff.mp hws).resolve_right (by simp)
        exact ⟨none, .nil, rfl, fun _ => rfl, rfl, rfl⟩
    | words hne hnodup hplain =>
        subst hws
        rw [← any_isShorthand_eq_false_iff, List.any_append, Bool.or_eq_false_iff] at hplain
        obtain ⟨hshort, hw⟩ := hplain
        have hw : w.isShorthand = false := by simpa using hw
        rw [(List.perm_append_singleton w ws).nodup_iff, List.nodup_cons] at hnodup
        obtain ⟨hmem, hws⟩ := hnodup
        obtain ⟨o, ho, hset⟩ := exists_namesStates hws hshort
        refine ⟨o, ho, hshort, ?_, ?_, ?_⟩
        · simp [hw]
        · rw [hset, meets_named hw, decide_eq_false hmem]
        · rw [hset, union_named hw]
  · rintro ⟨o, h, hshort, hempty, hmeets, rfl⟩
    obtain ⟨hnodup, hset⟩ := h.nodup_and_eq hshort
    rw [hset] at hempty hmeets ⊢
    cases hw : w.isShorthand with
    | true =>
        obtain rfl := eq_nil_of_isEmpty_named hshort (hempty hw)
        rw [named_nil]
        cases w with
        | required => exact .required
        | nullish => exact .nullish
        | defined | null | undefined => cases hw
    | false =>
        rw [meets_named hw, decide_eq_false_iff_not] at hmeets
        rw [union_named hw]
        refine .words (by simp) ?_ ?_
        · rw [(List.perm_append_singleton w ws).nodup_iff, List.nodup_cons]
          exact ⟨hmeets, hnodup⟩
        · rw [← any_isShorthand_eq_false_iff]
          simp [hshort, hw]

end PlainTwin.StateWords
