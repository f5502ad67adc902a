import PlainTwin.Proofs.Checking
import PlainTwin.Proofs.ElasticRuns
import PlainTwin.Proofs.Success

namespace PlainTwin.StateAgreement

open Checking ElasticRuns ElasticStates Success

variable {α : Type} {c : Constraint} {e : Elastic α}

/-- What a constraint says of the states alone: those that apply, if it names any. -/
def onStates (c : Constraint) : Constraint := { states := c.states.map fun _ => c.effectiveStates }

def isSequenceFor (c : Constraint) (e : Elastic α) : Bool :=
  e.isDefined || e.isNull && c.states.isNone

theorem exists_form (h : e.inner ≠ .null) :
    e = .undefined ∨ e = .null ∨ ∃ xs, xs ≠ [none] ∧ e = .ofList xs := by
  obtain ⟨t⟩ := e
  cases t with
  | undefined => exact .inl rfl
  | null => exact absurd rfl h
  | defined xs =>
      by_cases hxs : xs = [none]
      · subst hxs
        exact .inr (.inl rfl)
      · exact .inr (.inr ⟨xs, hxs, rfl⟩)

theorem states_ofList {xs : List (Option α)} (h : xs ≠ [none]) :
    (Elastic.ofList xs).states = ⟨true, false, false⟩ := by
  have hnull := isNull_ofList h
  have hdef : (Elastic.ofList xs).isDefined = !(Elastic.ofList xs).isNull := rfl
  have hund : (Elastic.ofList xs).isUndefined = false := rfl
  rw [Elastic.states, hdef, hund, hnull]
  rfl

theorem checkStates_onStates (c : Constraint) (held : StateSet) :
    (onStates c).checkStates held =
      if held.defined && !c.effectiveStates.defined then .error .defined
      else if held.null && !c.effectiveStates.null then .error .null
      else if held.undefined && !c.effectiveStates.undefined then .error .undefined
      else .ok () := by
  cases hs : c.states with
  | none =>
      rw [effectiveStates_of_none hs]
      simp [onStates, Constraint.checkStates, hs, StateSet.all]
  | some s => simp [onStates, Constraint.checkStates, hs]

theorem checkElastic_eq (h : e.inner ≠ .null) : c.checkElastic e = (do
    (onStates c).checkStates e.states
    if isSequenceFor c e then c.checkSequence e else .ok ()) := by
  rw [checkStates_onStates]
  rcases exists_form h with rfl | rfl | ⟨xs, hxs, rfl⟩
  · rw [checkElastic_undefined]
    cases c.effectiveStates.undefined <;> rfl
  · have hstates : (Elastic.null : Elastic α).states = ⟨false, true, false⟩ := rfl
    have hseq : isSequenceFor c (Elastic.null : Elastic α) = c.states.isNone := rfl
    rw [checkElastic_null, hstates, hseq]
    cases hs : c.states with
    | none =>
        rw [effectiveStates_of_none hs]
        rfl
    | some s => cases c.effectiveStates.null <;> rfl
  · have hdef : (Elastic.ofList xs).isDefined = true := congrArg StateSet.defined (states_ofList hxs)
    rw [checkElastic_ofList c hxs, states_ofList hxs, isSequenceFor, hdef]
    cases c.effectiveStates.defined <;> rfl

theorem onStates_of_parts (hlength : c.length = none) (hvalues : c.values = none) :
    onStates c = c := by
  obtain ⟨states, length, values⟩ := c
  obtain rfl : length = none := hlength
  obtain rfl : values = none := hvalues
  cases states <;> rfl

theorem checkSequence_of_parts (hlength : c.length = none) (hvalues : c.values = none)
    (e : Elastic α) : c.checkSequence e = .ok () := by
  simp [Constraint.checkSequence, Constraint.checkLength, Constraint.checkValues, hlength, hvalues,
    bind, Except.bind]

/-- An elastic value that the operations lead to is judged by its states as any other value is. Where
a constraint says nothing of sequences the two checks give one answer. Elsewhere the elastic one is
the stricter, but what it reports of a state the other one reports too. -/
theorem checkElastic_agrees (h : Run e) (c : Constraint) :
    (c.length = none → c.values = none → c.checkElastic e = c.checkStates e.states) ∧
    (c.checkElastic e = .ok () → (onStates c).checkStates e.states = .ok ()) ∧
    ∀ v ∈ [Violation.defined, .null, .undefined], c.checkElastic e = .error v →
      (onStates c).checkStates e.states = .error v := by
  have heq := checkElastic_eq (c := c) (inner_ne_null_of_run h)
  refine ⟨fun hlength hvalues => ?_, fun hok => ?_, fun v hv herr => ?_⟩
  · rw [heq, onStates_of_parts hlength hvalues, checkSequence_of_parts hlength hvalues, ite_self]
    exact bind_pure _
  · obtain ⟨⟨⟩, hstates, -⟩ := bind_eq_ok_iff.mp (heq.symm.trans hok)
    exact hstates
  · rw [heq] at herr
    cases hstates : (onStates c).checkStates e.states with
    | error u =>
        rw [hstates] at herr
        exact herr
    | ok u =>
        rw [hstates] at herr
        have hseq : c.checkSequence e = .error v := by
          cases hs : isSequenceFor c e with
          | true => simpa [hs, bind, Except.bind] using herr
          | false => simp [hs, bind, Except.bind] at herr
        obtain ⟨r, -, rfl⟩ | rfl := checkSequence_eq_error hseq <;> simp at hv

theorem checkElastic_agrees_fixed :
    (onStates ⟨some .nullish, some ⟨.eq, 2⟩, none⟩).checkStates
        (Elastic.ofList [some 7, none]).states = .ok () ∧
      (onStates ⟨some .required, some ⟨.eq, 2⟩, none⟩).checkStates
        (Elastic.undefined : Elastic Nat).states = .error .undefined := by
  constructor
  · exact (checkElastic_agrees (.start (.ofList _)) ⟨some .nullish, some ⟨.eq, 2⟩, none⟩).2.1 rfl
  · exact (checkElastic_agrees (.start .undefined) ⟨some .required, some ⟨.eq, 2⟩, none⟩).2.2 _
      (by simp) rfl

end PlainTwin.StateAgreement
