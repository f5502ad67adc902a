import PlainTwin.Proofs.Checking
import PlainTwin.Proofs.StateWrap

namespace PlainTwin.Repair

open Checking ElasticStates PlainTrip Selection Settling StateWrap

variable {α : Type}

def IsNullForm : (k : Kind) → k.form.Val α → Prop
  | .option, _ | .tri, _ => False
  | .elastic, e => e = .null

/-- How the null form may be refused. A tag that names states is asked for null; one that names
none is asked for a sequence of one null. -/
inductive Refusal (c : Constraint) : Violation → Prop
  | null (hc : c.states.isSome) : Refusal c .null
  | length (r) (hc : c.states = none) (hr : c.length = some r) : Refusal c (.length r 1)
  | nullElement (hc : c.states = none) : Refusal c .nullElement

theorem checkElastic_null_cases (c : Constraint) :
    c.checkElastic (Elastic.null : Elastic α) = .ok () ∨
      ∃ e, c.checkElastic (Elastic.null : Elastic α) = .error e ∧ Refusal c e := by
  rw [checkElastic_null]
  cases hs : c.states with
  | some s =>
      cases hn : c.effectiveStates.null with
      | true => exact .inl (by simp)
      | false => exact .inr ⟨.null, by simp, .null (by simp [hs])⟩
  | none =>
      simp only [Option.isSome_none, Bool.false_eq_true, if_false]
      cases hseq : c.checkSequence (Elastic.null : Elastic α) with
      | ok u => exact .inl rfl
      | error e =>
          refine .inr ⟨e, rfl, ?_⟩
          rcases checkSequence_eq_error hseq with ⟨r, hr, rfl⟩ | rfl
          · exact .length r hs hr
          · exact .nullElement hs

theorem checkElastic_of_meets {c : Constraint} {t : Tri (List (Option α))}
    (ht : Elastic.ofStates t ≠ .null) (hm : c.effectiveStates.meets t.states)
    (hseq : ∀ xs, t = .defined xs → c.checkSequence (Elastic.ofList xs) = .ok ()) :
    c.checkElastic (Elastic.ofStates t) = .ok () := by
  cases t with
  | undefined =>
      rw [meets_undefined] at hm
      simp [Elastic.ofStates, checkElastic_undefined, hm]
  | null => exact absurd rfl ht
  | defined xs =>
      rw [meets_defined] at hm
      have hxs : xs ≠ [none] := by
        rintro rfl
        exact ht rfl
      simp [Elastic.ofStates, checkElastic_ofList c hxs, hm, hseq xs rfl]

theorem settleStates_eq_defined {f : α → α} {z a : α} {w : Wrap} {t : Tri α}
    (h : settleStates f z w t = .defined a) : w.carriesValue ∧ ∃ b, f b = a := by
  cases w with
  | tri =>
      cases t with
      | undefined | null => cases h
      | defined b => exact ⟨rfl, b, Tri.defined.inj h⟩
  | value => exact ⟨rfl, _, Tri.defined.inj h⟩
  | marker null => cases null <;> cases h
  | markerOption => cases t <;> cases h
  | option null =>
      cases t with
      | undefined | null => cases null <;> cases h
      | defined b => exact ⟨rfl, b, Tri.defined.inj h⟩

theorem check_settled {c : Constraint} {conv : Conversion} (h : Selected c conv)
    (hlt : c.length ≠ some ⟨.lt, 0⟩) (hgt : c.length ≠ some ⟨.gt, .ofNat maxLength⟩) (d : α)
    (v : conv.kind.form.Val α) (hnull : ¬ IsNullForm conv.kind (settled d conv v)) :
    check c conv.kind (settled d conv v) = .ok () := by
  obtain ⟨k, ss, w⟩ := conv
  cases k with
  | option =>
      obtain ⟨s, hs, ⟨hw, hd, -⟩ | ⟨hw, -, hn⟩⟩ := h.option_cases rfl
      · obtain rfl : w = .value := hw
        exact checkOption_some hs hd _
      · obtain rfl : w = .marker false := hw
        exact checkOption_none hs hn
  | tri =>
      obtain rfl : w = c.effectiveStates.triWrap := h.wrap_eq (by simp)
      have hmeets := meets_settleStates h.nonempty (settleValue d ss .tri) d v
      exact checkTri_of_meets (h.effectiveStates_eq (by simp)) hmeets
  | elastic =>
      obtain rfl : w = c.effectiveStates.triWrap := h.wrap_eq (by simp)
      have hmeets := meets_settleStates h.nonempty (settle d ss) [] (Elastic.toStates v)
      refine checkElastic_of_meets hnull hmeets (fun xs hxs => ?_)
      obtain ⟨hw, ys, rfl⟩ := settleStates_eq_defined hxs
      obtain rfl : ss = c.steps := h.steps_of_elastic rfl hw
      exact checkSequence_of_fits hlt hgt (fits_settle (pairwise_keeps_steps d c) ys)

theorem check_cases_of_isNullForm (c : Constraint) {k : Kind} {v : k.form.Val α}
    (h : IsNullForm k v) : check c k v = .ok () ∨ ∃ e, check c k v = .error e ∧ Refusal c e := by
  cases k with
  | option | tri => exact h.elim
  | elastic =>
      subst h
      exact checkElastic_null_cases c

/-- A trip through the plain form makes any value valid, except that it may make up the null form,
which nothing but its own refusals can reject. -/
theorem trip_repairs (d : α) (c : Constraint) (k : Kind) (conv : Conversion)
    (hsel : c.select k = .ok (some conv)) (hlt : c.length ≠ some ⟨.lt, 0⟩)
    (hgt : c.length ≠ some ⟨.gt, .ofNat maxLength⟩) (v : conv.kind.form.Val α) :
    ∃ r, trip? d conv v = some r ∧ (check c conv.kind r = .ok () ∨
      IsNullForm conv.kind r ∧ ∃ e, check c conv.kind r = .error e ∧ Refusal c e) := by
  obtain ⟨-, h⟩ := selected_of_select hsel
  refine ⟨settled d conv v, trip?_eq h d v, ?_⟩
  by_cases hnull : IsNullForm conv.kind (settled d conv v)
  · rcases check_cases_of_isNullForm c hnull with hok | herror
    · exact .inl hok
    · exact .inr ⟨hnull, herror⟩
  · exact .inl (check_settled h hlt hgt d v hnull)

theorem trip_of_empty :
    ∃ r, trip? (0 : Nat) ⟨.elastic, [.fix 1, .single], .option false⟩ (Elastic.ofList []) = some r ∧
      (check ⟨some ⟨true, false, true⟩, some ⟨.eq, 1⟩, none⟩ .elastic r = .ok () ∨
        IsNullForm .elastic r ∧ ∃ e,
          check ⟨some ⟨true, false, true⟩, some ⟨.eq, 1⟩, none⟩ .elastic r = .error e ∧
            Refusal ⟨some ⟨true, false, true⟩, some ⟨.eq, 1⟩, none⟩ e) :=
  trip_repairs 0 ⟨some ⟨true, false, true⟩, some ⟨.eq, 1⟩, none⟩ .elastic
    ⟨.elastic, [.fix 1, .single], .option false⟩ rfl (by decide) (by decide) (Elastic.ofList [])

end PlainTwin.Repair
