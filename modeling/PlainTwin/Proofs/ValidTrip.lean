import PlainTwin.Proofs.Checking
import PlainTwin.Proofs.StateWrap

namespace PlainTwin.ValidTrip

open Checking ElasticStates PlainTrip Selection Settling StateWrap

variable {α : Type}

/-- The values that a container can be built to hold. An elastic value is built from its states, and
stores null as a sequence. -/
def Built : (k : Kind) → k.form.Val α → Prop
  | .option, _ | .tri, _ => True
  | .elastic, e => ∃ t, e = Elastic.ofTri t

theorem meets_of_checkTri {c : Constraint} (hc : c.effectiveStates = c.states.getD .all)
    {t : Tri α} (h : c.checkTri t = .ok ()) : c.effectiveStates.meets t.states := by
  cases hs : c.states with
  | none =>
      rw [effectiveStates_of_none hs]
      cases t <;> rfl
  | some s =>
      rw [hc, hs]
      exact (checkStates_of_some hs t).mp h

/-- A null that the tag leaves open is checked as a sequence, but then every state is allowed. -/
theorem meets_of_checkElastic {c : Constraint} {t : Tri (List (Option α))}
    (ht : t ≠ .defined [none]) (h : c.checkElastic (Elastic.ofStates t) = .ok ()) :
    c.effectiveStates.meets t.states := by
  cases t with
  | undefined =>
      rw [meets_undefined]
      cases hu : c.effectiveStates.undefined with
      | true => rfl
      | false => simp [Elastic.ofStates, checkElastic_undefined, hu] at h
  | null =>
      rw [meets_null]
      cases hs : c.states with
      | none => rw [effectiveStates_of_none hs]; rfl
      | some s =>
          cases hn : c.effectiveStates.null with
          | true => rfl
          | false => simp [Elastic.ofStates, checkElastic_null, hs, hn] at h
  | defined xs =>
      rw [meets_defined]
      have hxs : xs ≠ [none] := fun hxs => ht (congrArg Tri.defined hxs)
      cases hd : c.effectiveStates.defined with
      | true => rfl
      | false => simp [Elastic.ofStates, checkElastic_ofList c hxs, hd] at h

theorem checkSequence_of_checkElastic {c : Constraint} {xs : List (Option α)} (hxs : xs ≠ [none])
    (h : c.checkElastic (Elastic.ofList xs) = .ok ()) :
    c.checkSequence (Elastic.ofList xs) = .ok () := by
  rw [checkElastic_ofList c hxs] at h
  split at h
  · cases h
  · exact h

theorem settleStates_of_checkElastic {c : Constraint} {ss : List Step} (hss : ∀ s ∈ ss, s ∈ c.steps)
    (d : α) {e : Elastic α} (he : e.inner ≠ .null) (hok : c.checkElastic e = .ok ()) :
    settleStates (settle d ss) [] c.effectiveStates.triWrap e.toStates = e.toStates := by
  rw [← ofStates_toStates he] at hok
  refine settleStates_of_meets (meets_of_checkElastic (toStates_ne e) hok) (fun xs hxs => ?_)
  have hne : xs ≠ [none] := fun h => toStates_ne e (hxs.trans (congrArg Tri.defined h))
  rw [hxs] at hok
  have hfits := fits_of_checkSequence (checkSequence_of_checkElastic hne hok)
  exact settle_eq_self (fun s hs => hfits s (hss s hs))

theorem settled_of_check_ok {c : Constraint} {conv : Conversion} (h : Selected c conv) (d : α)
    {v : conv.kind.form.Val α} (hv : Built conv.kind v) (hok : check c conv.kind v = .ok ()) :
    settled d conv v = v := by
  obtain ⟨k, ss, w⟩ := conv
  cases k with
  | option =>
      obtain ⟨s, hs, ⟨hw, hd, hn⟩ | ⟨hw, hd, hn⟩⟩ := h.option_cases rfl
      · obtain rfl : w = .value := hw
        cases v with
        | none => simp [check, Constraint.checkOption, hs, hn] at hok
        | some a => rfl
      · obtain rfl : w = .marker false := hw
        cases v with
        | none => rfl
        | some a => simp [check, Constraint.checkOption, hs, hd] at hok
  | tri =>
      obtain rfl : w = c.effectiveStates.triWrap := h.wrap_eq (by simp)
      have hmeets := meets_of_checkTri (h.effectiveStates_eq (by simp)) hok
      exact settleStates_of_meets hmeets (fun _ _ => rfl)
  | elastic =>
      obtain rfl : w = c.effectiveStates.triWrap := h.wrap_eq (by simp)
      obtain ⟨t, rfl⟩ := hv
      have hnull := Elastic.inner_ofTri_ne_null t
      have hstates := settleStates_of_checkElastic (fun s hs => h.mem_steps hs) d hnull hok
      exact (congrArg Elastic.ofStates hstates).trans (ofStates_toStates hnull)

/-- A valid value comes back from its plain form as it was. -/
theorem trip_of_check_ok (d : α) (c : Constraint) (k : Kind) (conv : Conversion)
    (hsel : c.select k = .ok (some conv)) (v : conv.kind.form.Val α) (hv : Built conv.kind v)
    (hok : check c conv.kind v = .ok ()) :
    ∃ p, conv.toPlain? d v = some p ∧ conv.toRich? d p = some v := by
  obtain ⟨-, h⟩ := selected_of_select hsel
  have htrip := trip?_eq h d v
  rw [settled_of_check_ok h d hv hok] at htrip
  exact Option.bind_eq_some_iff.mp htrip

theorem trip_of_pair : ∃ p : (Form.tri (.array (.option .elem) 2)).Val Nat,
    (Conversion.mk .elastic [.fix 2] .tri).toPlain? 0 (Elastic.ofList [some 7, none]) = some p ∧
      (Conversion.mk .elastic [.fix 2] .tri).toRich? 0 p = some (Elastic.ofList [some 7, none]) :=
  trip_of_check_ok 0 ⟨some .nullish, some ⟨.eq, 2⟩, none⟩ .elastic ⟨.elastic, [.fix 2], .tri⟩ rfl
    (Elastic.ofList [some 7, none]) ⟨.defined [some 7, none], rfl⟩ rfl

end PlainTwin.ValidTrip
