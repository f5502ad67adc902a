import PlainTwin.Proofs.TagGrammar

namespace PlainTwin.PieceConflicts

open StateWords Tag TagGrammar

/-- What cannot stand in one tag: two pieces of one part, unless both are different plain words. -/
inductive Conflict : Piece → Piece → Prop
  | length (r s) : Conflict (.length r) (.length s)
  | values (r s) : Conflict (.values r) (.values s)
  | repeated (w) : Conflict (.state w) (.state w)
  | shorthand {v w} (h : v.isShorthand ∨ w.isShorthand) : Conflict (.state v) (.state w)

theorem mem_words_iff {ps : List Piece} {w : StateWord} :
    w ∈ ps.filterMap word? ↔ .state w ∈ ps := by
  rw [List.mem_filterMap]
  constructor
  · rintro ⟨p, hp, hw⟩
    cases p with
    | state v =>
        obtain rfl := Option.some.inj hw
        exact hp
    | length | values => cases hw
  · exact fun h => ⟨_, h, rfl⟩

theorem conflict_state_iff {v w : StateWord} :
    Conflict (.state v) (.state w) ↔ v = w ∨ v.isShorthand ∨ w.isShorthand := by
  constructor
  · intro h
    cases h with
    | repeated => exact .inl rfl
    | shorthand h => exact .inr h
  · rintro (rfl | h)
    · exact .repeated v
    · exact .shorthand h

theorem addState?_eq_none_iff {ws : List StateWord} {d : Draft}
    (hstates : NamesStates ws d.constraint.states)
    (hshort : d.shorthand = ws.any StateWord.isShorthand) (w : StateWord) :
    d.addState? w = none ↔ ∃ v ∈ ws, v = w ∨ v.isShorthand ∨ w.isShorthand := by
  cases hd : d.shorthand with
  | true =>
      obtain ⟨v, hv, hvs⟩ := List.any_eq_true.mp (hshort.symm.trans hd)
      have hnone : d.addState? w = none := by simp [Draft.addState?, hd]
      exact iff_of_true hnone ⟨v, hv, .inr (.inl hvs)⟩
  | false =>
      have hplain : ws.any StateWord.isShorthand = false := hshort.symm.trans hd
      obtain ⟨-, hset⟩ := hstates.nodup_and_eq hplain
      have hnot (v : StateWord) (hv : v ∈ ws) : v.isShorthand = false := by
        simpa using List.any_eq_false.mp hplain v hv
      rw [Draft.addState?, hd, hset]
      cases hw : w.isShorthand with
      | true =>
          by_cases hws : ws = []
          · subst hws
            rw [named_nil]
            cases w <;> simp [StateSet.isEmpty, StateSet.meets, StateSet.empty]
          · have hne : (named ws).isEmpty = false := by
              rw [Bool.eq_false_iff]
              exact fun h => hws (eq_nil_of_isEmpty_named hplain h)
            obtain ⟨v, hv⟩ := List.exists_mem_of_ne_nil ws hws
            simpa [hne] using ⟨v, hv⟩
      | false =>
          rw [meets_named hw]
          constructor
          · intro h
            exact ⟨w, by simpa using h, .inl rfl⟩
          · rintro ⟨v, hv, rfl | hvs | hws⟩
            · simp [hv]
            · exact absurd hvs (by simp [hnot v hv])
            · cases hws

theorem isSome_iff_exists {β : Type} {f : Piece → Option β} {ps : List Piece} {o : Option β}
    (h : ps.filterMap f = o.toList) : o.isSome ↔ ∃ q ∈ ps, (f q).isSome := by
  have hmem (b : β) : (∃ q ∈ ps, f q = some b) ↔ o = some b := by
    rw [← List.mem_filterMap, h, Option.mem_toList]
  simp only [Option.isSome_iff_exists, ← hmem]
  constructor
  · rintro ⟨b, q, hq, hb⟩
    exact ⟨q, hq, b, hb⟩
  · rintro ⟨q, hq, b, hb⟩
    exact ⟨b, q, hq, hb⟩

theorem conflict_length_iff {q : Piece} {r : LengthRule} :
    Conflict q (.length r) ↔ (length? q).isSome := by
  constructor
  · intro h
    cases h with
    | length => rfl
  · intro h
    cases q with
    | length s => exact .length s r
    | state | values => cases h

theorem conflict_values_iff {q : Piece} {r : ValuesRule} :
    Conflict q (.values r) ↔ (values? q).isSome := by
  constructor
  · intro h
    cases h with
    | values => rfl
  · intro h
    cases q with
    | values s => exact .values s r
    | state | length => cases h

/-- A draft refuses what conflicts with a piece that it has read. -/
theorem add?_eq_none_iff {ps : List Piece} {d : Draft} (h : Reads ps d) (p : Piece) :
    d.add? p = none ↔ ∃ q ∈ ps, Conflict q p := by
  obtain ⟨⟨hstates, hlength, hvalues⟩, hshort⟩ := h
  cases p with
  | state w =>
      rw [Draft.add?, addState?_eq_none_iff hstates hshort w]
      constructor
      · rintro ⟨v, hv, hvw⟩
        exact ⟨.state v, mem_words_iff.mp hv, conflict_state_iff.mpr hvw⟩
      · rintro ⟨q, hq, hc⟩
        cases q with
        | state v => exact ⟨v, mem_words_iff.mpr hq, conflict_state_iff.mp hc⟩
        | length | values => cases hc
  | length r =>
      simp only [conflict_length_iff, ← isSome_iff_exists hlength, Draft.add?]
      cases d.constraint.length <;> simp
  | values r =>
      simp only [conflict_values_iff, ← isSome_iff_exists hvalues, Draft.add?]
      cases d.constraint.values <;> simp

end PlainTwin.PieceConflicts
