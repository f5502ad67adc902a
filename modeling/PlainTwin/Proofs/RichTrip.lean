import PlainTwin.Proofs.Repair

namespace PlainTwin.RichTrip

open CallChain Checking ElasticStates PlainTrip Repair Selection Settling StateWrap StepChain Conversion

variable {α : Type} {d : α}

theorem forward_backward {s : Step} {f g : Form} {F : f.Val α → g.Val α} {B : g.Val α → f.Val α}
    (h : Acts d s f g F B) {y : g.Val α} (hy : Fits s (slots g y)) : F (B y) = y := by
  cases h with
  | fix n => exact Subtype.ext (settleStep_eq_self (d := d) (s := .fix n) hy)
  | pad n => exact settleStep_eq_self (d := d) (s := .pad n) hy
  | cut n => exact settleStep_eq_self (d := d) (s := .cut n) hy
  | nonnull => simp [fillNulls, Function.comp_def]
  | nonnullSlots n => exact Subtype.ext (by simp [fillNullSlots, Slots.map, Function.comp_def])
  | single | singleValue => rfl

theorem forward_backward_chain {ss : List Step} {f g : Form} {F : f.Val α → g.Val α}
    {B : g.Val α → f.Val α} (h : Chain d ss f g F B) {y : g.Val α}
    (hy : ∀ s ∈ ss, Fits s (slots g y)) : F (B y) = y := by
  induction h with
  | nil => rfl
  | @cons s ss f g h F B G C hs hss ih =>
      rw [List.forall_mem_cons] at hy
      have hfits : Fits s (slots g (C y)) := by rw [(slots_chain hss).2]; exact hy.1
      calc (G ∘ F) ((B ∘ C) y) = G (F (B (C y))) := rfl
        _ = G (C y) := by rw [forward_backward hs hfits]
        _ = y := ih hy.2

theorem none_notMem_slots {ss : List Step} {f g : Form} {F : f.Val α → g.Val α}
    {B : g.Val α → f.Val α} (h : Chain d ss f g F B) {fixed : Bool} (hs : .nonnull fixed ∈ ss)
    (y : g.Val α) : none ∉ slots g y := by
  induction h with
  | nil => cases hs
  | @cons s ss f g h F B G C hact hss ih =>
      rcases List.mem_cons.mp hs with rfl | hs
      · rw [← (slots_chain hss).2 y]
        cases hact with
        | nonnull | nonnullSlots => simp [slots]
      · exact ih hs y

theorem fits_slots {c : Constraint} {g : Form}
    {F : (Form.list (.option .elem)).Val α → g.Val α}
    {B : g.Val α → (Form.list (.option .elem)).Val α}
    (h : Chain d c.steps (.list (.option .elem)) g F B) {y : g.Val α}
    (hlen : ∀ r, c.length = some r → r.allows (B y).length) : ∀ s ∈ c.steps, Fits s (slots g y) := by
  have hslots : B y = slots g y := (slots_chain h).2 y
  intro s hs
  rcases mem_steps.mp hs with ⟨r, hr, rfl⟩ | ⟨-, rfl⟩ | ⟨-, rfl⟩
  · rw [← hslots]
    exact fits_step_of_allows (hlen r hr)
  · exact none_notMem_slots h hs y
  · trivial

theorem checkSequence_backward {c : Constraint} {g : Form}
    {F : (Form.list (.option .elem)).Val α → g.Val α}
    {B : g.Val α → (Form.list (.option .elem)).Val α}
    (h : Chain d c.steps (.list (.option .elem)) g F B) {y : g.Val α}
    (hlen : ∀ r, c.length = some r → r.allows (B y).length) :
    c.checkSequence (Elastic.ofList (B y)) = .ok () := by
  have hslots : B y = slots g y := (slots_chain h).2 y
  refine (checkSequence_eq_ok_iff c _).mpr ⟨hlen, fun hc => ?_⟩
  rw [hslots]
  exact none_notMem_slots h (mem_steps.mpr (.inr (.inl ⟨hc, rfl⟩))) y

theorem packed_unpacked {f g : Form} (z : f.Val α) {F : f.Val α → g.Val α} {B : g.Val α → f.Val α}
    {w : Wrap} {p : (w.applyForm g).Val α}
    (h : ∀ y, unpacked B w p = .defined (B y) → F (B y) = y) :
    packed z F w (unpacked B w p) = p := by
  cases w with
  | tri =>
      cases p with
      | undefined | null => rfl
      | defined y => exact congrArg Tri.defined (h y rfl)
  | value => exact h p rfl
  | marker null =>
      cases p
      rfl
  | markerOption => rcases p with _ | ⟨⟨⟩⟩ <;> rfl
  | option null =>
      cases p with
      | none => cases null <;> rfl
      | some y => exact congrArg some (h y rfl)

/-- Whatever the plain value is, only the states that a wrap was chosen for come out of it. -/
theorem meets_unpacked {s : StateSet} (hs : s.isEmpty = false) {f g : Form} (B : g.Val α → f.Val α)
    (p : (s.triWrap.applyForm g).Val α) : s.meets (unpacked B s.triWrap p).states := by
  obtain ⟨_ | _, _ | _, _ | _⟩ := s
  · cases hs
  · rfl
  · rfl
  · cases p <;> rfl
  · rfl
  · cases p <;> rfl
  · cases p <;> rfl
  · cases p <;> rfl

theorem exists_of_unpacked_eq_defined {f g : Form} {B : g.Val α → f.Val α} {w : Wrap}
    {p : (w.applyForm g).Val α} {x : f.Val α} (h : unpacked B w p = .defined x) :
    w.carriesValue ∧ ∃ y, B y = x := by
  cases w with
  | tri =>
      cases p with
      | undefined | null => cases h
      | defined y => exact ⟨rfl, y, Tri.defined.inj h⟩
  | value => exact ⟨rfl, p, Tri.defined.inj h⟩
  | marker null => cases null <;> cases h
  | markerOption => cases p <;> cases h
  | option null =>
      cases p with
      | none => cases null <;> cases h
      | some y => exact ⟨rfl, y, Tri.defined.inj h⟩

/-- The plain value of an elastic field that is read as null, as far as the wrap can tell: null itself,
nothing, or what the steps make of an empty sequence. -/
def ofNull? (d : α) : (conv : Conversion) → Option (conv.plainForm.Val α)
  | ⟨_, _, .tri⟩ => some Tri.null
  | ⟨_, _, .option _⟩ => some none
  | ⟨.elastic, ss, .value⟩ =>
    (Expr.source.calls (ss.map Step.forwardPrimitive)).eval? d (f := .list (.option .elem)) []
      (valueForm ⟨.elastic, ss, .value⟩)
  | _ => none

theorem toPlain?_toRich?_of_ne_elastic {c : Constraint} {conv : Conversion} (h : Selected c conv)
    (hk : conv.kind ≠ .elastic) (d : α) (p : conv.plainForm.Val α) :
    ∃ r, conv.toRich? d p = some r ∧ check c conv.kind r = .ok () ∧
      conv.toPlain? d r = some p := by
  obtain ⟨k, ss, w⟩ := conv
  obtain rfl : ss = [] := h.steps_of_ne_elastic hk
  cases k with
  | option =>
      have hchain : Chain d [] (richForm .option) (valueForm ⟨.option, [], w⟩) id id := .nil _
      refine ⟨_, toRich?_eq hchain (.inr rfl) p, ?_⟩
      obtain ⟨s, hs, ⟨hw, hd, -⟩ | ⟨hw, -, hn⟩⟩ := h.option_cases rfl
      · obtain rfl : w = .value := hw
        exact ⟨checkOption_some hs hd _, (toPlain?_eq hchain _).trans rfl⟩
      · obtain rfl : w = .marker false := hw
        cases p
        exact ⟨checkOption_none hs hn, (toPlain?_eq hchain _).trans rfl⟩
  | tri =>
      have hchain : Chain d [] (richForm .tri) (valueForm ⟨.tri, [], w⟩) id id := .nil _
      refine ⟨_, toRich?_eq hchain (.inr rfl) p, ?_, ?_⟩
      · obtain rfl : w = c.effectiveStates.triWrap := h.wrap_eq (by simp)
        exact checkTri_of_meets (h.effectiveStates_eq (by simp)) (meets_unpacked h.nonempty _ p)
      · exact (toPlain?_eq hchain _).trans (congrArg some (packed_unpacked _ (fun _ _ => rfl)))
  | elastic => exact absurd rfl hk

section Elastic

variable {c : Constraint} {ss : List Step} {w : Wrap}
  {F : (Form.list (.option .elem)).Val α → (valueForm ⟨.elastic, ss, w⟩).Val α}
  {B : (valueForm ⟨.elastic, ss, w⟩).Val α → (Form.list (.option .elem)).Val α}
  {p : (plainForm ⟨.elastic, ss, w⟩).Val α}

def AllowsLength (c : Constraint) (q : Tri (List (Option α))) : Prop :=
  ∀ xs, q = .defined xs → ∀ r, c.length = some r → r.allows xs.length

theorem toPlain?_ofStates_unpacked (h : Selected c ⟨.elastic, ss, w⟩)
    (hchain : Chain d ss (.list (.option .elem)) (valueForm ⟨.elastic, ss, w⟩) F B)
    (hnull : unpacked B w p ≠ .defined [none]) (hlen : AllowsLength c (unpacked B w p)) :
    toPlain? d ⟨.elastic, ss, w⟩ (Elastic.ofStates (unpacked B w p)) = some p := by
  have hstates := toStates_ofStates hnull
  have hpacked : packed [] F w (unpacked B w p) = p := by
    refine packed_unpacked (f := .list (.option .elem)) [] (fun y hy => ?_)
    obtain ⟨hw, -⟩ := exists_of_unpacked_eq_defined hy
    obtain rfl : ss = c.steps := h.steps_of_elastic rfl hw
    exact forward_backward_chain hchain (fits_slots hchain (hlen _ hy))
  refine (toPlain?_eq hchain _).trans (congrArg some ?_)
  exact (congrArg (packed [] F w) hstates).trans hpacked

theorem checkElastic_ofStates_unpacked (h : Selected c ⟨.elastic, ss, w⟩)
    (hchain : Chain d ss (.list (.option .elem)) (valueForm ⟨.elastic, ss, w⟩) F B)
    (hnull : unpacked B w p ≠ .defined [none]) (hlen : AllowsLength c (unpacked B w p))
    (hstates : unpacked B w p = .null → c.states.isSome) :
    c.checkElastic (Elastic.ofStates (unpacked B w p)) = .ok () := by
  obtain rfl : w = c.effectiveStates.triWrap := h.wrap_eq (by simp)
  have hmeets := meets_unpacked h.nonempty B p
  by_cases hq : unpacked B c.effectiveStates.triWrap p = .null
  · rw [hq, meets_null] at hmeets
    simp [hq, Elastic.ofStates, checkElastic_null, hmeets, hstates hq]
  · have hne : Elastic.ofStates (unpacked B c.effectiveStates.triWrap p) ≠ .null := by
      rw [Ne, ofStates_eq_null_iff]
      exact not_or.mpr ⟨hq, hnull⟩
    refine checkElastic_of_meets hne hmeets (fun xs hxs => ?_)
    obtain ⟨hw, y, rfl⟩ := exists_of_unpacked_eq_defined hxs
    obtain rfl : ss = c.steps := h.steps_of_elastic rfl hw
    exact checkSequence_backward hchain (hlen _ hxs)

theorem toPlain?_null
    (hchain : Chain d ss (.list (.option .elem)) (valueForm ⟨.elastic, ss, w⟩) F B)
    (hw : w.carriesValue) : ∃ p, ofNull? d ⟨.elastic, ss, w⟩ = some p ∧
      toPlain? d ⟨.elastic, ss, w⟩ Elastic.null = some p := by
  refine ⟨_, ?_, toPlain?_eq hchain _⟩
  cases w with
  | tri | option => rfl
  | value => exact eval?_eq_some (meaning?_calls_source hchain.forward) _
  | marker | markerOption => cases hw

end Elastic

/-- A plain value comes back from the rich one that is built of it, and that one is valid, but for an
elastic field whose sequence is a single null or of a length that the tag does not allow. A single
null is read as null. -/
theorem trip_of_plain (d : α) (c : Constraint) (k : Kind) (conv : Conversion)
    (hsel : c.select k = .ok (some conv)) (p : conv.plainForm.Val α) :
    ∃ r, conv.toRich? d p = some r ∧
      (conv.kind ≠ .elastic → check c conv.kind r = .ok () ∧ conv.toPlain? d r = some p) ∧
      (conv.kind = .elastic → ∃ e q, conv.backward = .call .triToElastic e ∧
        e.eval? d p (.tri (.list (.option .elem))) = some q ∧
        (q ≠ .defined [none] → AllowsLength c q → conv.toPlain? d r = some p ∧
          ((q = .null → c.states.isSome) → check c conv.kind r = .ok ())) ∧
        (q = .defined [none] → IsNullForm conv.kind r ∧
          ∃ p', ofNull? d conv = some p' ∧ conv.toPlain? d r = some p')) := by
  obtain ⟨-, h⟩ := selected_of_select hsel
  by_cases hk : conv.kind = .elastic
  · obtain ⟨k, ss, w⟩ := conv
    obtain rfl : k = .elastic := hk
    obtain ⟨g, F, B, hchain, rfl, -⟩ := exists_chain h d
    have hw := h.carriesValue_or_steps_eq_nil
    refine ⟨_, toRich?_eq hchain hw p, fun hne => absurd rfl hne, fun _ =>
      ⟨statesExpr ⟨.elastic, ss, w⟩, unpacked B w p, rfl,
        eval?_eq_some (meaning?_statesExpr hchain hw) p, fun hnull hlen => ⟨?_, ?_⟩, fun hq => ?_⟩⟩
    · exact toPlain?_ofStates_unpacked h hchain hnull hlen
    · exact checkElastic_ofStates_unpacked h hchain hnull hlen
    · have hr : ofStates .elastic (unpacked B w p) = Elastic.null := congrArg Elastic.ofStates hq
      rw [hr]
      exact ⟨rfl, toPlain?_null hchain (exists_of_unpacked_eq_defined hq).1⟩
  · obtain ⟨r, hr, hcheck, hplain⟩ := toPlain?_toRich?_of_ne_elastic h hk d p
    exact ⟨r, hr, fun _ => ⟨hcheck, hplain⟩, fun he => absurd he hk⟩

theorem trip_of_plain_pair :
    (∃ r, toRich? (0 : Nat) ⟨.elastic, [.cut 2], .option true⟩ (some [none, some 7]) = some r ∧
      toPlain? 0 ⟨.elastic, [.cut 2], .option true⟩ r = some (some [none, some 7])) ∧
    ∃ r, toRich? (0 : Nat) ⟨.elastic, [.cut 2], .option true⟩ (some [none]) = some r ∧
      toPlain? 0 ⟨.elastic, [.cut 2], .option true⟩ r = some none := by
  have htrip (p : Option (List (Option Nat))) := trip_of_plain 0
    ⟨some ⟨true, true, false⟩, some ⟨.le, 2⟩, none⟩ .elastic ⟨.elastic, [.cut 2], .option true⟩ rfl p
  constructor
  · obtain ⟨r, hr, -, helastic⟩ := htrip (some [none, some 7])
    obtain ⟨e, q, he, hq, hback, -⟩ := helastic rfl
    obtain rfl : statesExpr ⟨.elastic, [.cut 2], .option true⟩ = e := (Expr.call.inj he).2
    obtain rfl : Tri.defined [none, some 7] = q := Option.some.inj hq
    refine ⟨r, hr, (hback (by simp) ?_).1⟩
    rintro _ ⟨rfl⟩ _ ⟨rfl⟩
    decide
  · obtain ⟨r, hr, -, helastic⟩ := htrip (some [none])
    obtain ⟨e, q, he, hq, -, hnull⟩ := helastic rfl
    obtain rfl : statesExpr ⟨.elastic, [.cut 2], .option true⟩ = e := (Expr.call.inj he).2
    obtain rfl : Tri.defined [none] = q := Option.some.inj hq
    obtain ⟨-, p', hp', hplain⟩ := hnull rfl
    obtain rfl : none = p' := Option.some.inj hp'
    exact ⟨r, hr, hplain⟩

end PlainTwin.RichTrip
