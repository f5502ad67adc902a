import PlainTwin.Proofs.Repair

namespace PlainTwin.Drift

open Checking ElasticStates PlainTrip Repair Selection Settling StateWrap StepChain

variable {α : Type}

/-- The conversions that need not settle at the first trip: a step can leave a single null, which is
then taken for null, and the wrap cannot carry null. -/
def Drifts (conv : Conversion) : Prop :=
  conv.kind = .elastic ∧ (∀ fixed, .nonnull fixed ∉ conv.steps) ∧
    (conv.wrap = .option false ∧
        (.fix 1 ∈ conv.steps ∨ .pad 1 ∈ conv.steps ∨ .cut 1 ∈ conv.steps) ∨
      conv.wrap = .value ∧ .cut 1 ∈ conv.steps)

def LeavesSlot (s : Step) : Prop := s = .fix 1 ∨ s = .pad 1 ∨ s = .cut 1

theorem leavesSlot_of_settleStep {d : α} {s : Step} {xs : List (Option α)} (hxs : xs ≠ [none])
    (h : settleStep d s xs = [none]) : LeavesSlot s := by
  have hlen := congrArg List.length h
  cases s with
  | fix n =>
      have hn : (fixTo n xs).1.length = n := (fixTo n xs).2
      exact .inl (congrArg Step.fix (hn.symm.trans hlen))
  | pad n =>
      cases xs with
      | nil =>
          simp only [settleStep, padTo, List.length_append, List.length_replicate] at hlen
          exact .inr (.inl (congrArg Step.pad (by simpa using hlen)))
      | cons o xs =>
          simp only [settleStep, padTo, List.cons_append, List.cons.injEq,
            List.append_eq_nil_iff] at h
          exact absurd (by rw [h.1, h.2.1]) hxs
  | cut n =>
      simp only [settleStep, cutTo, List.length_take, List.length_singleton] at hlen
      by_cases hn : n = 1
      · exact .inr (.inr (congrArg Step.cut hn))
      · have htake : xs.take n = xs := List.take_of_length_le (by omega)
        exact absurd (htake.symm.trans h) hxs
  | nonnull fixed => cases xs <;> simp [settleStep] at h
  | single => exact absurd h hxs

theorem exists_leavesSlot_of_settle {d : α} {ss : List Step} {xs : List (Option α)}
    (hxs : xs ≠ [none]) (h : settle d ss xs = [none]) : ∃ s ∈ ss, LeavesSlot s := by
  induction ss generalizing xs with
  | nil => exact absurd h hxs
  | cons s ss ih =>
      by_cases hs : settleStep d s xs = [none]
      · exact ⟨s, by simp, leavesSlot_of_settleStep hxs hs⟩
      · obtain ⟨t, ht, hslot⟩ := ih hs h
        exact ⟨t, by simp [ht], hslot⟩

theorem settle_of_leavesSlot {c : Constraint} {s : Step} (hn : ∀ fixed, .nonnull fixed ∉ c.steps)
    (hs : s ∈ c.steps) (hslot : LeavesSlot s) (d : α) (xs : List (Option α)) :
    settle d c.steps xs = settleStep d s xs := by
  have hc : c.requiresNonnull = false :=
    Bool.eq_false_iff.mpr fun hc => hn _ (mem_steps.mpr (.inr (.inl ⟨hc, rfl⟩)))
  cases hfixed : c.fixedLength? with
  | none =>
      rw [steps_of_free hfixed, hc] at hs ⊢
      cases hr : c.length with
      | none => simp [hr] at hs
      | some r =>
          obtain rfl : s = r.step := by simpa [hr] using hs
          rfl
  | some n =>
      rw [steps_of_fixed hfixed, hc] at hs ⊢
      by_cases h1 : n = 1
      · subst h1
        obtain rfl : s = .fix 1 := by
          rcases hslot with rfl | rfl | rfl
          · rfl
          · simp at hs
          · simp at hs
        rfl
      · obtain rfl : s = .fix n := by simpa [h1] using hs
        simp [h1, settle]

theorem pairwise_keeps {c : Constraint} {conv : Conversion} (h : Selected c conv) {d : α} :
    conv.steps.Pairwise (Keeps d) := by
  rw [h.steps]
  split
  · exact pairwise_keeps_steps d c
  · exact List.Pairwise.nil

theorem ne_of_states {e : Elastic α} {xs : List (Option α)} (h : e.toStates = .defined xs) :
    xs ≠ [none] :=
  fun hxs => toStates_ne e (h.trans (congrArg Tri.defined hxs))

theorem getD_states_ne (e : Elastic α) : e.toStates.getD [] ≠ [none] := by
  cases h : e.toStates with
  | undefined | null => simp [Tri.getD, Tri.toOption]
  | defined xs => exact ne_of_states h

/-- The states that a second trip sees are those that the first one left, unless it left the null
form. Then null has to survive. -/
theorem settle_null_form {c : Constraint} {ss : List Step} {w : Wrap}
    (h : Selected c ⟨.elastic, ss, w⟩) (hd : ¬ Drifts ⟨.elastic, ss, w⟩) (d : α) (e : Elastic α)
    (he : settleStates (settle d ss) [] w e.toStates = .defined [none]) :
    Elastic.ofStates (settleStates (settle d ss) [] w .null) = .null := by
  obtain ⟨hw, xs, hxs⟩ := settleStates_eq_defined he
  obtain rfl : ss = c.steps := h.steps_of_elastic rfl hw
  have hn : ∀ fixed, .nonnull fixed ∉ c.steps := by
    intro fixed hs
    have hfits := fits_settle (pairwise_keeps_steps d c) xs _ hs
    rw [hxs] at hfits
    exact hfits (by simp)
  cases w with
  | tri => rfl
  | marker null => cases hw
  | markerOption => cases hw
  | value =>
      have hvalue : settle d c.steps (e.toStates.getD []) = [none] := Tri.defined.inj he
      obtain ⟨s, hs, hslot⟩ := exists_leavesSlot_of_settle (getD_states_ne e) hvalue
      have hempty : settle d c.steps [] = [none] := by
        rw [settle_of_leavesSlot hn hs hslot]
        rcases hslot with rfl | rfl | rfl
        · rfl
        · rfl
        · exact absurd ⟨rfl, hn, .inr ⟨rfl, hs⟩⟩ hd
      exact congrArg Elastic.ofList hempty
  | option null =>
      cases null with
      | true => rfl
      | false =>
          cases hstates : e.toStates with
          | undefined | null => rw [hstates] at he; cases he
          | defined ys =>
              rw [hstates] at he
              have hys : settle d c.steps ys = [none] := Tri.defined.inj he
              obtain ⟨s, hs, hslot⟩ := exists_leavesSlot_of_settle (ne_of_states hstates) hys
              refine absurd ⟨rfl, hn, .inl ⟨rfl, ?_⟩⟩ hd
              rcases hslot with rfl | rfl | rfl
              · exact .inl hs
              · exact .inr (.inl hs)
              · exact .inr (.inr hs)

theorem settled_settled {c : Constraint} {conv : Conversion} (h : Selected c conv)
    (hd : ¬ Drifts conv) (d : α) (v : conv.kind.form.Val α) :
    settled d conv (settled d conv v) = settled d conv v := by
  obtain ⟨k, ss, w⟩ := conv
  cases k with
  | option =>
      obtain ⟨s, -, ⟨hw, -⟩ | ⟨hw, -⟩⟩ := h.option_cases rfl
      · obtain rfl : w = .value := hw
        rfl
      · obtain rfl : w = .marker false := hw
        rfl
  | tri => exact settleStates_settleStates (fun _ => rfl) d w v
  | elastic =>
      by_cases he : settleStates (settle d ss) [] w (Elastic.toStates v) = .defined [none]
      · have hnull : settled d ⟨.elastic, ss, w⟩ v = Elastic.null := congrArg Elastic.ofStates he
        rw [hnull]
        exact settle_null_form h hd d v he
      · apply congrArg Elastic.ofStates
        refine (congrArg (settleStates (settle d ss) [] w) (toStates_ofStates he)).trans ?_
        exact settleStates_settleStates (settle_settle (pairwise_keeps h)) [] w _

theorem exists_settleStep_of_leavesSlot (d : α) {s : Step} (hs : LeavesSlot s) :
    ∃ xs, xs ≠ [none] ∧ settleStep d s xs = [none] := by
  rcases hs with rfl | rfl | rfl
  · exact ⟨[none, none], by simp, rfl⟩
  · exact ⟨[], by simp, rfl⟩
  · exact ⟨[none, none], by simp, rfl⟩

theorem settled_ofList {d : α} {ss : List Step} {w : Wrap} {xs : List (Option α)}
    (hxs : xs ≠ [none]) : settled d ⟨.elastic, ss, w⟩ (Elastic.ofList xs) =
      Elastic.ofStates (settleStates (settle d ss) [] w (.defined xs)) :=
  congrArg (fun t => Elastic.ofStates (settleStates (settle d ss) [] w t)) (toStates_ofList hxs)

theorem exists_settled_of_drifts {c : Constraint} {ss : List Step} {w : Wrap}
    (h : Selected c ⟨.elastic, ss, w⟩) (hd : Drifts ⟨.elastic, ss, w⟩) (d : α) :
    ∃ xs, xs ≠ [none] ∧ settled d ⟨.elastic, ss, w⟩ (Elastic.ofList xs) = Elastic.null ∧
      settled d ⟨.elastic, ss, w⟩ Elastic.null =
        if w = .value then Elastic.ofList [] else Elastic.undefined := by
  obtain ⟨-, hn, ⟨hw, hslot⟩ | ⟨hw, hcut⟩⟩ := hd
  · obtain rfl : w = .option false := hw
    obtain rfl : ss = c.steps := h.steps_of_elastic rfl rfl
    obtain ⟨s, hs, hleaves⟩ : ∃ s ∈ c.steps, LeavesSlot s := by
      rcases hslot with hs | hs | hs
      · exact ⟨_, hs, .inl rfl⟩
      · exact ⟨_, hs, .inr (.inl rfl)⟩
      · exact ⟨_, hs, .inr (.inr rfl)⟩
    obtain ⟨xs, hxs, hnull⟩ := exists_settleStep_of_leavesSlot d hleaves
    rw [← settle_of_leavesSlot hn hs hleaves] at hnull
    refine ⟨xs, hxs, ?_, rfl⟩
    exact (settled_ofList hxs).trans (congrArg Elastic.ofList hnull)
  · obtain rfl : w = .value := hw
    obtain rfl : ss = c.steps := h.steps_of_elastic rfl rfl
    obtain ⟨xs, hxs, hnull⟩ := exists_settleStep_of_leavesSlot d (.inr (.inr rfl))
    rw [← settle_of_leavesSlot hn hcut (.inr (.inr rfl))] at hnull
    refine ⟨xs, hxs, ?_, ?_⟩
    · exact (settled_ofList hxs).trans (congrArg Elastic.ofList hnull)
    · exact congrArg Elastic.ofList (settle_of_leavesSlot hn hcut (.inr (.inr rfl)) d [])

/-- A second trip changes nothing, but for the two families in which the first one can leave the
null form and the wrap cannot carry it. -/
theorem trip_trip_iff (d : α) (c : Constraint) (k : Kind) (conv : Conversion)
    (hsel : c.select k = .ok (some conv)) :
    ((∀ v, ∃ r, trip? d conv v = some r ∧ trip? d conv r = some r) ↔ ¬ Drifts conv) ∧
      ∀ ss w, conv = ⟨.elastic, ss, w⟩ → Drifts conv → ∃ xs, xs ≠ [none] ∧
        trip? d ⟨.elastic, ss, w⟩ (Elastic.ofList xs) = some Elastic.null ∧
        trip? d ⟨.elastic, ss, w⟩ Elastic.null =
          some (if w = .value then Elastic.ofList [] else Elastic.undefined) := by
  obtain ⟨-, h⟩ := selected_of_select hsel
  refine ⟨⟨fun hstable hd => ?_, fun hd v => ?_⟩, fun ss w hconv hd => ?_⟩
  · obtain ⟨k, ss, w⟩ := conv
    obtain rfl : k = .elastic := hd.1
    obtain ⟨xs, -, hfirst, hsecond⟩ := exists_settled_of_drifts h hd d
    obtain ⟨r, hr, hrr⟩ := hstable (Elastic.ofList xs)
    obtain rfl : r = Elastic.null :=
      (Option.some.inj ((trip?_eq h d _).symm.trans hr)).symm.trans hfirst
    have hnull := Option.some.inj ((trip?_eq h d _).symm.trans hrr)
    rw [hsecond] at hnull
    split at hnull <;> cases hnull
  · refine ⟨settled d conv v, trip?_eq h d v, ?_⟩
    rw [trip?_eq h d, settled_settled h hd d v]
  · subst hconv
    obtain ⟨xs, hxs, hfirst, hsecond⟩ := exists_settled_of_drifts h hd d
    refine ⟨xs, hxs, ?_, ?_⟩
    · exact (trip?_eq h d _).trans (congrArg some hfirst)
    · exact (trip?_eq h d _).trans (congrArg some hsecond)

theorem trip_trip_of_cut : ∃ xs : List (Option Nat), xs ≠ [none] ∧
    trip? 0 ⟨.elastic, [.cut 1], .value⟩ (Elastic.ofList xs) = some Elastic.null ∧
      trip? 0 ⟨.elastic, [.cut 1], .value⟩ Elastic.null = some (Elastic.ofList []) :=
  (trip_trip_iff 0 ⟨some .required, some ⟨.le, 1⟩, none⟩ .elastic ⟨.elastic, [.cut 1], .value⟩
    rfl).2 [.cut 1] .value rfl ⟨rfl, by simp, .inr ⟨rfl, by simp⟩⟩

end PlainTwin.Drift
