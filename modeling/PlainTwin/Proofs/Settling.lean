import PlainTwin.Proofs.StepChain

namespace PlainTwin.Settling

open StepChain

variable {α : Type} {d : α}

def slots : (f : Form) → f.Val α → List (Option α)
  | .elem, a => [some a]
  | .option .elem, o => [o]
  | .list .elem, xs => xs.map some
  | .list (.option .elem), xs => xs
  | .array .elem _, xs => xs.1.map some
  | .array (.option .elem) _, xs => xs.1
  | _, _ => []

def settleStep (d : α) : Step → List (Option α) → List (Option α)
  | .fix n, xs => (fixTo n xs).1
  | .pad n, xs => padTo n xs
  | .cut n, xs => cutTo n xs
  | .nonnull _, xs => xs.map fun o => some (o.getD d)
  | .single, xs => xs

/-- What steps and their inverses leave of a sequence. -/
def settle (d : α) (ss : List Step) (xs : List (Option α)) : List (Option α) :=
  ss.foldl (fun xs s => settleStep d s xs) xs

def Fits : Step → List (Option α) → Prop
  | .fix n, xs => xs.length = n
  | .pad n, xs => n ≤ xs.length
  | .cut n, xs => xs.length ≤ n
  | .nonnull _, xs => none ∉ xs
  | .single, _ => True

theorem slots_forward {s : Step} {f g : Form} {F : f.Val α → g.Val α} {B : g.Val α → f.Val α}
    (h : Acts d s f g F B) (x : f.Val α) : slots g (F x) = settleStep d s (slots f x) := by
  cases h with
  | fix | pad | cut => rfl
  | nonnull => simp [slots, settleStep, fillNulls, Function.comp_def]
  | nonnullSlots => simp [slots, settleStep, fillNullSlots, Slots.map, Function.comp_def]
  | single | singleValue =>
      obtain ⟨xs, hxs⟩ := x
      obtain ⟨a, rfl⟩ := List.length_eq_one_iff.mp hxs
      rfl

theorem slots_backward {s : Step} {f g : Form} {F : f.Val α → g.Val α} {B : g.Val α → f.Val α}
    (h : Acts d s f g F B) (y : g.Val α) : slots f (B y) = slots g y := by
  cases h <;> rfl

/-- The plain value holds the settled elements, and the inverses only bring it back to the form of
a sequence. -/
theorem slots_chain {ss : List Step} {f g : Form} {F : f.Val α → g.Val α} {B : g.Val α → f.Val α}
    (h : Chain d ss f g F B) :
    (∀ x, slots g (F x) = settle d ss (slots f x)) ∧ ∀ y, slots f (B y) = slots g y := by
  induction h with
  | nil => exact ⟨fun _ => rfl, fun _ => rfl⟩
  | cons hs _ ih =>
      refine ⟨fun x => ?_, fun y => ?_⟩
      · rw [Function.comp_apply, ih.1, slots_forward hs]
        rfl
      · rw [Function.comp_apply, slots_backward hs, ih.2]

theorem trip_chain {ss : List Step} {g : Form}
    {F : (Form.list (.option .elem)).Val α → g.Val α}
    {B : g.Val α → (Form.list (.option .elem)).Val α}
    (h : Chain d ss (.list (.option .elem)) g F B) (xs : List (Option α)) :
    B (F xs) = settle d ss xs := by
  calc B (F xs) = slots (.list (.option .elem)) (B (F xs)) := rfl
    _ = slots g (F xs) := (slots_chain h).2 _
    _ = settle d ss xs := (slots_chain h).1 xs

theorem settleStep_eq_self {s : Step} {xs : List (Option α)} (h : Fits s xs) :
    settleStep d s xs = xs := by
  cases s with
  | fix n =>
      have hlen : xs.length = n := h
      simp [settleStep, fixTo, hlen, List.take_of_length_le]
  | pad n =>
      have hlen : n ≤ xs.length := h
      simp [settleStep, padTo, hlen]
  | cut n => exact List.take_of_length_le h
  | nonnull fixed =>
      have hsome (o : Option α) (ho : o ∈ xs) : some (o.getD d) = id o := by
        cases o with
        | none => exact absurd ho h
        | some a => rfl
      exact (List.map_congr_left hsome).trans xs.map_id
  | single => rfl

theorem fits_settleStep (s : Step) (xs : List (Option α)) : Fits s (settleStep d s xs) := by
  cases s with
  | fix n => exact (fixTo n xs).2
  | pad n => simp only [Fits, settleStep, padTo, List.length_append, List.length_replicate]; omega
  | cut n => exact List.length_take_le n xs
  | nonnull fixed => simp [Fits, settleStep]
  | single => trivial

theorem settle_eq_self {ss : List Step} {xs : List (Option α)} (h : ∀ s ∈ ss, Fits s xs) :
    settle d ss xs = xs := by
  induction ss with
  | nil => rfl
  | cons s ss ih =>
      rw [List.forall_mem_cons] at h
      calc settle d (s :: ss) xs = settle d ss (settleStep d s xs) := rfl
        _ = settle d ss xs := by rw [settleStep_eq_self h.1]
        _ = xs := ih h.2

def Keeps (d : α) (s t : Step) : Prop := ∀ xs, Fits s xs → Fits s (settleStep d t xs)

theorem keeps_nonnull (s : Step) (fixed : Bool) : Keeps d s (.nonnull fixed) := by
  intro xs h
  cases s with
  | fix n | pad n | cut n => simpa [Fits, settleStep] using h
  | nonnull => exact fits_settleStep (.nonnull fixed) xs
  | single => trivial

theorem keeps_single (s : Step) : Keeps d s .single := fun _ h => h

theorem fits_settle_of_keeps {ss : List Step} {s : Step} (h : ∀ t ∈ ss, Keeps d s t)
    {xs : List (Option α)} (hs : Fits s xs) : Fits s (settle d ss xs) := by
  induction ss generalizing xs with
  | nil => exact hs
  | cons t ss ih =>
      rw [List.forall_mem_cons] at h
      exact ih h.2 (h.1 xs hs)

theorem fits_settle {ss : List Step} (hss : ss.Pairwise (Keeps d)) (xs : List (Option α)) :
    ∀ s ∈ ss, Fits s (settle d ss xs) := by
  induction hss generalizing xs with
  | nil => simp
  | @cons s ss hs _ ih =>
      rw [List.forall_mem_cons]
      exact ⟨fits_settle_of_keeps hs (fits_settleStep s xs), ih (settleStep d s xs)⟩

theorem settle_settle {ss : List Step} (hss : ss.Pairwise (Keeps d)) (xs : List (Option α)) :
    settle d ss (settle d ss xs) = settle d ss xs :=
  settle_eq_self (fits_settle hss xs)

/-- The step on the length comes first, and the others leave the length alone. -/
theorem pairwise_keeps_steps (d : α) (c : Constraint) : c.steps.Pairwise (Keeps d) := by
  unfold Constraint.steps
  cases c.length <;> cases c.requiresNonnull <;> by_cases h : c.fixedLength? = some 1 <;>
    simp [h, keeps_nonnull, keeps_single]

end PlainTwin.Settling
