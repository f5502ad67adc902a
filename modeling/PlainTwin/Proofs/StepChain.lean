import PlainTwin.Proofs.CallChain

namespace PlainTwin.StepChain

open CallChain

variable {α : Type} {d : α}

/-- A step takes values of the form `f` to the form `g` by `F`, and its inverse brings them back
by `B`. Padding and cutting keep the form, so nothing has to be undone. -/
inductive Acts (d : α) : Step → (f g : Form) → (f.Val α → g.Val α) → (g.Val α → f.Val α) → Prop
  | fix (n) : Acts d (.fix n) (.list (.option .elem)) (.array (.option .elem) n) (fixTo n)
      Subtype.val
  | pad (n) : Acts d (.pad n) (.list (.option .elem)) (.list (.option .elem)) (padTo n) id
  | cut (n) : Acts d (.cut n) (.list (.option .elem)) (.list (.option .elem)) (cutTo n) id
  | nonnull : Acts d (.nonnull false) (.list (.option .elem)) (.list .elem) (fillNulls d)
      (List.map some)
  | nonnullSlots (n) : Acts d (.nonnull true) (.array (.option .elem) n) (.array .elem n)
      (fillNullSlots d) (Slots.map some)
  | single : Acts d .single (.array (.option .elem) 1) (.option .elem) onlySlot oneSlot
  | singleValue : Acts d .single (.array .elem 1) .elem onlySlot oneSlot

inductive Chain (d : α) :
    List Step → (f g : Form) → (f.Val α → g.Val α) → (g.Val α → f.Val α) → Prop
  | nil (f) : Chain d [] f f id id
  | cons {s ss f g h} {F : f.Val α → g.Val α} {B : g.Val α → f.Val α} {G : g.Val α → h.Val α}
      {C : h.Val α → g.Val α} (hs : Acts d s f g F B) (hss : Chain d ss g h G C) :
      Chain d (s :: ss) f h (G ∘ F) (B ∘ C)

theorem Acts.form {s : Step} {f g : Form} {F : f.Val α → g.Val α} {B : g.Val α → f.Val α}
    (h : Acts d s f g F B) : s.applyForm f = g := by
  cases h <;> rfl

theorem Acts.forward {s : Step} {f g : Form} {F : f.Val α → g.Val α} {B : g.Val α → f.Val α}
    (h : Acts d s f g F B) : s.forwardPrimitive.meaning? d f = some ⟨g, F⟩ := by
  cases h <;> rfl

theorem Acts.backward {s : Step} {f g : Form} {F : f.Val α → g.Val α} {B : g.Val α → f.Val α}
    (h : Acts d s f g F B) : Runs d s.backwardPrimitive?.toList g f B := by
  cases h with
  | fix | nonnull | nonnullSlots | single | singleValue => exact Runs.single rfl
  | pad | cut => exact Runs.nil _

theorem Chain.form {ss : List Step} {f g : Form} {F : f.Val α → g.Val α} {B : g.Val α → f.Val α}
    (h : Chain d ss f g F B) : ss.foldl (fun f s => s.applyForm f) f = g := by
  induction h with
  | nil => rfl
  | cons hs _ ih => rw [List.foldl_cons, hs.form, ih]

theorem Chain.forward {ss : List Step} {f g : Form} {F : f.Val α → g.Val α}
    {B : g.Val α → f.Val α} (h : Chain d ss f g F B) :
    Runs d (ss.map Step.forwardPrimitive) f g F := by
  induction h with
  | nil => exact Runs.nil _
  | cons hs _ ih => exact Runs.cons hs.forward ih

theorem filterMap_reverse_cons (s : Step) (ss : List Step) :
    (s :: ss).reverse.filterMap Step.backwardPrimitive? =
      ss.reverse.filterMap Step.backwardPrimitive? ++ s.backwardPrimitive?.toList := by
  rw [List.reverse_cons, List.filterMap_append]
  cases hp : s.backwardPrimitive? <;> simp [hp]

theorem Chain.backward {ss : List Step} {f g : Form} {F : f.Val α → g.Val α}
    {B : g.Val α → f.Val α} (h : Chain d ss f g F B) :
    Runs d (ss.reverse.filterMap Step.backwardPrimitive?) g f B := by
  induction h with
  | nil => exact Runs.nil _
  | cons hs _ ih =>
      rw [filterMap_reverse_cons]
      exact ih.append hs.backward

theorem steps_of_free {c : Constraint} (h : c.fixedLength? = none) :
    c.steps = (c.length.map LengthRule.step).toList ++
      (if c.requiresNonnull then [.nonnull false] else []) := by
  simp [Constraint.steps, h]

theorem steps_of_fixed {c : Constraint} {n : Nat} (h : c.fixedLength? = some n) :
    c.steps = .fix n :: ((if c.requiresNonnull then [.nonnull true] else []) ++
      (if n = 1 then [.single] else [])) := by
  obtain ⟨states, _ | ⟨op, bound⟩, values⟩ := c
  · simp [Constraint.fixedLength?] at h
  · cases op with
    | eq =>
        obtain rfl : bound.toNat = n := by
          simpa [Constraint.fixedLength?, LengthRule.exact?] using h
        simp [Constraint.steps, h, LengthRule.step]
    | gt | ge | lt | le => simp [Constraint.fixedLength?, LengthRule.exact?] at h

theorem step_of_free {c : Constraint} {r : LengthRule} (h : c.fixedLength? = none)
    (hr : c.length = some r) : (∃ n, r.step = .pad n) ∨ ∃ n, r.step = .cut n := by
  obtain ⟨op, bound⟩ := r
  cases op with
  | eq => simp [Constraint.fixedLength?, LengthRule.exact?, hr] at h
  | gt | ge => exact .inl ⟨_, rfl⟩
  | lt | le => exact .inr ⟨_, rfl⟩

theorem exists_chain_values (nonnull : Bool) : ∃ g F B,
    Chain d (if nonnull then [.nonnull false] else []) (.list (.option .elem)) g F B := by
  cases nonnull with
  | false => exact ⟨_, _, _, .nil _⟩
  | true => exact ⟨_, _, _, .cons .nonnull (.nil _)⟩

theorem exists_chain_slots (n : Nat) (nonnull : Bool) : ∃ g F B,
    Chain d ((if nonnull then [.nonnull true] else []) ++ (if n = 1 then [.single] else []))
      (.array (.option .elem) n) g F B := by
  by_cases hn : n = 1
  · subst hn
    cases nonnull with
    | false => exact ⟨_, _, _, .cons .single (.nil _)⟩
    | true => exact ⟨_, _, _, .cons (.nonnullSlots 1) (.cons .singleValue (.nil _))⟩
  · rw [if_neg hn, List.append_nil]
    cases nonnull with
    | false => exact ⟨_, _, _, .nil _⟩
    | true => exact ⟨_, _, _, .cons (.nonnullSlots n) (.nil _)⟩

theorem exists_chain_steps (d : α) (c : Constraint) : ∃ g F B,
    Chain d c.steps (.list (.option .elem)) g F B := by
  cases hc : c.fixedLength? with
  | none =>
      obtain ⟨g, F, B, h⟩ := exists_chain_values (d := d) c.requiresNonnull
      rw [steps_of_free hc]
      cases hr : c.length with
      | none => exact ⟨g, F, B, h⟩
      | some r =>
          rcases step_of_free hc hr with ⟨n, hn⟩ | ⟨n, hn⟩
          · exact ⟨g, _, _, by simpa [hn] using Chain.cons (.pad n) h⟩
          · exact ⟨g, _, _, by simpa [hn] using Chain.cons (.cut n) h⟩
  | some n =>
      obtain ⟨g, F, B, h⟩ := exists_chain_slots (d := d) n c.requiresNonnull
      rw [steps_of_fixed hc]
      exact ⟨g, _, _, .cons (.fix n) h⟩

end PlainTwin.StepChain
