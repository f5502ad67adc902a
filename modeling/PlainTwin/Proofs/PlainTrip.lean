import PlainTwin.Proofs.Selection
import PlainTwin.Proofs.Settling

namespace PlainTwin.PlainTrip

open CallChain StepChain Selection Settling Conversion

variable {α : Type} {d : α}

/-- The three states of a rich value, as far as its container tells them apart. -/
def states : (k : Kind) → k.form.Val α → Tri ((richForm k).Val α)
  | .option, o => .orNull o
  | .tri, t => t
  | .elastic, e => e.toStates

def ofStates : (k : Kind) → Tri ((richForm k).Val α) → k.form.Val α
  | .option, t => t.toOption
  | .tri, t => t
  | .elastic, t => .ofStates t

def fallback (d : α) : (k : Kind) → (richForm k).Val α
  | .option | .tri => d
  | .elastic => []

def packed {f g : Form} (z : f.Val α) (F : f.Val α → g.Val α) :
    (w : Wrap) → Tri (f.Val α) → (w.applyForm g).Val α
  | .tri, t => t.map F
  | .value, t => F (t.getD z)
  | .marker _, t => (t.map F).toMarker
  | .markerOption, t => (t.map F).toMarkerOption
  | .option _, t => (t.map F).toOption

def unpacked {f g : Form} (B : g.Val α → f.Val α) :
    (w : Wrap) → (w.applyForm g).Val α → Tri (f.Val α)
  | .tri, t => t.map B
  | .value, y => .defined (B y)
  | .marker null, m => .ofMarker null m
  | .markerOption, o => .ofMarkerOption o
  | .option null, o => (Tri.ofOption null o).map B

theorem runs_toTri (k : Kind) : Runs d (toTri k) k.form (.tri (richForm k)) (states k) := by
  cases k with
  | option | elastic => exact Runs.single rfl
  | tri => exact Runs.nil _

theorem runs_ofTri (k : Kind) : Runs d (ofTri k) (.tri (richForm k)) k.form (ofStates k) := by
  cases k with
  | option =>
      have hto : Runs d [.triToOption] (.tri .elem) (.option .elem) Tri.toOption := Runs.single rfl
      exact hto.append (Runs.single (p := .optionInto) rfl)
  | tri => exact Runs.nil _
  | elastic => exact Runs.single rfl

theorem default?_richForm (d : α) (k : Kind) :
    (richForm k).default? d = some (fallback d k) := by
  cases k <;> rfl

theorem meaning?_forward {k : Kind} {ss : List Step} {w : Wrap} {g : Form}
    {F : (richForm k).Val α → g.Val α} {B : g.Val α → (richForm k).Val α}
    (hss : Chain d ss (richForm k) g F B) :
    (Conversion.mk k ss w).forward.meaning? d k.form =
      some ⟨w.applyForm g, packed (fallback d k) F w ∘ states k⟩ := by
  have hstates := meaning?_calls_source (runs_toTri (d := d) k)
  have hmapped := meaning?_onDefined hss.forward hstates
  cases w with
  | tri => exact hmapped
  | value =>
      have hvalue : Runs d [.unwrapDefined] (.tri (richForm k)) (richForm k)
          (fun t => t.getD (fallback d k)) := by
        exact Runs.single (by simp [Primitive.meaning?, default?_richForm])
      exact meaning?_calls hss.forward (meaning?_calls hvalue hstates)
  | marker null =>
      exact meaning?_calls (Runs.single (p := .toMarker) rfl) hmapped
  | markerOption =>
      exact meaning?_calls (Runs.single (p := .toMarkerOption) rfl) hmapped
  | option null =>
      exact meaning?_calls (Runs.single (p := .toOption) rfl) hmapped

def statesExpr (c : Conversion) : Expr :=
  let steps := c.steps.reverse.filterMap Step.backwardPrimitive?
  let wrap := (c.wrap.backwardPrimitive? (richForm c.kind)).toList
  if c.wrap = .value then (Expr.source.calls steps).calls wrap
  else onDefined (Expr.source.calls wrap) steps

theorem meaning?_statesExpr {k : Kind} {ss : List Step} {w : Wrap} {g : Form}
    {F : (richForm k).Val α → g.Val α} {B : g.Val α → (richForm k).Val α}
    (hss : Chain d ss (richForm k) g F B) (hw : w.carriesValue ∨ ss = []) :
    (statesExpr ⟨k, ss, w⟩).meaning? d (w.applyForm g) =
      some ⟨.tri (richForm k), unpacked B w⟩ := by
  cases w with
  | tri => exact meaning?_onDefined hss.backward rfl
  | value =>
      exact meaning?_calls (Runs.single (p := .fromDefined) rfl)
        (meaning?_calls_source hss.backward)
  | option null =>
      exact meaning?_onDefined hss.backward
        (meaning?_calls_source (Runs.single (p := .fromOption null) rfl))
  | marker null =>
      obtain rfl : ss = [] := by simpa [Wrap.carriesValue] using hw
      exact meaning?_calls_source (Runs.single (p := .fromMarker null (richForm k)) rfl)
  | markerOption =>
      obtain rfl : ss = [] := by simpa [Wrap.carriesValue] using hw
      exact meaning?_calls_source (Runs.single (p := .fromMarkerOption (richForm k)) rfl)

theorem meaning?_backward {k : Kind} {ss : List Step} {w : Wrap} {g : Form}
    {F : (richForm k).Val α → g.Val α} {B : g.Val α → (richForm k).Val α}
    (hss : Chain d ss (richForm k) g F B) (hw : w.carriesValue ∨ ss = []) :
    (Conversion.mk k ss w).backward.meaning? d (w.applyForm g) =
      some ⟨k.form, ofStates k ∘ unpacked B w⟩ :=
  meaning?_calls (runs_ofTri k) (meaning?_statesExpr hss hw)

theorem toPlain?_eq {conv : Conversion} {F : (richForm conv.kind).Val α → conv.valueForm.Val α}
    {B : conv.valueForm.Val α → (richForm conv.kind).Val α}
    (hss : Chain d conv.steps (richForm conv.kind) conv.valueForm F B)
    (v : conv.kind.form.Val α) :
    conv.toPlain? d v = some (packed (fallback d conv.kind) F conv.wrap (states conv.kind v)) :=
  eval?_eq_some (meaning?_forward hss) v

theorem toRich?_eq {conv : Conversion} {F : (richForm conv.kind).Val α → conv.valueForm.Val α}
    {B : conv.valueForm.Val α → (richForm conv.kind).Val α}
    (hss : Chain d conv.steps (richForm conv.kind) conv.valueForm F B)
    (hw : conv.wrap.carriesValue ∨ conv.steps = []) (p : conv.plainForm.Val α) :
    conv.toRich? d p = some (ofStates conv.kind (unpacked B conv.wrap p)) :=
  eval?_eq_some (meaning?_backward hss hw) p

def trip? (d : α) (conv : Conversion) (v : conv.kind.form.Val α) : Option (conv.kind.form.Val α) :=
  (conv.toPlain? d v).bind (conv.toRich? d)

def settleValue (d : α) (ss : List Step) : (k : Kind) → (richForm k).Val α → (richForm k).Val α
  | .option, a | .tri, a => a
  | .elastic, xs => settle d ss xs

/-- What a trip leaves of three states, when it leaves `f a` of a defined `a`. -/
def settleStates {β : Type} (f : β → β) (z : β) : Wrap → Tri β → Tri β
  | .tri, t => t.map f
  | .value, t => .defined (f (t.getD z))
  | .marker null, _ => .ofMarker null .nullish
  | .markerOption, t => .ofMarkerOption t.toMarkerOption
  | .option null, t => (Tri.ofOption null t.toOption).map f

def settled (d : α) (conv : Conversion) (v : conv.kind.form.Val α) : conv.kind.form.Val α :=
  ofStates conv.kind
    (settleStates (settleValue d conv.steps conv.kind) (fallback d conv.kind) conv.wrap
      (states conv.kind v))

theorem unpacked_packed {f g : Form} (z : f.Val α) (F : f.Val α → g.Val α)
    (B : g.Val α → f.Val α) (w : Wrap) (t : Tri (f.Val α)) :
    unpacked B w (packed z F w t) = settleStates (B ∘ F) z w t := by
  cases w with
  | tri => exact Tri.map_map F B t
  | value | marker null => rfl
  | markerOption => cases t <;> rfl
  | option null => cases t <;> cases null <;> rfl

theorem exists_chain {c : Constraint} {conv : Conversion} (h : Selected c conv) (d : α) :
    ∃ g F B, Chain d conv.steps (richForm conv.kind) g F B ∧ conv.valueForm = g ∧
      B ∘ F = settleValue d conv.steps conv.kind := by
  obtain ⟨k, ss, w⟩ := conv
  cases k with
  | option | tri =>
      obtain rfl : ss = [] := h.steps_of_ne_elastic (by simp)
      exact ⟨_, _, _, .nil _, rfl, rfl⟩
  | elastic =>
      have hss : ss = c.steps ∨ ss = [] := by
        rcases h.carriesValue_or_steps_eq_nil with hw | hnil
        · exact .inl (h.steps_of_elastic rfl hw)
        · exact .inr hnil
      have hchain : ∃ g F B, Chain d ss (.list (.option .elem)) g F B := by
        rcases hss with rfl | rfl
        · exact exists_chain_steps d c
        · exact ⟨_, _, _, .nil _⟩
      obtain ⟨g, F, B, hchain⟩ := hchain
      refine ⟨g, F, B, hchain, hchain.form, ?_⟩
      funext xs
      have htrip := trip_chain hchain xs
      exact htrip

/-- Both expressions of a selected conversion are typed, and a trip through them settles the
value. -/
theorem trip?_eq {c : Constraint} {conv : Conversion} (h : Selected c conv) (d : α)
    (v : conv.kind.form.Val α) : trip? d conv v = some (settled d conv v) := by
  obtain ⟨g, F, B, hchain, rfl, htrip⟩ := exists_chain h d
  have hrich : conv.toRich? d (packed (fallback d conv.kind) F conv.wrap (states conv.kind v)) =
      some (settled d conv v) := by
    refine (toRich?_eq hchain h.carriesValue_or_steps_eq_nil _).trans ?_
    rw [unpacked_packed, htrip]
    rfl
  exact (congrArg (Option.bind · (conv.toRich? d)) (toPlain?_eq hchain v)).trans hrich

end PlainTwin.PlainTrip
