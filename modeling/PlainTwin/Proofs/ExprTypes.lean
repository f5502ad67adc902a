import PlainTwin.Proofs.PlainTrip

namespace PlainTwin.ExprTypes

open Conversion PlainTrip Selection StepChain

variable {α : Type} {d : α}

/-- What a function takes and gives, and the types that must have a default for it to be called. -/
inductive Signature : Primitive → (arg result : Form) → (bounds : List Form) → Prop
  | optionToTri : Signature .optionToTri (.option .elem) (.tri .elem) []
  | triToOption : Signature .triToOption (.tri .elem) (.option .elem) []
  | optionInto : Signature .optionInto (.option .elem) (.option .elem) []
  | elasticToTri : Signature .elasticToTri .elastic (.tri (.list (.option .elem))) []
  | triToElastic : Signature .triToElastic (.tri (.list (.option .elem))) .elastic []
  | unwrapDefined (f) : Signature .unwrapDefined (.tri f) f [f]
  | fromDefined (f) : Signature .fromDefined f (.tri f) []
  | toMarker (f) : Signature .toMarker (.tri f) .marker []
  | fromMarker (null f) : Signature (.fromMarker null f) .marker (.tri f) []
  | toMarkerOption (f) : Signature .toMarkerOption (.tri f) (.option .marker) []
  | fromMarkerOption (f) : Signature (.fromMarkerOption f) (.option .marker) (.tri f) []
  | toOption (f) : Signature .toOption (.tri f) (.option f) []
  | fromOption (null f) : Signature (.fromOption null) (.option f) (.tri f) []
  | fixTo (n f) : Signature (.fixTo n) (.list (.option f)) (.array (.option f) n) []
  | toList (f n) : Signature .toList (.array f n) (.list f) []
  | padTo (n f) : Signature (.padTo n) (.list (.option f)) (.list (.option f)) []
  | cutTo (n f) : Signature (.cutTo n) (.list (.option f)) (.list (.option f)) []
  | fillNulls (f) : Signature .fillNulls (.list (.option f)) (.list f) [f]
  | fillNullSlots (f n) : Signature .fillNullSlots (.array (.option f) n) (.array f n) [f]
  | wrapSome (f) : Signature .wrapSome (.list f) (.list (.option f)) []
  | wrapSomeSlots (f n) : Signature .wrapSomeSlots (.array f n) (.array (.option f) n) []
  | onlySlot (f) : Signature .onlySlot (.array f 1) f []
  | oneSlot (f) : Signature .oneSlot f (.array f 1) []

/-- An expression over a source of the form `f` has the form `g`, each of its calls being one that
the function's signature admits. The bounds are those of all calls. -/
inductive Typed : Expr → (f g : Form) → (bounds : List Form) → Prop
  | source (f) : Typed .source f f []
  | call {p e f g h bs cs} (he : Typed e f g bs) (hp : Signature p g h cs) :
      Typed (.call p e) f h (bs ++ cs)
  | mapped {e body f g h bs cs} (he : Typed e f (.tri g) bs) (hbody : Typed body g h cs) :
      Typed (.mapped e body) f (.tri h) (bs ++ cs)

theorem Signature.unique {p : Primitive} {f g h : Form} {bs cs : List Form}
    (hg : Signature p f g bs) (hh : Signature p f h cs) : g = h ∧ bs = cs := by
  cases hg <;> cases hh <;> exact ⟨rfl, rfl⟩

theorem Typed.unique {e : Expr} {f g h : Form} {bs cs : List Form} (hg : Typed e f g bs)
    (hh : Typed e f h cs) : g = h ∧ bs = cs := by
  induction hg generalizing h cs with
  | source =>
      cases hh
      exact ⟨rfl, rfl⟩
  | call _ hp ih =>
      cases hh with
      | call he' hp' =>
          obtain ⟨rfl, rfl⟩ := ih he'
          obtain ⟨rfl, rfl⟩ := hp.unique hp'
          exact ⟨rfl, rfl⟩
  | mapped _ _ ihe ihbody =>
      cases hh with
      | mapped he' hbody' =>
          obtain ⟨⟨⟩, rfl⟩ := ihe he'
          obtain ⟨rfl, rfl⟩ := ihbody hbody'
          exact ⟨rfl, rfl⟩

inductive Leads : List Primitive → (f g : Form) → (bounds : List Form) → Prop
  | nil (f) : Leads [] f f []
  | cons {p ps f g h bs cs} (hp : Signature p f g bs) (hps : Leads ps g h cs) :
      Leads (p :: ps) f h (bs ++ cs)

theorem Leads.single {p : Primitive} {f g : Form} {bs : List Form} (hp : Signature p f g bs) :
    Leads [p] f g bs := by
  simpa using Leads.cons hp (.nil g)

theorem Leads.append {ps qs : List Primitive} {f g h : Form} {bs cs : List Form}
    (hp : Leads ps f g bs) (hq : Leads qs g h cs) : Leads (ps ++ qs) f h (bs ++ cs) := by
  induction hp with
  | nil => exact hq
  | cons hp _ ih =>
      rw [List.append_assoc]
      exact .cons hp (ih hq)

def bounds (c : Constraint) (k : Kind) (w : Wrap) : List Form :=
  (if w = .value then [richForm k] else []) ++
    if c.requiresNonnull ∧ w.carriesValue then [.elem] else []

def lone : Conversion := ⟨.elastic, [.fix 1, .nonnull true, .single], .option false⟩

end PlainTwin.ExprTypes
