import Mathlib.Data.List.Induction
import PlainTwin.Proofs.Success
import PlainTwin.Twin.File

namespace PlainTwin.ItemOutput

open Source Generated Success

def joined (g h : Generated) : Generated :=
  ⟨g.skipped || h.skipped, g.structs ++ h.structs, g.errors ++ h.errors, g.tokens ++ h.tokens⟩

inductive Yields (s : Struct) : Generated → Prop
  | unreadable {e : AttributeError} (hr : RichStruct.ofStruct s = .error e) :
      Yields s { errors := [.marking e] }
  | unnamed (hr : RichStruct.ofStruct s = .ok none) : Yields s {}
  | excluded {r : RichStruct} (hr : RichStruct.ofStruct s = .ok (some r))
      (hx : r.isExcluded = true) : Yields s {}
  | unplanned {r : RichStruct} {e : PlanError} (hr : RichStruct.ofStruct s = .ok (some r))
      (hx : r.isExcluded = false) (hp : Plan.build r = .error e) :
      Yields s { errors := [.plan e] }
  | twin {r : RichStruct} {p : Plan} (hr : RichStruct.ofStruct s = .ok (some r))
      (hx : r.isExcluded = false) (hp : Plan.build r = .ok p) :
      Yields s { structs := [r.name], tokens := (Twin.ofPlan p).tokens }

theorem joined_nothing (g : Generated) : joined g {} = g := by
  simp [joined]

/-- Each way out of the loop's body leaves what was there and adds what the struct gives. -/
theorem exists_yields (s : Struct) :
    ∃ h, Yields s h ∧ ∀ g : Generated, g.addStruct s = joined g h := by
  cases hr : RichStruct.ofStruct s with
  | error e =>
    refine ⟨_, .unreadable hr, fun g => ?_⟩
    simp [addStruct, hr, addError, joined]
  | ok r =>
    cases r with
    | none =>
      refine ⟨_, .unnamed hr, fun g => ?_⟩
      simp [addStruct, hr, joined_nothing]
    | some r =>
      by_cases hx : r.isExcluded = true
      · refine ⟨_, .excluded hr hx, fun g => ?_⟩
        simp [addStruct, hr, hx, joined_nothing]
      · have hx : r.isExcluded = false := Bool.eq_false_iff.mpr hx
        cases hp : Plan.build r with
        | error e =>
          refine ⟨_, .unplanned hr hx hp, fun g => ?_⟩
          simp [addStruct, hr, hx, hp, addError, joined]
        | ok p =>
          refine ⟨_, .twin hr hx hp, fun g => ?_⟩
          simp [addStruct, hr, hx, hp, joined]

theorem yields_ofItems (s : Struct) : Yields s (ofItems [.struct s]) := by
  obtain ⟨h, hy, heq⟩ := exists_yields s
  have hs : ofItems [.struct s] = h := by
    change ({} : Generated).addStruct s = h
    rw [heq]
    simp [joined]
  rw [hs]
  exact hy

theorem Yields.skipped {s : Struct} {h : Generated} (hy : Yields s h) : h.skipped = false := by
  cases hy <;> rfl

theorem skipped_ofItems_singleton (i : Item) : (ofItems [i]).skipped = false := by
  cases i with
  | other => rfl
  | struct s => exact (yields_ofItems s).skipped

theorem addItem_eq (g : Generated) (i : Item) : g.addItem i = joined g (ofItems [i]) := by
  cases i with
  | other => exact (joined_nothing g).symm
  | struct s =>
    obtain ⟨h, -, heq⟩ := exists_yields s
    change g.addStruct s = joined g (({} : Generated).addStruct s)
    rw [heq, heq]
    simp [joined]

theorem ofItems_eq (items : List Item) :
    ofItems items = ⟨false, items.flatMap fun i => (ofItems [i]).structs,
      items.flatMap fun i => (ofItems [i]).errors, items.flatMap fun i => (ofItems [i]).tokens⟩ := by
  induction items using List.reverseRecOn with
  | nil => rfl
  | append_singleton items i ih =>
    have hstep : ofItems (items ++ [i]) = (ofItems items).addItem i := by
      simp [ofItems, List.foldl_append]
    rw [hstep, addItem_eq, ih]
    simp [joined, skipped_ofItems_singleton]

theorem ofItems_append (is js : List Item) :
    ofItems (is ++ js) = joined (ofItems is) (ofItems js) := by
  rw [ofItems_eq, ofItems_eq is, ofItems_eq js]
  simp [joined]

theorem eq_of_ofStruct {s : Struct} {r : RichStruct} (h : RichStruct.ofStruct s = .ok (some r)) :
    ∃ fields m traits rs, s.fields = .named fields ∧ Marking.ofAttributes s.attrs = .ok m ∧
      fields.mapM RichField.ofField = .ok rs ∧
      r = ⟨s.name, s.vis, s.generics, traits, carriedAttributes s.attrs, rs,
        (Directives.ofAttributes s.attrs).withIgnore m.ignore⟩ := by
  unfold RichStruct.ofStruct at h
  split at h
  case h_1 fields hfields =>
    obtain ⟨m, hm, h⟩ := bind_eq_ok_iff.mp h
    split at h
    · cases h
    · obtain ⟨traits, -, h⟩ := bind_eq_ok_iff.mp h
      obtain ⟨rs, hrs, h⟩ := bind_eq_ok_iff.mp h
      cases h
      exact ⟨fields, m, _, rs, hfields, hm, hrs, rfl⟩
  case h_2 => cases h

theorem name_of_ofStruct {s : Struct} {r : RichStruct} (h : RichStruct.ofStruct s = .ok (some r)) :
    r.name = s.name := by
  obtain ⟨fields, m, traits, rs, -, -, -, rfl⟩ := eq_of_ofStruct h
  rfl

theorem ofText?_of_unmarked {text : String} {items : List Item} (hmark : isGenerated text = false)
    (hitems : Item.ofFile? text = some items) : ofText? text = some (ofItems items) := by
  simp [ofText?, hmark, hitems]

/-- The output of a file is that of its items in their order, each as it is when the item is the only
one of its file. A struct gives its name with the tokens of its twin, or one error, or nothing. What
is no struct gives nothing. -/
theorem ofText?_of_items {text : String} {items : List Item} (hmark : isGenerated text = false)
    (hitems : Item.ofFile? text = some items) :
    ∃ g, ofText? text = some g ∧ g.skipped = false ∧
      g.structs = items.flatMap (fun i => (ofItems [i]).structs) ∧
      g.errors = items.flatMap (fun i => (ofItems [i]).errors) ∧
      g.tokens = items.flatMap (fun i => (ofItems [i]).tokens) ∧
      (∀ i part, isGenerated part = false → Item.ofFile? part = some [i] →
        ofText? part = some (ofItems [i])) ∧
      ofItems [.other] = {} ∧ ∀ s : Struct, (ofItems [.struct s]).skipped = false ∧
        (((ofItems [.struct s]).structs = [s.name] ∧ (ofItems [.struct s]).errors = [] ∧
            ∃ r p, RichStruct.ofStruct s = .ok (some r) ∧ Plan.build r = .ok p ∧
              (ofItems [.struct s]).tokens = (Twin.ofPlan p).tokens) ∨
          ((ofItems [.struct s]).structs = [] ∧ (ofItems [.struct s]).tokens = [] ∧
            ∃ e, (ofItems [.struct s]).errors = [e]) ∨
          ofItems [.struct s] = {}) := by
  refine ⟨_, ofText?_of_unmarked hmark hitems, ?_, ?_, ?_, ?_,
    fun i part hpart hi => ofText?_of_unmarked hpart hi, rfl,
    fun s => ⟨skipped_ofItems_singleton _, ?_⟩⟩
  · rw [ofItems_eq]
  · rw [ofItems_eq]
  · rw [ofItems_eq]
  · rw [ofItems_eq]
  · have hy := yields_ofItems s
    generalize ofItems [.struct s] = h at hy
    cases hy with
    | unreadable hr => exact .inr (.inl ⟨rfl, rfl, _, rfl⟩)
    | unnamed hr => exact .inr (.inr rfl)
    | excluded hr hx => exact .inr (.inr rfl)
    | unplanned hr hx hp => exact .inr (.inl ⟨rfl, rfl, _, rfl⟩)
    | twin hr hx hp =>
      rw [name_of_ofStruct hr]
      exact .inl ⟨rfl, rfl, _, _, hr, hp, rfl⟩

def mixed : String :=
  "struct Q\x7b#[und(\"def,null,und\")]pub a:Und<u8>\x7dstruct R\x7b#[und(\"def\")]pub b:Und<u8>\x7d"

theorem ofText?_of_mixed : ∃ items g, Item.ofFile? mixed = some items ∧ ofText? mixed = some g ∧
    g.structs = ["R"] ∧ g.errors = [.plan (.noFieldModified "Q")] ∧
    g.tokens = items.flatMap fun i => (ofItems [i]).tokens := by
  have hmark : isGenerated mixed = false := by decide +kernel
  have hout : (Item.ofFile? mixed).map (fun items => ((ofItems items).structs, (ofItems items).errors)) =
      some (["R"], [.plan (.noFieldModified "Q")]) := by decide +kernel
  obtain ⟨items, hitems, heq⟩ := Option.map_eq_some_iff.mp hout
  obtain ⟨hstructs, herrors⟩ := Prod.mk.inj heq
  obtain ⟨g, hg, -, -, -, htokens, -⟩ := ofText?_of_items hmark hitems
  obtain rfl : g = ofItems items := Option.some.inj (hg.symm.trans (ofText?_of_unmarked hmark hitems))
  exact ⟨items, _, hitems, hg, hstructs, herrors, htokens⟩

end PlainTwin.ItemOutput
