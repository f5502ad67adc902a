import PlainTwin.Proofs.FrontEnds
import PlainTwin.Proofs.KeyNames

namespace PlainTwin.Exclusion

open Source Generated FrontEnds ItemOutput KeyNames Success

def isIgnore : Tokens → Bool
  | [.ident n] => n == "ignore"
  | _ => false

def asksIgnore (a : Attribute) : Bool :=
  a.isNamed "und" && match a.args with
    | .list _ args => (pieces args).any isIgnore
    | _ => false

/-- The struct is not to be considered, as an attribute or a doc line says. -/
def Excluded (s : Struct) : Prop :=
  ∃ a ∈ s.attrs, asksIgnore a ∨ (docLine? a).any isDirective

instance (s : Struct) : Decidable (Excluded s) :=
  inferInstanceAs (Decidable (∃ a ∈ s.attrs, _))

inductive FieldFault (f : Field) : AttributeError → Prop
  | marking {e : AttributeError} (h : Marking.ofAttributes f.attrs = .error e) : FieldFault f e
  | traits {m : Marking} (h : Marking.ofAttributes f.attrs = .ok m) (hm : m.traits ≠ []) :
      FieldFault f .traitsOnField

/-- Why a struct with the named fields cannot be read: its first fault. -/
inductive Fault (s : Struct) (fields : List Field) : AttributeError → Prop
  | marking {e : AttributeError} (h : Marking.ofAttributes s.attrs = .error e) : Fault s fields e
  | tag {m : Marking} (h : Marking.ofAttributes s.attrs = .ok m) (hm : m.tag.isSome) :
      Fault s fields .tagOnStruct
  | traits {m : Marking} {e : AttributeError} (h : Marking.ofAttributes s.attrs = .ok m)
      (hm : m.tag = none) (hd : derivedTraits s.attrs = .error e) : Fault s fields e
  | field {m : Marking} {traits : List DerivedTrait} {before after : List Field} {f : Field}
      {e : AttributeError} (h : Marking.ofAttributes s.attrs = .ok m) (hm : m.tag = none)
      (hd : derivedTraits s.attrs = .ok traits) (hfields : fields = before ++ f :: after)
      (hbefore : ∀ f' ∈ before, ∀ e', ¬FieldFault f' e') (hf : FieldFault f e) : Fault s fields e

def Unreadable (s : Struct) (e : AttributeError) : Prop :=
  ∃ fields, s.fields = .named fields ∧ Fault s fields e

theorem ofField_eq_error_iff {f : Field} {e : AttributeError} :
    RichField.ofField f = .error e ↔ FieldFault f e := by
  unfold RichField.ofField
  constructor
  · intro h
    obtain h | ⟨m, hm, h⟩ := bind_eq_error_iff.mp h
    · exact .marking h
    · split at h
      · next ht =>
        cases h
        exact .traits hm (by simpa using ht)
      · cases h
  · rintro (h | ⟨hm, ht⟩)
    · exact bind_eq_error_iff.mpr (.inl h)
    · exact bind_eq_error_iff.mpr (.inr ⟨_, hm, by simp [ht]⟩)

theorem exists_ofField_iff {f : Field} :
    (∃ r, RichField.ofField f = .ok r) ↔ ∀ e, ¬FieldFault f e := by
  simp only [← ofField_eq_error_iff]
  cases RichField.ofField f <;> simp

theorem ofStruct_eq_error_iff {s : Struct} {e : AttributeError} :
    RichStruct.ofStruct s = .error e ↔ Unreadable s e := by
  unfold RichStruct.ofStruct Unreadable
  constructor
  · intro h
    split at h
    case h_2 => cases h
    case h_1 fields hfields =>
      refine ⟨fields, hfields, ?_⟩
      obtain h | ⟨m, hm, h⟩ := bind_eq_error_iff.mp h
      · exact .marking h
      split at h
      case isTrue ht =>
        cases h
        exact .tag hm ht
      case isFalse ht =>
        have ht : m.tag = none := by simpa using ht
        obtain h | ⟨traits, hd, h⟩ := bind_eq_error_iff.mp h
        · exact .traits hm ht h
        obtain h | ⟨rs, -, h⟩ := bind_eq_error_iff.mp h
        · obtain ⟨before, f, after, rfl, hbefore, hf⟩ := mapM_eq_error_iff.mp h
          exact .field hm ht hd rfl (fun f' hf' => exists_ofField_iff.mp (hbefore f' hf'))
            (ofField_eq_error_iff.mp hf)
        · cases h
  · rintro ⟨fields, hfields, hfault⟩
    rw [hfields]
    cases hfault with
    | marking h => exact bind_eq_error_iff.mpr (.inl h)
    | tag h hm => exact bind_eq_error_iff.mpr (.inr ⟨_, h, by simp [hm]⟩)
    | traits h hm hd =>
      refine bind_eq_error_iff.mpr (.inr ⟨_, h, ?_⟩)
      rw [if_neg (by simp [hm])]
      exact bind_eq_error_iff.mpr (.inl hd)
    | field h hm hd hsplit hbefore hf =>
      refine bind_eq_error_iff.mpr (.inr ⟨_, h, ?_⟩)
      rw [if_neg (by simp [hm])]
      refine bind_eq_error_iff.mpr (.inr ⟨_, hd, bind_eq_error_iff.mpr (.inl ?_)⟩)
      exact mapM_eq_error_iff.mpr ⟨_, _, _, hsplit,
        fun f' hf' => exists_ofField_iff.mpr (hbefore f' hf'), ofField_eq_error_iff.mpr hf⟩

theorem separator_eq {ts rest : Tokens} (h : Arguments.separator ts = .ok rest) :
    beforeComma ts = [] ∧ rest = (fromComma ts).drop 1 := by
  unfold Arguments.separator at h
  cases ts with
  | nil =>
    cases h
    exact ⟨rfl, rfl⟩
  | cons t ts =>
    simp only [List.isEmpty_cons, Bool.false_eq_true, if_false] at h
    split at h
    case isTrue hs =>
      have ht : isComma t := by simpa [Tokens.startsOp, Tokens.startsMarks] using hs
      cases h
      exact ⟨by simp [beforeComma, ht], by simp [fromComma, ht, Tokens.past]⟩
    case isFalse => cases h

theorem ofArguments_eq_ok_iff {α : Type} {x : Except ArgumentError α} {a : α} :
    Marking.ofArguments x = .ok a ↔ x = .ok a := by
  cases x <;> simp [Marking.ofArguments]

theorem eq_of_bracketedPaths {ts rest : Tokens} {ps : List ModulePath}
    (h : Arguments.bracketedPaths ts = .ok (ps, rest)) :
    ∃ content, ts = .group .paren content :: rest := by
  unfold Arguments.bracketedPaths at h
  split at h
  · obtain ⟨ps', -, h⟩ := bind_eq_ok_iff.mp h
    cases h
    exact ⟨_, rfl⟩
  · cases h

theorem piece_of_argument {m m' : Marking} {k : Nat} {ts : Tokens} (hts : ts ≠ [])
    (h : m.addArguments (k + 1) ts = .ok m') :
    ∃ m₁ : Marking, m₁.ignore = (m.ignore || isIgnore (beforeComma ts)) ∧
      m₁.addArguments k ((fromComma ts).drop 1) = .ok m' := by
  rw [Marking.addArguments, if_neg (by simpa using hts)] at h
  obtain ⟨⟨p, rest⟩, hp, h⟩ := bind_eq_ok_iff.mp h
  obtain ⟨-, hname⟩ := path_eq (ofArguments_eq_ok_iff.mp hp)
  simp only [pure_bind] at h
  split at h
  case isTrue hi =>
    obtain ⟨next, hnext, hadd⟩ := bind_eq_ok_iff.mp h
    obtain ⟨hnil, rfl⟩ := separator_eq (ofArguments_eq_ok_iff.mp hnext)
    rw [hname _ hi]
    have hb : beforeComma (.ident "ignore" :: rest) = [.ident "ignore"] :=
      congrArg (List.cons _) hnil
    exact ⟨_, by simp [hb, isIgnore], hadd⟩
  case isFalse =>
    split at h
    case isTrue hd =>
      obtain ⟨⟨ps, rest'⟩, hps, hrest⟩ := bind_eq_ok_iff.mp h
      obtain ⟨next, hnext, hadd⟩ := bind_eq_ok_iff.mp hrest
      obtain ⟨hnil, rfl⟩ := separator_eq (ofArguments_eq_ok_iff.mp hnext)
      obtain ⟨content, rfl⟩ := eq_of_bracketedPaths (ofArguments_eq_ok_iff.mp hps)
      rw [hname _ hd]
      have hb : beforeComma (.ident "derive" :: .group .paren content :: rest') =
          [.ident "derive", .group .paren content] :=
        congrArg (fun q => _ :: _ :: q) hnil
      exact ⟨_, by simp [hb, isIgnore], hadd⟩
    case isFalse => cases h

theorem ignore_of_addArguments {m m' : Marking} (k : Nat) {ts : Tokens} (hk : ts.length < k)
    (h : m.addArguments k ts = .ok m') :
    m'.ignore = (m.ignore || (pieces ts).any isIgnore) := by
  induction k generalizing m ts with
  | zero => omega
  | succ k ih =>
    by_cases hts : ts = []
    · subst hts
      cases h
      exact (Bool.or_false _).symm
    · obtain ⟨m₁, hm₁, h⟩ := piece_of_argument hts h
      have hlt := length_fromComma_lt hts
      rw [ih (by omega) h, hm₁, pieces_eq hts, List.any_cons, Bool.or_assoc]

theorem ignore_of_setTag {m m' : Marking} {tag : String} (h : m.setTag tag = .ok m') :
    m'.ignore = m.ignore := by
  unfold Marking.setTag at h
  split at h
  · cases h
  · cases h
    rfl

theorem ignore_of_add {m m' : Marking} {a : Attribute} (ha : a.isNamed "und")
    (h : m.add a = .ok m') : m'.ignore = (m.ignore || asksIgnore a) := by
  simp only [asksIgnore, ha, Bool.true_and]
  unfold Marking.add at h
  split at h
  case h_1 => cases h
  case h_2 hargs =>
    rw [hargs, Bool.or_false]
    split at h
    · exact ignore_of_setTag h
    · cases h
  case h_3 hargs =>
    rw [hargs, ignore_of_setTag h]
    exact (Bool.or_false _).symm
  case h_4 hargs =>
    rw [hargs]
    exact ignore_of_addArguments _ (Nat.lt_succ_self _) h

theorem ignore_of_ofAttributes {attrs : List Attribute} {m : Marking}
    (h : Marking.ofAttributes attrs = .ok m) : m.ignore = attrs.any asksIgnore := by
  have hfold : ∀ (as : List Attribute) (m₀ : Marking), (∀ a ∈ as, a.isNamed "und") →
      as.foldlM Marking.add m₀ = .ok m → m.ignore = (m₀.ignore || as.any asksIgnore) := by
    intro as
    induction as with
    | nil =>
      rintro m₀ - h
      cases h
      exact (Bool.or_false _).symm
    | cons a as ih =>
      intro m₀ hund h
      obtain ⟨hu, hund⟩ := List.forall_mem_cons.mp hund
      rw [List.foldlM_cons] at h
      obtain ⟨m₁, hm₁, h⟩ := bind_eq_ok_iff.mp h
      rw [ih m₁ hund h, ignore_of_add hu hm₁, List.any_cons, Bool.or_assoc]
  rw [hfold _ {} (fun a ha => (List.mem_filter.mp ha).2) h, Bool.false_or, List.any_filter]
  refine congrArg attrs.any (funext fun a => ?_)
  cases hu : a.isNamed "und" <;> simp [asksIgnore, hu]

theorem directs_iff (attrs : List Attribute) :
    ((Directives.ofAttributes attrs).ignore || (Directives.ofAttributes attrs).generated) ↔
      ∃ a ∈ attrs, (docLine? a).any isDirective := by
  have hline : ∀ word, ((attrs.filterMap docLine?).map trimmed).contains word ↔
      ∃ a ∈ attrs, ∃ line ∈ docLine? a, trimmed line = word := by
    intro word
    simp only [List.contains_iff_mem, List.mem_map, List.mem_filterMap, Option.mem_def]
    grind
  rw [Bool.or_eq_true, Directives.ofAttributes, hline, hline]
  simp only [Option.any_eq_true, isDirective, List.contains_iff_mem, List.mem_cons,
    List.not_mem_nil, or_false, Option.mem_def]
  grind

theorem directives_iff {s : Struct} {r : RichStruct} (h : RichStruct.ofStruct s = .ok (some r)) :
    (r.directives.ignore || r.directives.generated) ↔ Excluded s := by
  obtain ⟨fields, m, traits, rs, -, hm, -, rfl⟩ := eq_of_ofStruct h
  have hdirects := directs_iff s.attrs
  rw [Bool.or_eq_true] at hdirects
  simp only [Directives.withIgnore, ignore_of_ofAttributes hm, Excluded, and_or_left, exists_or,
    ← hdirects, Bool.or_eq_true, List.any_eq_true]
  rw [or_right_comm, or_comm]

theorem isExcluded_of_excluded {s : Struct} {r : RichStruct} (hs : Excluded s)
    (hr : RichStruct.ofStruct s = .ok (some r)) : r.isExcluded = true := by
  rw [RichStruct.isExcluded, (directives_iff hr).mpr hs, Bool.true_or]

theorem ofItems_of_excluded {s : Struct} (hs : Excluded s) :
    ((∀ e, ¬Unreadable s e) ∧ ofItems [.struct s] = {}) ∨
      ∃ e, Unreadable s e ∧ ofItems [.struct s] = { errors := [.marking e] } := by
  have hy := yields_ofItems s
  simp only [← ofStruct_eq_error_iff]
  generalize ofItems [.struct s] = h at hy ⊢
  cases hy with
  | @unreadable e hr => exact .inr ⟨e, hr, rfl⟩
  | unnamed hr => exact .inl ⟨by simp [hr], rfl⟩
  | excluded hr hx => exact .inl ⟨by simp [hr], rfl⟩
  | unplanned hr hx hp =>
    rw [isExcluded_of_excluded hs hr] at hx
    cases hx
  | twin hr hx hp =>
    rw [isExcluded_of_excluded hs hr] at hx
    cases hx

theorem eq_of_unreadable {s : Struct} {e e' : AttributeError} (h : Unreadable s e)
    (h' : Unreadable s e') : e = e' :=
  Except.error.inj ((ofStruct_eq_error_iff.mpr h).symm.trans (ofStruct_eq_error_iff.mpr h'))

/-- A struct that is not to be considered has no twin, and no tag of a field counts. Without it the
file has the same output, but for one thing: where an attribute of the struct or of a field cannot be
read, the file has one error more. -/
theorem output_of_excluded {s : Struct} {before after : List Item} {file rest : String}
    (hs : Excluded s) (hfile : Item.ofFile? file = some (before ++ .struct s :: after))
    (hrest : Item.ofFile? rest = some (before ++ after))
    (hmark : isGenerated file = isGenerated rest) :
    ∃ g g', ofText? file = some g ∧ ofText? rest = some g' ∧
      g.skipped = g'.skipped ∧ g.structs = g'.structs ∧ g.tokens = g'.tokens ∧
      (g.errors = g'.errors ↔ isGenerated file ∨ ∀ e, ¬Unreadable s e) ∧
      ∀ e, Unreadable s e → isGenerated file = false →
        g'.errors = (ofItems before).errors ++ (ofItems after).errors ∧
        g.errors = (ofItems before).errors ++ .marking e :: (ofItems after).errors := by
  cases hg : isGenerated file with
  | true =>
    have hrest : ofText? rest = some { skipped := true } := by simp [ofText?, ← hmark, hg]
    exact ⟨_, _, by simp [ofText?, hg], hrest, rfl, rfl, rfl, by simp, by simp⟩
  | false =>
    refine ⟨_, _, ofText?_of_unmarked hg hfile, ofText?_of_unmarked (hmark ▸ hg) hrest, ?_⟩
    have hone : ofItems (before ++ .struct s :: after) =
        joined (ofItems before) (joined (ofItems [.struct s]) (ofItems after)) := by
      rw [← ofItems_append, ← ofItems_append]
      rfl
    rw [hone, ofItems_append]
    obtain ⟨hread, hs⟩ | ⟨e, he, hs⟩ := ofItems_of_excluded hs <;> rw [hs]
    · refine ⟨by simp [joined], by simp [joined], by simp [joined], ?_, fun e he => ?_⟩
      · simp [joined, hread]
      · exact absurd he (hread e)
    · refine ⟨by simp [joined], by simp [joined], by simp [joined], ?_, fun e' he' _ => ?_⟩
      · simp only [joined, List.append_cancel_left_eq, List.singleton_append, List.cons_ne_self,
          Bool.false_eq_true, false_or, false_iff, not_forall, not_not]
        exact ⟨e, he⟩
      · rw [eq_of_unreadable he' he]
        simp [joined]

def ignored : String := "/// undgen:ignore\nstruct Q\x7b#[und(\"no tag\")]pub a:Und<u8>\x7d"

theorem output_of_ignored : ∃ g g', ofText? ignored = some g ∧ ofText? "" = some g' ∧
    g.structs = g'.structs ∧ g.tokens = g'.tokens ∧ g.errors = g'.errors ∧ g.errors = [] := by
  have hexcluded : ∃ s ∈ structOf? ignored, Excluded s := by decide +kernel
  have herrors : (ofText? ignored).map (·.errors) = some [] := by decide +kernel
  have hrest : Item.ofFile? "" = some ([] ++ []) := by rfl
  obtain ⟨s, hs, hexcluded⟩ := hexcluded
  have hfile : Item.ofFile? ignored = some ([] ++ .struct s :: []) := ofFile?_of_structOf? hs
  obtain ⟨g, g', hg, hg', -, hstructs, htokens, heq, hadd⟩ :=
    output_of_excluded hexcluded hfile hrest (by decide +kernel)
  have hnil : g.errors = [] := by
    rw [hg] at herrors
    exact Option.some.inj herrors
  have hread : g.errors = g'.errors := heq.mpr (.inr fun e he => by
    have := (hadd e he (by decide +kernel)).2
    simp [hnil] at this)
  exact ⟨g, g', hg, hg', hstructs, htokens, hread, hnil⟩

def unread : List String :=
  ["#[und(ignore)]struct P\x7b#[und(\"def\")]#[und(\"null\")]a:T\x7d",
    "/// undgen:ignore\nstruct P\x7b#[und(\"def\",derive(D))]a:T\x7d",
    "/// undgen:generated\nstruct P\x7b#[und]a:T\x7d"]

theorem unread_excluded_has_error :
    unread.map (fun source =>
      ((structOf? source).any (Excluded ·), (ofText? source).map (·.errors))) =
        [(true, some [.marking .repeatedTag]), (true, some [.marking (.arguments .nestedLiteral)]),
          (true, some [.marking .noArguments])] ∧
      (Item.ofFile? "").map List.isEmpty = some true ∧ (ofText? "").map (·.errors) = some [] := by
  decide +kernel

end PlainTwin.Exclusion
