import Mathlib.Order.Bounds.Basic
import PlainTwin.Proofs.ElasticReading
import PlainTwin.Proofs.Refusals

namespace PlainTwin.ElasticRefusal

open Codec ContainerFailures Descent ElasticReading JsonTrip Refusals Success

variable {α : Type} {c : Codec α}

/-- A value can be at fault only for what it is. -/
def FailsWithData (c : Codec α) : Prop :=
  ∀ j f, c.decode .value (.ofJson j) = .error f → ∃ e, f.cause = .data e

def Rejects (c : Codec α) (x : Json) (f : Failure) : Prop :=
  x ≠ .null ∧ c.decode .value (.ofJson x) = .error f

structure FirstRejected (c : Codec α) (js : List Json) (i : Nat) (f : Failure) : Prop where
  least : IsLeast {k | ∃ x g, js[k]? = some x ∧ Rejects c x g} i
  element : ∃ x, js[i]? = some x ∧ Rejects c x f

/-- To read a document an elastic value of the elements `t` is read from a part of it, the document
`x`, to which the path leads. -/
inductive Reaches (t : Schema) (q : Reading) (x : Doc) : Schema → Reading → Doc → Path → Prop
  | here : Reaches t q x (.formed .elastic t) q x []
  | part {s s' : Schema} {r r' : Reading} {d d' : Doc} {p p' : Path}
      (h : Enters s r d p s' r' d') (hrest : Reaches t q x s' r' d' p') :
      Reaches t q x s r d (p ++ p')

theorem option_eq_error_iff {x : Json} {f : Failure} :
    (option c).decode .value (.ofJson x) = .error f ↔ Rejects c x f := by
  rw [decode_option_eq_error_iff, Rejects, and_congr_left_iff]
  intro _
  cases x <;> simp [Doc.ofJson]

theorem FirstRejected.head {x : Json} {f : Failure} (h : Rejects c x f) (js : List Json) :
    FirstRejected c (x :: js) 0 f := by
  constructor
  · exact ⟨⟨x, f, rfl, h⟩, fun k _ => Nat.zero_le k⟩
  · exact ⟨x, rfl, h⟩

theorem FirstRejected.tail {js : List Json} {i : Nat} {f : Failure} (h : FirstRejected c js i f)
    {x : Json} (hx : ∀ g, ¬ Rejects c x g) : FirstRejected c (x :: js) (i + 1) f := by
  obtain ⟨⟨hmem, hleast⟩, helement⟩ := h
  refine ⟨⟨hmem, ?_⟩, helement⟩
  rintro k ⟨y, g, hy, hg⟩
  cases k with
  | zero =>
      obtain rfl := Option.some.inj hy
      exact absurd hg (hx g)
  | succ k => exact Nat.succ_le_succ (hleast ⟨y, g, hy, hg⟩)

theorem firstRejected_of_decodeItems {js : List Json} {i : Nat} {g : Failure}
    (h : decodeItems (option c) .value i (Doc.ofItems js) = .error g) :
    ∃ k f, FirstRejected c js k f ∧ g = f.under (.index (i + k)) := by
  induction js generalizing i with
  | nil => cases h
  | cons x js ih =>
      rw [Doc.ofItems] at h
      cases hx : (option c).decode .value (.ofJson x) with
      | error f =>
          rw [decodeItems_cons_of_error hx] at h
          exact ⟨0, f, .head (option_eq_error_iff.mp hx) js, (Except.error.inj h).symm⟩
      | ok o =>
          rw [decodeItems_cons_of_ok hx, map_eq_error_iff] at h
          obtain ⟨k, f, hfirst, rfl⟩ := ih h
          refine ⟨k + 1, f, hfirst.tail fun g hg => ?_, ?_⟩
          · cases hx.symm.trans (option_eq_error_iff.mpr hg)
          · rw [Nat.add_assoc, Nat.add_comm 1]

theorem firstRejected_of_list {js : List Json} {g : Failure}
    (h : (list (option c)).decode .value (.ofJson (.array js)) = .error g) :
    ∃ i f, FirstRejected c js i f ∧ g = f.under (.index i) := by
  obtain h | ⟨r, hr, h | ⟨_, _, h⟩⟩ := decode_list_eq_error_iff.mp h
  · cases h
  · cases hr
    obtain ⟨i, f, hfirst, rfl⟩ := firstRejected_of_decodeItems h
    exact ⟨i, f, hfirst, by rw [Nat.zero_add]⟩
  · cases h

theorem FirstRejected.exists_data {js : List Json} {i : Nat} {f : Failure}
    (h : FirstRejected c js i f) (hc : FailsWithData c) : ∃ e, f.cause = .data e := by
  obtain ⟨x, -, -, hf⟩ := h.element
  exact hc x f hf

theorem elasticOfJson_array {js : List Json} {g g' : Failure}
    (hmany : (list (option c)).decode .value (.ofJson (.array js)) = .error g)
    (hone : c.decode .value (.ofJson (.array js)) = .error g') :
    ∃ i f, FirstRejected c js i f ∧
      elasticOfJson c (.array js) = .error (f.under (.index i)).enclosed := by
  obtain ⟨i, f, hfirst, rfl⟩ := firstRejected_of_list hmany
  refine ⟨i, f, hfirst, ?_⟩
  simp only [elasticOfJson, hmany, hone]

theorem elasticOfJson_cases {j : Json} {f : Failure} (h : elasticOfJson c j = .error f) :
    (∃ js i g, FirstRejected c js i g ∧ f = (g.under (.index i)).enclosed) ∨
      ∃ g, c.decode .value (.ofJson j) = .error g ∧ f = g.atRoot := by
  unfold elasticOfJson at h
  split at h
  · cases h
  · next js =>
      split at h
      · cases h
      · next hmany =>
          split at h
          · cases h
          · obtain ⟨i, g, hfirst, rfl⟩ := firstRejected_of_list hmany
            exact .inl ⟨js, i, g, hfirst, (Except.error.inj h).symm⟩
  · split at h
    · cases h
    · next g hone => exact .inr ⟨g, hone, (Except.error.inj h).symm⟩

theorem path_enclosed (f : Failure) : f.enclosed.path = [] := by
  unfold Failure.enclosed
  cases f.cause <;> rfl

theorem enclosed_of_data {f : Failure} {e : DataError} (h : f.cause = .data e) :
    f.enclosed = .data (.within f.path e) := by
  unfold Failure.enclosed
  rw [h]

theorem path_of_elastic {r : Reading} {d : Doc} {f : Failure}
    (h : (elastic c).decode r d = .error f) : f.path = [] := by
  obtain h | ⟨j, -, h⟩ := bind_eq_error_iff.mp h
  · obtain ⟨g, rfl⟩ := fault_of_toJson d h
    rfl
  · obtain ⟨-, -, g, -, rfl⟩ | ⟨g, -, rfl⟩ := elasticOfJson_cases h
    · exact path_enclosed _
    · rfl

theorem failsWithData_elastic (hc : FailsWithData c) : FailsWithData (elastic c) := by
  intro j f h
  obtain h | ⟨j, -, h⟩ := bind_eq_error_iff.mp h
  · obtain ⟨j', hj⟩ := exists_toJson j
    cases h.symm.trans hj
  · obtain ⟨js, i, g, hfirst, rfl⟩ | ⟨g, hg, rfl⟩ := elasticOfJson_cases h
    · obtain ⟨e, he⟩ := hfirst.exists_data hc
      have henclosed : (g.under (.index i)).enclosed = .data (.within (.index i :: g.path) e) :=
        enclosed_of_data he
      rw [henclosed]
      exact ⟨_, rfl⟩
    · exact hc j g hg

/-- Every type fails with data, since what it enters in a value is a value too. -/
theorem failsWithData_codec (s : Schema) : FailsWithData s.codec := by
  induction hn : sizeOf s using Nat.strong_induction_on generalizing s with
  | _ n ih =>
      subst hn
      intro j f h
      by_cases hs : ∃ t, s = .formed .elastic t
      · obtain ⟨t, rfl⟩ := hs
        have hlt : sizeOf t < sizeOf (Schema.formed .elastic t) := by simp
        exact failsWithData_elastic (ih _ hlt t rfl) j f h
      · rw [not_exists] at hs
        cases refuses_of_decode hs h with
        | own => exact ⟨_, rfl⟩
        | broken g hclean => exact absurd ⟨rfl, j, rfl⟩ hclean
        | @part _ s' _ _ f hpart hf =>
            obtain ⟨rfl, j', rfl⟩ := Clean.part ⟨rfl, j, rfl⟩ hpart
            have hcause : ∃ e, f.cause = .data e := ih _ hpart.sizeOf_lt s' rfl j' f hf
            exact hcause

theorem decode_of_reaches {t s : Schema} {q r : Reading} {x d : Doc} {p : Path}
    (h : Reaches t q x s r d p) {f : Failure} (hf : (elastic t.codec).decode q x = .error f) :
    s.codec.decode r d = .error ⟨p, f.cause⟩ := by
  induction h with
  | here =>
      refine hf.trans (congrArg Except.error ?_)
      rw [← path_of_elastic hf]
  | part hpart _ ih => exact decode_of_enters hpart ih

theorem exists_reaches {s : Schema} {r : Reading} {d : Doc} {p w : Path} {e : DataError}
    (h : s.codec.decode r d = .error ⟨p, .data (.within w e)⟩) :
    ∃ t q x, Reaches t q x s r d p ∧
      (elastic t.codec).decode q x = .error (.data (.within w e)) := by
  induction hn : sizeOf s using Nat.strong_induction_on generalizing s r d p with
  | _ n ih =>
      subst hn
      by_cases hs : ∃ t, s = .formed .elastic t
      · obtain ⟨t, rfl⟩ := hs
        obtain rfl := path_of_elastic h
        exact ⟨t, r, d, .here, h⟩
      · rw [not_exists] at hs
        generalize hg : (⟨p, .data (.within w e)⟩ : Failure) = g at h
        cases refuses_of_decode hs h with
        | own hown =>
            obtain ⟨-, hcause⟩ := Failure.mk.inj hg
            exact absurd (Cause.data.inj hcause).symm (hown w e)
        | broken =>
            obtain ⟨-, hcause⟩ := Failure.mk.inj hg
            cases hcause
        | @part _ _ _ _ f hpart hf =>
            obtain ⟨p', cause⟩ := f
            obtain ⟨rfl, rfl⟩ := Failure.mk.inj hg
            obtain ⟨t, q, x, hreaches, hx⟩ := ih _ hpart.sizeOf_lt hf rfl
            exact ⟨t, q, x, .part hpart hreaches, hx⟩

/-- An array that is neither many elements nor one is refused for its first element that is neither
null nor of their type. The message leads into that element and ends with what is wrong there. In a
larger document the path is that of the elastic value, and every message that holds a place comes
about in this way. -/
theorem refusal_of_array :
    (∀ (α : Type) (c : Codec α), FailsWithData c → ∀ r d js, any.decode r d = .ok (.array js) →
      (∃ g, (list (option c)).decode .value (.ofJson (.array js)) = .error g) →
      (∃ g, c.decode .value (.ofJson (.array js)) = .error g) →
      ∃ i f e, FirstRejected c js i f ∧ f.cause = .data e ∧
        (elastic c).decode r d = .error (.data (.within (.index i :: f.path) e)) ∧
        (DataError.within (.index i :: f.path) e).message =
          "[" ++ i.repr ++ "]" ++ Segment.renderAll false f.path ++ ": " ++ e.message) ∧
    (∀ s : Schema, FailsWithData s.codec) ∧
    (∀ t q x s r d p f, Reaches t q x s r d p → (elastic t.codec).decode q x = .error f →
      s.codec.decode r d = .error ⟨p, f.cause⟩) ∧
    ∀ s r d p w e, s.codec.decode r d = .error ⟨p, .data (.within w e)⟩ →
      ∃ t q x, Reaches t q x s r d p ∧
        (elastic t.codec).decode q x = .error (.data (.within w e)) := by
  refine ⟨?_, failsWithData_codec, ?_, ?_⟩
  · rintro α c hc r d js hd ⟨g, hmany⟩ ⟨g', hone⟩
    obtain ⟨i, f, hfirst, hrefused⟩ := elasticOfJson_array hmany hone
    obtain ⟨e, he⟩ := hfirst.exists_data hc
    have henclosed : (f.under (.index i)).enclosed = .data (.within (.index i :: f.path) e) :=
      enclosed_of_data he
    refine ⟨i, f, e, hfirst, he, ?_, rfl⟩
    rw [decode_elastic hd, hrefused, henclosed]
  · intro t q x s r d p f hreaches hf
    exact decode_of_reaches hreaches hf
  · intro s r d p w e h
    exact exists_reaches h

def inner : Schema :=
  .record "Inner" (.cons { name := "values", key := "values", hasDefault := true }
    (.formed .elastic (.int .u8)) .nil)

def outer : Schema :=
  .record "Outer" (.cons { name := "inner", key := "inner", hasDefault := true }
    (.formed (.tri .elem) inner) .nil)

def values : List Json := [.number (.int 1), .string "x"]

def document : Json := .object [("inner", .object [("values", .array values)])]

theorem enters_inner : Enters outer .start (.ofJson document) [.key "inner"]
    (.formed (.tri .elem) inner) (.text 126) (.ofJson (.object [("values", .array values)])) :=
  @Enters.member _ _ _ _ _ _ [] _ _ [] none rfl rfl (.here .nil ())

theorem enters_values : Enters inner (.text 126) (.ofJson (.object [("values", .array values)]))
    [.key "values"] (.formed .elastic (.int .u8)) (.text 125) (.ofJson (.array values)) :=
  @Enters.member _ _ _ _ _ _ [] _ _ [] none rfl rfl (.here .nil ())

theorem reaches_values : Reaches (.int .u8) (.text 125) (.ofJson (.array values)) outer .start
    (.ofJson document) [.key "inner", .key "values"] := by
  have hne : Doc.ofJson (.object [("values", .array values)]) ≠ .null := Doc.noConfusion
  exact .part enters_inner (.part (.tri .elem inner _ hne)
    (.part (.elem inner _ _) (.part enters_values .here)))

theorem firstRejected_values :
    FirstRejected (int .u8) values 1 ⟨[], .data (.invalidType (.string "x") "u8")⟩ := by
  have hone (g : Failure) : ¬ Rejects (int .u8) (.number (.int 1)) g := by
    rintro ⟨-, h⟩
    cases h
  have hx : Rejects (int .u8) (.string "x") ⟨[], .data (.invalidType (.string "x") "u8")⟩ :=
    ⟨Json.noConfusion, rfl⟩
  exact (FirstRejected.head hx []).tail hone

theorem refusal_of_values :
    outer.codec.decode .start (.ofJson document) = .error ⟨[.key "inner", .key "values"],
      .data (.within [.index 1] (.invalidType (.string "x") "u8"))⟩ := by
  obtain ⟨harray, hdata, hpath, -⟩ := refusal_of_array
  have hvalues : any.decode (.text 125) (.ofJson (.array values)) = .ok (.array values) := rfl
  obtain ⟨i, f, e, hfirst, he, hrefused, -⟩ :=
    harray _ (int .u8) (hdata (.int .u8)) _ _ _ hvalues ⟨_, rfl⟩ ⟨_, rfl⟩
  obtain rfl := hfirst.least.unique firstRejected_values.least
  obtain ⟨y, hy, -, hf⟩ := hfirst.element
  cases hy
  cases hf
  cases he
  exact hpath _ _ _ _ _ _ _ _ reaches_values hrefused

example : (Failure.mk [.key "inner", .key "values"]
    (.data (.within [.index 1] (.invalidType (.string "x") "u8")))).message =
      "at JSON path inner.values → [1]: invalid type: string \"x\", expected u8" := by decide

end PlainTwin.ElasticRefusal
