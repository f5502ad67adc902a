import PlainTwin.Json.Codec

namespace PlainTwin.JsonTrip

open Codec

variable {α : Type} {c : Codec α} {r s : Reading}

def GivesBack (c : Codec α) (r : Reading) : Prop :=
  ∀ a, c.decode r (.ofJson (c.encode a)) = .ok a

theorem decodeItems_map_encode (h : GivesBack c r) (xs : List α) (i : Nat) :
    decodeItems c r i (Doc.ofItems (xs.map c.encode)) = .ok xs := by
  induction xs generalizing i with
  | nil => rfl
  | cons a xs ih =>
      have hhead : (c.decode r (.ofJson (c.encode a))).mapError (Failure.under (.index i)) = .ok a := by
        rw [h a]
        rfl
      simp only [List.map_cons, Doc.ofItems, decodeItems, hhead, ih]
      rfl

theorem givesBack_list (hr : r.enter = .ok s) (h : GivesBack c s) : GivesBack (list c) r := by
  intro xs
  have hitems := decodeItems_map_encode h xs 0
  simp only [list, Doc.ofJson, hr]
  change (decodeItems c s 0 (Doc.ofItems (xs.map c.encode)) >>= _) = _
  rw [hitems]
  rfl

theorem decode_option_ofJson {j : Json} (hj : j ≠ .null) :
    (option c).decode r (.ofJson j) = some <$> c.decode r (.ofJson j) := by
  cases j with
  | null => exact absurd rfl hj
  | bool | number | string | array | object => rfl

theorem givesBack_option (hnull : ∀ a, c.encode a ≠ .null) (h : GivesBack c r) :
    GivesBack (option c) r := by
  intro o
  cases o with
  | none => rfl
  | some a =>
      have hsome := decode_option_ofJson (c := c) (r := r) (hnull a)
      exact hsome.trans (congrArg (some <$> ·) (h a))

theorem decode_tri_encode (hnull : ∀ a, c.encode a ≠ .null) (h : GivesBack c r) (t : Tri α) :
    (tri c).decode r (.ofJson ((tri c).encode t)) = .ok (.orNull t.toOption) :=
  congrArg (Tri.orNull <$> ·) (givesBack_option hnull h t.toOption)

theorem itemsToJson_ofItems {js : List Json} (h : ∀ j ∈ js, any.decode r (.ofJson j) = .ok j) :
    Doc.itemsToJson r (Doc.ofItems js) = .ok js := by
  induction js with
  | nil => rfl
  | cons j js ih =>
      rw [List.forall_mem_cons] at h
      have hhead : (Doc.ofJson j).toJson r = .ok j := h.1
      simp only [Doc.ofItems, Doc.itemsToJson, hhead, ih h.2]
      rfl

theorem decode_any_array (hr : r.enter = .ok s) {js : List Json}
    (h : ∀ j ∈ js, any.decode s (.ofJson j) = .ok j) :
    any.decode r (.ofJson (.array js)) = .ok (.array js) := by
  simp only [any, Doc.ofJson, Doc.toJson, hr]
  change (Doc.itemsToJson s (Doc.ofItems js) >>= _) = _
  rw [itemsToJson_ofItems h]
  rfl

theorem encode_ofList (xs : List (Option α)) :
    (elastic c).encode (.ofList xs) = .array (xs.map (option c).encode) := rfl

/-- The reading as many elements comes first, and what was written fits it. -/
theorem elasticOfJson_encode (hnull : ∀ a, c.encode a ≠ .null) (h : GivesBack c .value)
    (xs : List (Option α)) :
    elasticOfJson c ((elastic c).encode (.ofList xs)) = .ok (.ofList xs) := by
  have hlist : (list (option c)).decode .value (.ofJson (.array (xs.map (option c).encode))) =
      .ok xs := givesBack_list (r := .value) rfl (givesBack_option hnull h) xs
  rw [encode_ofList]
  simp only [elasticOfJson, hlist]

theorem decode_elastic_encode (hr : r.enter = .ok s) (hnull : ∀ a, c.encode a ≠ .null)
    (hany : ∀ a, any.decode s (.ofJson (c.encode a)) = .ok (c.encode a))
    (h : GivesBack c .value) (xs : List (Option α)) :
    (elastic c).decode r (.ofJson ((elastic c).encode (.ofList xs))) = .ok (.ofList xs) := by
  have hitems : ∀ j ∈ xs.map (option c).encode, any.decode s (.ofJson j) = .ok j := by
    intro j hj
    obtain ⟨o, -, rfl⟩ := List.mem_map.mp hj
    cases o with
    | none => rfl
    | some a => exact hany a
  have hwhole : any.decode r (.ofJson ((elastic c).encode (.ofList xs))) =
      .ok ((elastic c).encode (.ofList xs)) := decode_any_array hr hitems
  calc (elastic c).decode r (.ofJson ((elastic c).encode (.ofList xs)))
      = any.decode r (.ofJson ((elastic c).encode (.ofList xs))) >>= elasticOfJson c := rfl
    _ = elasticOfJson c ((elastic c).encode (.ofList xs)) := by rw [hwhole]; rfl
    _ = .ok (.ofList xs) := elasticOfJson_encode hnull h xs

/-- What a container writes it reads as it was, but for the undefined states, which come back as null.
The elements are those of any type that is never written as null and is read as it was, by itself and
as a value read before; a sequence of sequences is no exception. So whatever is read as an elastic
value is read alike once it was written again. -/
theorem decode_encode (c : Codec α) (r s : Reading) (hr : r.enter = .ok s)
    (hnull : ∀ a, c.encode a ≠ .null) (hback : GivesBack c r) (hvalue : GivesBack c .value)
    (hany : ∀ a, any.decode s (.ofJson (c.encode a)) = .ok (c.encode a)) :
    (∀ o, (option c).decode r (.ofJson ((option c).encode o)) = .ok o) ∧
    (∀ t, t ≠ .undefined → (tri c).decode r (.ofJson ((tri c).encode t)) = .ok t) ∧
    (tri c).decode r (.ofJson ((tri c).encode .undefined)) = .ok .null ∧
    (∀ xs, (elastic c).decode r (.ofJson ((elastic c).encode (.ofList xs))) = .ok (.ofList xs)) ∧
    (elastic c).decode r (.ofJson ((elastic c).encode .undefined)) = .ok .null ∧
    ∀ q d e, (elastic c).decode q d = .ok e →
      (elastic c).decode r (.ofJson ((elastic c).encode e)) = .ok e := by
  refine ⟨givesBack_option hnull hback, fun t ht => ?_, rfl,
    decode_elastic_encode hr hnull hany hvalue, rfl, fun q d e he => ?_⟩
  · rw [decode_tri_encode hnull hback]
    cases t with
    | undefined => exact absurd rfl ht
    | null | defined => rfl
  · obtain ⟨xs, rfl⟩ := exists_ofList_of_decode he
    exact decode_elastic_encode hr hnull hany hvalue xs

theorem decode_encode_lists :
    (elastic (list bool)).decode .start (.ofJson ((elastic (list bool)).encode
      (.ofList [some [true, false], none, some []]))) =
        .ok (.ofList [some [true, false], none, some []]) := by
  have hbool (r : Reading) : GivesBack bool r := fun _ => rfl
  have hany (xs : List Bool) : any.decode (.text 126) (.ofJson ((list bool).encode xs)) =
      .ok ((list bool).encode xs) := by
    refine decode_any_array (s := .text 125) rfl (fun j hj => ?_)
    obtain ⟨b, -, rfl⟩ := List.mem_map.mp hj
    rfl
  exact (decode_encode (list bool) .start (.text 126) rfl (fun _ => Json.noConfusion)
    (givesBack_list (s := .text 126) rfl (hbool _)) (givesBack_list (s := .value) rfl (hbool _))
    hany).2.2.2.1 _

end PlainTwin.JsonTrip
