import Mathlib.Data.List.Forall2
import PlainTwin.Proofs.JsonTrip
import PlainTwin.Proofs.Success

namespace PlainTwin.ElasticReading

open Codec JsonTrip Success

variable {α : Type} {c : Codec α}

/-- What an element of an array is read as. Of null the type of the elements is not asked. -/
inductive ReadsAs (c : Codec α) : Json → Option α → Prop
  | null : ReadsAs c .null none
  | value {j : Json} {a : α} (hj : j ≠ .null) (h : c.decode .value (.ofJson j) = .ok a) :
      ReadsAs c j (some a)

theorem decode_option_eq_ok_iff {j : Json} {o : Option α} :
    (option c).decode .value (.ofJson j) = .ok o ↔ ReadsAs c j o := by
  by_cases hj : j = .null
  · subst hj
    constructor
    · intro h
      cases h
      exact .null
    · intro h
      cases h with
      | null => rfl
      | value hne _ => exact absurd rfl hne
  · rw [decode_option_ofJson hj]
    constructor
    · intro h
      cases ha : c.decode .value (.ofJson j) with
      | error f =>
        rw [ha] at h
        cases h
      | ok a =>
        rw [ha] at h
        cases h
        exact .value hj ha
    · intro h
      cases h with
      | null => exact absurd rfl hj
      | value _ ha =>
        rw [ha]
        rfl

theorem decodeItems_eq_ok_iff {i : Nat} {js : List Json} {xs : List (Option α)} :
    decodeItems (option c) .value i (Doc.ofItems js) = .ok xs ↔ List.Forall₂ (ReadsAs c) js xs := by
  induction js generalizing i xs with
  | nil =>
    rw [List.forall₂_nil_left_iff]
    constructor
    · intro h
      cases h
      rfl
    · rintro rfl
      rfl
  | cons j js ih =>
    rw [List.forall₂_cons_left_iff]
    simp only [Doc.ofItems, decodeItems, bind_eq_ok_iff, mapError_eq_ok_iff,
      decode_option_eq_ok_iff, ih]
    constructor
    · rintro ⟨o, ho, os, hos, h⟩
      cases h
      exact ⟨o, os, ho, hos, rfl⟩
    · rintro ⟨o, os, ho, hos, rfl⟩
      exact ⟨o, ho, os, hos, rfl⟩

theorem decode_list_eq_ok_iff {js : List Json} {xs : List (Option α)} :
    (list (option c)).decode .value (.ofJson (.array js)) = .ok xs ↔
      List.Forall₂ (ReadsAs c) js xs := by
  rw [← decodeItems_eq_ok_iff (i := 0)]
  change (decodeItems (option c) .value 0 (Doc.ofItems js) >>= fun xs => pure xs) = _ ↔ _
  rw [bind_pure]

theorem exists_reads_iff {js : List Json} : (∃ xs, List.Forall₂ (ReadsAs c) js xs) ↔
    ∀ j ∈ js, j = .null ∨ ∃ a, c.decode .value (.ofJson j) = .ok a := by
  induction js with
  | nil => simp
  | cons j js ih =>
    rw [List.forall_mem_cons, ← ih]
    constructor
    · rintro ⟨_, h⟩
      obtain ⟨o, xs, ho, hxs, -⟩ := List.forall₂_cons_left_iff.mp h
      refine ⟨?_, xs, hxs⟩
      cases ho with
      | null => exact .inl rfl
      | value _ ha => exact .inr ⟨_, ha⟩
    · rintro ⟨hj, xs, hxs⟩
      by_cases hnull : j = .null
      · exact ⟨none :: xs, .cons (hnull ▸ .null) hxs⟩
      · obtain ⟨a, ha⟩ := hj.resolve_left hnull
        exact ⟨some a :: xs, .cons (.value hnull ha) hxs⟩

theorem elasticOfJson_of_reads {js : List Json} {xs : List (Option α)}
    (h : List.Forall₂ (ReadsAs c) js xs) : elasticOfJson c (.array js) = .ok (.ofList xs) := by
  simp only [elasticOfJson, decode_list_eq_ok_iff.mpr h]

theorem single_iff {j : Json} {e : Elastic α} (f : Failure → Failure) :
    (match c.decode .value (.ofJson j) with
      | .ok a => .ok (.single a)
      | .error g => .error (f g)) = (.ok e : Except Failure (Elastic α)) ↔
      ∃ a, c.decode .value (.ofJson j) = .ok a ∧ e = .single a := by
  cases c.decode .value (.ofJson j) with
  | error g => simp
  | ok a => simp [eq_comm]

theorem elasticOfJson_of_not_reads {js : List Json} (h : ¬∃ xs, List.Forall₂ (ReadsAs c) js xs)
    (e : Elastic α) : elasticOfJson c (.array js) = .ok e ↔
      ∃ a, c.decode .value (.ofJson (.array js)) = .ok a ∧ e = .single a := by
  cases hlist : (list (option c)).decode .value (.ofJson (.array js)) with
  | ok xs => exact absurd ⟨xs, decode_list_eq_ok_iff.mp hlist⟩ h
  | error f =>
    simp only [elasticOfJson, hlist]
    exact single_iff fun _ => f.enclosed

theorem elasticOfJson_scalar {j : Json} (hnull : j ≠ .null) (harray : ∀ js, j ≠ .array js)
    (e : Elastic α) : elasticOfJson c j = .ok e ↔
      ∃ a, c.decode .value (.ofJson j) = .ok a ∧ e = .single a := by
  cases j with
  | null => exact absurd rfl hnull
  | array js => exact absurd rfl (harray js)
  | bool | number | string | object => exact single_iff Failure.atRoot

theorem decode_elastic {r : Reading} {d : Doc} {j : Json} (h : any.decode r d = .ok j) :
    (elastic c).decode r d = elasticOfJson c j := by
  simp [elastic, h, bind, Except.bind]

/-- The reading of a document that holds the value `j`. As many elements an array is read wherever
that is possible, even where it could be one element too. -/
theorem decode_of_json (c : Codec α) {r : Reading} {d : Doc} {j : Json}
    (h : any.decode r d = .ok j) :
    (j = .null → (elastic c).decode r d = .ok .null) ∧
    (∀ js, j = .array js → (∀ x ∈ js, x = .null ∨ ∃ a, c.decode .value (.ofJson x) = .ok a) →
      ∃ xs, List.Forall₂ (ReadsAs c) js xs ∧ (elastic c).decode r d = .ok (.ofList xs)) ∧
    (∀ js, j = .array js → ¬(∀ x ∈ js, x = .null ∨ ∃ a, c.decode .value (.ofJson x) = .ok a) →
      ∀ e, (elastic c).decode r d = .ok e ↔
        ∃ a, c.decode .value (.ofJson j) = .ok a ∧ e = .single a) ∧
    (j ≠ .null → (∀ js, j ≠ .array js) → ∀ e, ((elastic c).decode r d = .ok e ↔
        ∃ a, c.decode .value (.ofJson j) = .ok a ∧ e = .single a) ∧
      ((elastic c).decode r d = .ok e → ∀ s d', any.decode s d' = .ok (.array [j]) →
        (elastic c).decode s d' = .ok e)) := by
  rw [decode_elastic h]
  refine ⟨?_, ?_, ?_, ?_⟩
  · rintro rfl
    rfl
  · rintro js rfl hall
    obtain ⟨xs, hxs⟩ := exists_reads_iff.mpr hall
    exact ⟨xs, hxs, elasticOfJson_of_reads hxs⟩
  · rintro js rfl hnot e
    exact elasticOfJson_of_not_reads (fun hxs => hnot (exists_reads_iff.mp hxs)) e
  · intro hnull harray e
    refine ⟨elasticOfJson_scalar hnull harray e, fun he s d' hd' => ?_⟩
    obtain ⟨a, ha, rfl⟩ := (elasticOfJson_scalar hnull harray e).mp he
    rw [decode_elastic hd']
    exact elasticOfJson_of_reads (.cons (.value hnull ha) .nil)

def flags : Doc := .array [.bool true, .bool false] none

theorem decode_of_flags :
    (elastic (list bool)).decode .start flags = .ok (.single [true, false]) ∧
      ∃ xs, xs.length = 2 ∧ (elastic any).decode .start flags = .ok (.ofList xs) := by
  have hflags : any.decode .start flags = .ok (.array [.bool true, .bool false]) := rfl
  constructor
  · apply ((decode_of_json (list bool) hflags).2.2.1 _ rfl ?_ _).mpr
    · exact ⟨_, rfl, rfl⟩
    · intro hall
      obtain hnull | ⟨a, ha⟩ := hall (.bool true) List.mem_cons_self
      · cases hnull
      · cases ha
  · obtain ⟨xs, hxs, hdecode⟩ := (decode_of_json any hflags).2.1 _ rfl (by
      intro x hx
      rcases List.mem_pair.mp hx with rfl | rfl
      · exact .inr ⟨_, rfl⟩
      · exact .inr ⟨_, rfl⟩)
    exact ⟨xs, hxs.length_eq.symm, hdecode⟩

end PlainTwin.ElasticReading
