import PlainTwin.Proofs.Descent

namespace PlainTwin.Refusals

open Codec ContainerFailures Descent Success

variable {r : Reading} {d : Doc}

/-- What is read is a value that was read before, so that its text can no longer be at fault. -/
def Clean (r : Reading) (d : Doc) : Prop := r = .value ∧ ∃ j, d = .ofJson j

theorem mem_ofItems_iff {js : List Json} {d : Doc} :
    d ∈ Doc.ofItems js ↔ ∃ j ∈ js, d = .ofJson j := by
  induction js with
  | nil => simp [Doc.ofItems]
  | cons j js ih => rw [Doc.ofItems, List.mem_cons, ih, List.exists_mem_cons_iff]

theorem mem_ofMembers_iff {ms : List (String × Json)} {m : Except Fault String × Doc} :
    m ∈ Doc.ofMembers ms ↔ ∃ n ∈ ms, m = (.ok n.1, .ofJson n.2) := by
  induction ms with
  | nil => simp [Doc.ofMembers]
  | cons n ms ih => rw [Doc.ofMembers, List.mem_cons, ih, List.exists_mem_cons_iff]

theorem fault_of_enter {f : Failure} (h : r.enter = .error f) : f = .fault .syntactic := by
  match r, h with
  | .text 0, h => exact (Except.error.inj h).symm

theorem fault_of_ending {tail : Option Fault} {f : Failure} (h : Doc.ending tail = .error f) :
    ∃ g, tail = some g ∧ f = .fault g := by
  cases tail with
  | none => cases h
  | some g => exact ⟨g, rfl, (Except.error.inj h).symm⟩

theorem fault_of_contents {α β : Type} {read : Reading → Except Failure α} {whole : α → β}
    (hread : ∀ r f, read r = .error f → ∃ g, f = .fault g) {tail : Option Fault} {f : Failure}
    (h : (do
      let a ← read (← r.enter)
      Doc.ending tail
      return whole a) = .error f) : ∃ g, f = .fault g := by
  obtain h | ⟨s, _, h⟩ := bind_eq_error_iff.mp h
  · exact ⟨_, fault_of_enter h⟩
  · obtain h | ⟨a, _, h⟩ := bind_eq_error_iff.mp h
    · exact hread s f h
    · obtain h | ⟨_, _, h⟩ := bind_eq_error_iff.mp h
      · obtain ⟨g, -, hg⟩ := fault_of_ending h
        exact ⟨g, hg⟩
      · cases h

theorem Clean.enter (h : Clean r d) : r.enter = .ok .value := by
  rw [h.1]
  rfl

theorem Clean.array {items : List Doc} {tail : Option Fault} (h : Clean r (.array items tail)) :
    tail = none ∧ ∀ d ∈ items, Clean .value d := by
  obtain ⟨-, j, hj⟩ := h
  cases j with
  | array js =>
      obtain ⟨rfl, rfl⟩ := Doc.array.inj hj
      refine ⟨rfl, fun d hd => ?_⟩
      obtain ⟨j, -, rfl⟩ := mem_ofItems_iff.mp hd
      exact ⟨rfl, j, rfl⟩
  | null | bool | number | string | object => cases hj

theorem Clean.object {members : List (Except Fault String × Doc)} {tail : Option Fault}
    (h : Clean r (.object members tail)) :
    tail = none ∧ ∀ m ∈ members, (∃ k, m.1 = .ok k) ∧ Clean .value m.2 := by
  obtain ⟨-, j, hj⟩ := h
  cases j with
  | object ms =>
      obtain ⟨rfl, rfl⟩ := Doc.object.inj hj
      refine ⟨rfl, fun m hm => ?_⟩
      obtain ⟨⟨k, j⟩, -, rfl⟩ := mem_ofMembers_iff.mp hm
      exact ⟨⟨k, rfl⟩, rfl, j, rfl⟩
  | null | bool | number | string | array => cases hj

mutual

theorem skip_ofJson : ∀ j, (Doc.ofJson j).skip = .ok ()
  | .null | .bool _ | .number _ | .string _ => rfl
  | .array js => by
      rw [Doc.ofJson, Doc.skip, skipItems_ofItems js]
      rfl
  | .object ms => by
      rw [Doc.ofJson, Doc.skip, skipMembers_ofMembers ms]
      rfl

theorem skipItems_ofItems : ∀ js, Doc.skipItems (Doc.ofItems js) = .ok ()
  | [] => rfl
  | j :: js => by
      rw [Doc.ofItems, Doc.skipItems, skip_ofJson j]
      exact skipItems_ofItems js

theorem skipMembers_ofMembers : ∀ ms, Doc.skipMembers (Doc.ofMembers ms) = .ok ()
  | [] => rfl
  | (_, j) :: ms => by
      rw [Doc.ofMembers, Doc.skipMembers, skip_ofJson j]
      exact skipMembers_ofMembers ms

end

mutual

theorem exists_toJson : ∀ j, ∃ j', (Doc.ofJson j).toJson .value = .ok j'
  | .null => ⟨.null, rfl⟩
  | .bool b => ⟨.bool b, rfl⟩
  | .number n => ⟨.number n, rfl⟩
  | .string s => ⟨.string s, rfl⟩
  | .array js => by
      obtain ⟨js', hjs⟩ := exists_itemsToJson js
      refine ⟨.array js', ?_⟩
      simp only [Doc.ofJson, Doc.toJson, Reading.enter]
      change (Doc.itemsToJson .value (Doc.ofItems js) >>= _) = _
      rw [hjs]
      rfl
  | .object ms => by
      obtain ⟨ms', hms⟩ := exists_membersToJson ms []
      refine ⟨.object ms', ?_⟩
      simp only [Doc.ofJson, Doc.toJson, Reading.enter]
      change (Doc.membersToJson .value [] (Doc.ofMembers ms) >>= _) = _
      rw [hms]
      rfl

theorem exists_itemsToJson : ∀ js, ∃ js', Doc.itemsToJson .value (Doc.ofItems js) = .ok js'
  | [] => ⟨[], rfl⟩
  | j :: js => by
      obtain ⟨j', hj⟩ := exists_toJson j
      obtain ⟨js', hjs⟩ := exists_itemsToJson js
      refine ⟨j' :: js', ?_⟩
      rw [Doc.ofItems, Doc.itemsToJson, hj, hjs]
      rfl

theorem exists_membersToJson : ∀ ms seen,
    ∃ ms', Doc.membersToJson .value seen (Doc.ofMembers ms) = .ok ms'
  | [], seen => ⟨seen, rfl⟩
  | (k, j) :: ms, seen => by
      obtain ⟨j', hj⟩ := exists_toJson j
      obtain ⟨ms', hms⟩ := exists_membersToJson ms (Json.insert k j' seen)
      refine ⟨ms', ?_⟩
      rw [Doc.ofMembers, Doc.membersToJson, hj]
      exact hms

end

mutual

theorem fault_of_toJson : ∀ (d : Doc) {r : Reading} {f : Failure}, d.toJson r = .error f →
    ∃ g, f = .fault g
  | .null, _, _, h | .bool _, _, _, h | .number (some _), _, _, h | .string (some _), _, _, h => by
      cases h
  | .number none, _, _, h | .string none, _, _, h => ⟨_, (Except.error.inj h).symm⟩
  | .broken read _, _, _, h => ⟨read, (Except.error.inj h).symm⟩
  | .array items _, _, _, h => fault_of_contents (fun _ _ hx => fault_of_itemsToJson items hx) h
  | .object members _, _, _, h =>
      fault_of_contents (fun _ _ hx => fault_of_membersToJson members hx) h

theorem fault_of_itemsToJson : ∀ (ds : List Doc) {r : Reading} {f : Failure},
    Doc.itemsToJson r ds = .error f → ∃ g, f = .fault g
  | [], _, _, h => by cases h
  | d :: ds, r, f, h => by
      rw [Doc.itemsToJson] at h
      obtain h | ⟨_, _, h⟩ := bind_eq_error_iff.mp h
      · exact fault_of_toJson d h
      · obtain h | ⟨_, _, h⟩ := bind_eq_error_iff.mp h
        · exact fault_of_itemsToJson ds h
        · cases h

theorem fault_of_membersToJson : ∀ (ms : List (Except Fault String × Doc)) {r : Reading}
    {seen : List (String × Json)} {f : Failure}, Doc.membersToJson r seen ms = .error f →
      ∃ g, f = .fault g
  | [], _, _, _, h => by cases h
  | (k, d) :: ms, r, seen, f, h => by
      rw [Doc.membersToJson] at h
      obtain h | ⟨_, _, h⟩ := bind_eq_error_iff.mp h
      · obtain ⟨g, -, hg⟩ := mapError_eq_error_iff.mp h
        exact ⟨g, hg⟩
      · obtain h | ⟨_, _, h⟩ := bind_eq_error_iff.mp h
        · exact fault_of_toJson d h
        · exact fault_of_membersToJson ms h

end

/-- The ways in which a document is refused: for itself, for its text, or for a part of it. -/
inductive Refuses (s : Schema) (r : Reading) (d : Doc) : Failure → Prop
  | own {e : DataError} (h : ∀ w e', e ≠ .within w e') : Refuses s r d (.data e)
  | broken (g : Fault) (h : ¬ Clean r d) : Refuses s r d (.fault g)
  | part {p : Path} {s' : Schema} {r' : Reading} {d' : Doc} {f : Failure}
      (h : Enters s r d p s' r' d') (hf : s'.codec.decode r' d' = .error f) :
      Refuses s r d (placed p f)

variable {s : Schema}

theorem refuses_of_mismatch {α : Type} {expected : String} {f : Failure}
    (h : (.error (d.mismatch expected) : Except Failure α) = .error f) : Refuses s r d f := by
  rw [← Except.error.inj h]
  match d with
  | .null | .bool _ | .number (some _) | .string (some _) | .array _ _ | .object _ _ =>
      exact .own nofun
  | .number none | .string none | .broken _ _ =>
      refine .broken _ ?_
      rintro ⟨-, j, hj⟩
      cases j <;> cases hj

theorem refuses_of_enter {f : Failure} (h : r.enter = .error f) : Refuses s r d f := by
  rw [fault_of_enter h]
  refine .broken _ fun hclean => ?_
  rw [hclean.enter] at h
  cases h

theorem refuses_of_ending_array {items : List Doc} {tail : Option Fault} {f : Failure}
    (h : Doc.ending tail = .error f) : Refuses s r (.array items tail) f := by
  obtain ⟨g, rfl, rfl⟩ := fault_of_ending h
  exact .broken g fun hclean => nomatch hclean.array.1

theorem refuses_of_ending_object {members : List (Except Fault String × Doc)} {tail : Option Fault}
    {f : Failure} (h : Doc.ending tail = .error f) : Refuses s r (.object members tail) f := by
  obtain ⟨g, rfl, rfl⟩ := fault_of_ending h
  exact .broken g fun hclean => nomatch hclean.object.1

theorem refuses_of_key {members : List (Except Fault String × Doc)} {tail : Option Fault} {g : Fault}
    (h : (.error g, d) ∈ members) : Refuses s r (.object members tail) (.fault g) := by
  refine .broken g fun hclean => ?_
  obtain ⟨⟨k, hk⟩, -⟩ := hclean.object.2 _ h
  cases hk

theorem refuses_of_noMore {items : List Doc} {n : Nat} {tail : Option Fault} {f : Failure}
    (h : noMore r items.length n tail = .error f) : Refuses s r (.array items tail) f := by
  unfold noMore at h
  split at h
  · exact refuses_of_ending_array h
  · split at h
    · rw [← Except.error.inj h]
      exact .broken _ fun hclean => nomatch hclean.1
    · rw [← Except.error.inj h]
      exact .own nofun

theorem exists_missing_of_finish {g : Failure} : ∀ {fs : Fields} {slots : fs.Slots},
    fs.finish slots = .error g → ∃ k, g = .data (.missingField k)
  | .nil, _, h => by cases h
  | .cons rule s fs, (slot, slots), h => by
      rw [Fields.finish] at h
      split at h
      · obtain h | ⟨_, _, h⟩ := bind_eq_error_iff.mp h
        · exact exists_missing_of_finish h
        · cases h
      · exact ⟨rule.key, (Except.error.inj h).symm⟩

theorem refuses_list {form : Form} {f : Failure}
    (h : (list (form.codec s.codec)).decode r d = .error f) :
    Refuses (.formed (.list form) s) r d f := by
  match d with
  | .array items tail =>
      obtain h | ⟨r', hr, h | ⟨_, _, h⟩⟩ := decode_list_eq_error_iff.mp h
      · exact refuses_of_enter h
      · obtain ⟨before, d, after, xs, f, rfl, hbefore, hf, rfl⟩ := decodeItems_eq_error_iff.mp h
        rw [Nat.zero_add]
        exact .part (.item d after tail hr hbefore) hf
      · exact refuses_of_ending_array h
  | .null | .bool _ | .number _ | .string _ | .object _ _ | .broken _ _ =>
      exact refuses_of_mismatch h

theorem refuses_array {form : Form} {n : Nat} {f : Failure}
    (h : (array (form.codec s.codec) n).decode r d = .error f) :
    Refuses (.formed (.array form n) s) r d f := by
  match d with
  | .array items tail =>
      obtain h | ⟨r', hr, h | ⟨xs, _, h⟩⟩ := decode_array_eq_error_iff.mp h
      · exact refuses_of_enter h
      · obtain ⟨before, d, after, xs, f, htake, hbefore, hf, rfl⟩ := decodeItems_eq_error_iff.mp h
        rw [Nat.zero_add]
        have hn : before.length < n := by
          have hlength := congrArg List.length htake
          rw [List.length_take, List.length_append, List.length_cons] at hlength
          omega
        have hitems := List.take_append_drop n items
        rw [htake, List.append_assoc, List.cons_append] at hitems
        rw [← hitems]
        exact .part (.slot d _ tail hr hbefore hn) hf
      · split at h
        · exact refuses_of_noMore h
        · obtain h | ⟨-, rfl⟩ := h
          · exact refuses_of_ending_array h
          · exact .own nofun
  | .null | .bool _ | .number _ | .string _ | .object _ _ | .broken _ _ =>
      exact refuses_of_mismatch h

theorem refuses_map {f : Failure} (h : (map s.codec).decode r d = .error f) :
    Refuses (.map s) r d f := by
  match d with
  | .object members tail =>
      obtain h | ⟨r', hr, h | ⟨_, _, h⟩⟩ := decode_map_eq_error_iff.mp h
      · exact refuses_of_enter h
      · rw [decodeEntries_eq_foldlM] at h
        obtain ⟨before, ⟨k, d⟩, after, seen, rfl, hbefore, h⟩ := foldlM_eq_error_iff.mp h
        obtain ⟨e, hk, rfl⟩ | ⟨k, f, rfl, hf, rfl⟩ := readEntry_eq_error_iff.mp h
        · subst hk
          exact refuses_of_key List.mem_append_cons_self
        · rw [← decodeEntries_eq_foldlM] at hbefore
          exact .part (.entry k d after tail hr hbefore) hf
      · exact refuses_of_ending_object h
  | .null | .bool _ | .number _ | .string _ | .array _ _ | .broken _ _ =>
      exact refuses_of_mismatch h

theorem refuses_record {name : String} {fs : Fields} {f : Failure}
    (h : (Schema.record name fs).codec.decode r d = .error f) :
    Refuses (.record name fs) r d f := by
  match d with
  | .object members tail =>
      obtain h | ⟨r', hr, h | ⟨slots, _, h | ⟨-, h⟩⟩⟩ := decode_record_object_eq_error_iff.mp h
      · exact refuses_of_enter h
      · rw [foldMembers_eq_foldlM] at h
        obtain ⟨before, ⟨k, d⟩, after, slots, rfl, hbefore, h⟩ := foldlM_eq_error_iff.mp h
        obtain ⟨e, hk, rfl⟩ | ⟨k, rfl, h⟩ | ⟨e, hskip, -, rfl⟩ := readMember_eq_error_iff.mp h
        · subst hk
          exact refuses_of_key List.mem_append_cons_self
        · obtain rfl | ⟨rule, s, f, hfield, rfl, hf, rfl⟩ := put?_cases h
          · exact .own nofun
          · rw [← foldMembers_eq_foldlM] at hbefore
            exact .part (.member d after tail hr hbefore hfield) hf
        · refine .broken e fun hclean => ?_
          obtain ⟨-, -, j, rfl⟩ := hclean.object.2 (k, d) List.mem_append_cons_self
          cases hskip.symm.trans (skip_ofJson j)
      · exact refuses_of_ending_object h
      · obtain ⟨k, rfl⟩ := exists_missing_of_finish h
        exact .own nofun
  | .array items tail =>
      obtain h | ⟨r', hr, h | ⟨_, _, h⟩⟩ := decode_record_array_eq_error_iff.mp h
      · exact refuses_of_enter h
      · obtain h | ⟨n, rfl⟩ | ⟨rule, s, d, i, f, hturn, hf, rfl⟩ := ofItems_cases h
        · exact refuses_of_ending_array h
        · exact .own nofun
        · rw [Nat.zero_add]
          exact .part (.place tail hr hturn) hf
      · exact refuses_of_noMore h
  | .null | .bool _ | .number _ | .string _ | .broken _ _ =>
      exact refuses_of_mismatch h

theorem refuses_any {f : Failure} (h : any.decode r d = .error f) : Refuses .any r d f := by
  obtain ⟨g, rfl⟩ := fault_of_toJson d h
  refine .broken g ?_
  rintro ⟨rfl, j, rfl⟩
  obtain ⟨j', hj⟩ := exists_toJson j
  cases h.symm.trans hj

theorem refuses_int {t : IntType} {f : Failure} (h : (int t).decode r d = .error f) :
    Refuses (.int t) r d f := by
  unfold int at h
  dsimp only at h
  split at h
  · split at h
    · cases h
    · rw [← Except.error.inj h]
      exact .own nofun
  · exact refuses_of_mismatch h

def Atomic {α : Type} (c : Codec α) : Prop := ∀ r d, (∃ a, c.decode r d = .ok a) ∨
  ∃ expected, c.decode r d = .error (d.mismatch expected)

theorem refuses_of_atomic {α : Type} {c : Codec α} (hc : Atomic c) {f : Failure}
    (h : c.decode r d = .error f) : Refuses s r d f := by
  obtain ⟨a, ha⟩ | ⟨expected, hd⟩ := hc r d
  · cases ha.symm.trans h
  · exact refuses_of_mismatch (hd.symm.trans h)

theorem atomic_float : Atomic .float := by
  intro r d
  match d with
  | .number (some (.int i)) => exact .inl ⟨_, rfl⟩
  | .number (some (.float x)) => exact .inl ⟨x, rfl⟩
  | .null | .bool _ | .number none | .string _ | .array _ _ | .object _ _ | .broken _ _ =>
      exact .inr ⟨_, rfl⟩

theorem atomic_bool : Atomic .bool := by
  intro r d
  cases d with
  | bool b => exact .inl ⟨b, rfl⟩
  | null | number | string | array | object | broken => exact .inr ⟨_, rfl⟩

theorem atomic_string : Atomic .string := by
  intro r d
  match d with
  | .string (some t) => exact .inl ⟨t, rfl⟩
  | .null | .bool _ | .number _ | .string none | .array _ _ | .object _ _ | .broken _ _ =>
      exact .inr ⟨_, rfl⟩

theorem atomic_marker : Atomic .marker := by
  intro r d
  cases d with
  | null => exact .inl ⟨.nullish, rfl⟩
  | bool | number | string | array | object | broken => exact .inr ⟨_, rfl⟩

/-- Every failure has its reason in the document itself or in a part of it. -/
theorem refuses_of_decode {s : Schema} (hs : ∀ t, s ≠ .formed .elastic t) {r : Reading} {d : Doc}
    {f : Failure} (h : s.codec.decode r d = .error f) : Refuses s r d f := by
  match s with
  | .int t => exact refuses_int h
  | .float => exact refuses_of_atomic atomic_float h
  | .bool => exact refuses_of_atomic atomic_bool h
  | .string => exact refuses_of_atomic atomic_string h
  | .any => exact refuses_any h
  | .map s => exact refuses_map h
  | .record name fs => exact refuses_record h
  | .formed .elem s => exact .part (.elem s r d) h
  | .formed (.list form) s => exact refuses_list h
  | .formed (.array form n) s => exact refuses_array h
  | .formed (.option form) s =>
      obtain ⟨hd, hf⟩ := decode_option_eq_error_iff.mp h
      exact .part (.option form s r hd) hf
  | .formed (.tri form) s =>
      obtain ⟨hd, hf⟩ := decode_tri_eq_error_iff.mp h
      exact .part (.tri form s r hd) hf
  | .formed .marker s => exact refuses_of_atomic atomic_marker h
  | .formed .elastic s => exact absurd rfl (hs s)

theorem Clean.part {s s' : Schema} {r r' : Reading} {d d' : Doc} {p : Path} (hclean : Clean r d)
    (h : Enters s r d p s' r' d') : Clean r' d' := by
  have hvalue (hr : r.enter = .ok r') : r' = .value := Except.ok.inj (hr.symm.trans hclean.enter)
  cases h with
  | elem | option | tri => exact hclean
  | item _ _ _ hr | slot _ _ _ hr =>
      rw [hvalue hr]
      exact hclean.array.2 d' List.mem_append_cons_self
  | entry k _ _ _ hr =>
      rw [hvalue hr]
      exact (hclean.object.2 (.ok k, d') List.mem_append_cons_self).2
  | @member _ _ rule _ _ _ _ _ _ _ _ hr =>
      rw [hvalue hr]
      exact (hclean.object.2 (.ok rule.key, d') List.mem_append_cons_self).2
  | place _ hr hturn =>
      rw [hvalue hr]
      exact hclean.array.2 d' hturn.mem

end PlainTwin.Refusals
