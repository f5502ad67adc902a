import PlainTwin.Proofs.ContainerFailures

namespace PlainTwin.Descent

open Codec ContainerFailures Success

inductive Awaits (rule : FieldRule) (s : Schema) : (fs : Fields) → fs.Slots → Prop
  | here (rest : Fields) (slots : rest.Slots) : Awaits rule s (.cons rule s rest) (none, slots)
  | there {rest : Fields} {slots : rest.Slots} (other : FieldRule) (s' : Schema)
      (slot : Option s'.Val) (hne : other.key ≠ rule.key) (h : Awaits rule s rest slots) :
      Awaits rule s (.cons other s' rest) (slot, slots)

/-- Fields are read from items in turn, and it is the turn of the `i`-th one, which has the type `s`
and is read from `d`. -/
inductive Turn (r : Reading) (rule : FieldRule) (s : Schema) (d : Doc) :
    Fields → List Doc → Nat → Prop
  | here (rest : Fields) (after : List Doc) : Turn r rule s d (.cons rule s rest) (d :: after) 0
  | there {rest : Fields} {items : List Doc} {i : Nat} {other : FieldRule} {s' : Schema} {d' : Doc}
      {v : s'.Val} (hv : (other.adjust s' s'.codec).decode r d' = .ok v)
      (h : Turn r rule s d rest items i) :
      Turn r rule s d (.cons other s' rest) (d' :: items) (i + 1)

/-- To read a value of one type a part of it is read as another type. Whatever stands before that
part was read, and the path leads from the value to the part. Elastic values have no parts: they
are read as a whole first. -/
inductive Enters : Schema → Reading → Doc → Path → Schema → Reading → Doc → Prop
  | elem (s : Schema) (r : Reading) (d : Doc) : Enters (.formed .elem s) r d [] s r d
  | option (f : Form) (s : Schema) (r : Reading) {d : Doc} (hd : d ≠ .null) :
      Enters (.formed (.option f) s) r d [] (.formed f s) r d
  | tri (f : Form) (s : Schema) (r : Reading) {d : Doc} (hd : d ≠ .null) :
      Enters (.formed (.tri f) s) r d [] (.formed f s) r d
  | item {f : Form} {s : Schema} {r r' : Reading} {before : List Doc} {xs : List (f.Val s.Val)}
      (d : Doc) (after : List Doc) (tail : Option Fault) (hr : r.enter = .ok r')
      (hbefore : decodeItems (f.codec s.codec) r' 0 before = .ok xs) :
      Enters (.formed (.list f) s) r (.array (before ++ d :: after) tail) [.index before.length]
        (.formed f s) r' d
  | slot {f : Form} {n : Nat} {s : Schema} {r r' : Reading} {before : List Doc}
      {xs : List (f.Val s.Val)} (d : Doc) (after : List Doc) (tail : Option Fault)
      (hr : r.enter = .ok r') (hbefore : decodeItems (f.codec s.codec) r' 0 before = .ok xs)
      (hn : before.length < n) :
      Enters (.formed (.array f n) s) r (.array (before ++ d :: after) tail)
        [.index before.length] (.formed f s) r' d
  | entry {s : Schema} {r r' : Reading} {before : List (Except Fault String × Doc)}
      {seen : List (String × s.Val)} (k : String) (d : Doc)
      (after : List (Except Fault String × Doc)) (tail : Option Fault) (hr : r.enter = .ok r')
      (hbefore : decodeEntries s.codec r' [] before = .ok seen) :
      Enters (.map s) r (.object (before ++ (.ok k, d) :: after) tail) [.key k] s r' d
  | member {name : String} {fs : Fields} {rule : FieldRule} {s : Schema} {r r' : Reading}
      {before : List (Except Fault String × Doc)} {slots : fs.Slots} (d : Doc)
      (after : List (Except Fault String × Doc)) (tail : Option Fault) (hr : r.enter = .ok r')
      (hbefore : foldMembers (fs.put? r') fs.noSlots before = .ok slots)
      (hfield : Awaits rule s fs slots) :
      Enters (.record name fs) r (.object (before ++ (.ok rule.key, d) :: after) tail)
        [.key rule.key] s r' d
  | place {name : String} {fs : Fields} {rule : FieldRule} {s : Schema} {r r' : Reading}
      {d : Doc} {items : List Doc} {i : Nat} (tail : Option Fault) (hr : r.enter = .ok r')
      (hturn : Turn r' rule s d fs items i) :
      Enters (.record name fs) r (.array items tail) [.index i] s r' d

def placed (p : Path) (f : Failure) : Failure := { f with path := p ++ f.path }

theorem adjust_eq_error_iff (rule : FieldRule) (s : Schema) {r : Reading} {d : Doc} {f : Failure} :
    (rule.adjust s s.codec).decode r d = .error f ↔ s.codec.decode r d = .error f := by
  apply rule.adjust_induction
    (P := fun s c => c.decode r d = .error f ↔ s.codec.decode r d = .error f)
  · rfl
  · intro t
    cases d with
    | null => exact iff_of_false nofun nofun
    | bool | number | string | array | object | broken => rfl

theorem put?_of_awaits {rule : FieldRule} {s : Schema} {fs : Fields} {slots : fs.Slots}
    (h : Awaits rule s fs slots) {r : Reading} {d : Doc} {f : Failure}
    (hf : s.codec.decode r d = .error f) :
    fs.put? r rule.key d slots = some (.error (f.under (.key rule.key))) := by
  induction h with
  | here rest slots =>
      rw [Fields.put?, if_pos rfl]
      simp only [fill, (adjust_eq_error_iff rule s).mpr hf]
      rfl
  | there other s' slot hne _ ih =>
      rw [Fields.put?, if_neg hne, ih]
      rfl

theorem put?_cases {k : String} {r : Reading} {d : Doc} {g : Failure} :
    ∀ {fs : Fields} {slots : fs.Slots}, fs.put? r k d slots = some (.error g) →
      g = .data (.duplicateField k) ∨ ∃ rule s f, Awaits rule s fs slots ∧ rule.key = k ∧
        s.codec.decode r d = .error f ∧ g = f.under (.key k)
  | .nil, _, h => by cases h
  | .cons rule s fs, (slot, slots), h => by
      rw [Fields.put?] at h
      split at h
      · next hk =>
          subst hk
          have hfill := map_eq_error_iff.mp (Option.some.inj h)
          cases slot with
          | some v => exact .inl (Except.error.inj hfill).symm
          | none =>
              obtain ⟨f, hf, rfl⟩ := mapError_eq_error_iff.mp (map_eq_error_iff.mp hfill)
              exact .inr ⟨rule, s, f, .here fs slots, rfl, (adjust_eq_error_iff rule s).mp hf, rfl⟩
      · next hk =>
          obtain ⟨x, hx, hmap⟩ := Option.map_eq_some_iff.mp h
          obtain rfl := map_eq_error_iff.mp hmap
          obtain hdup | ⟨rule', s', f, hawaits, rfl, hf, hg⟩ := put?_cases hx
          · exact .inl hdup
          · exact .inr ⟨rule', s', f, .there rule s slot hk hawaits, rfl, hf, hg⟩

theorem ofItems_of_turn {rule : FieldRule} {s : Schema} {r : Reading} {d : Doc} {fs : Fields}
    {items : List Doc} {j : Nat} (h : Turn r rule s d fs items j) {f : Failure}
    (hf : s.codec.decode r d = .error f) (i : Nat) (expected : String) (tail : Option Fault) :
    fs.ofItems i expected r tail items = .error (f.under (.index (i + j))) := by
  induction h generalizing i with
  | here rest after =>
      rw [Fields.ofItems, (adjust_eq_error_iff rule s).mpr hf]
      rfl
  | @there _ _ j _ _ _ _ hv _ ih =>
      rw [Fields.ofItems, hv, Nat.add_comm j, ← Nat.add_assoc]
      exact bind_eq_error_iff.mpr (.inr ⟨_, rfl, bind_eq_error_iff.mpr (.inl (ih (i + 1)))⟩)

theorem ofItems_cases {expected : String} {r : Reading} {tail : Option Fault} {g : Failure} :
    ∀ {fs : Fields} {i : Nat} {items : List Doc}, fs.ofItems i expected r tail items = .error g →
      Doc.ending tail = .error g ∨ (∃ n, g = .data (.invalidLength n expected)) ∨
        ∃ rule s d j f, Turn r rule s d fs items j ∧ s.codec.decode r d = .error f ∧
          g = f.under (.index (i + j))
  | .nil, _, _, h => by cases h
  | .cons rule s fs, i, [], h => by
      rw [Fields.ofItems] at h
      obtain h | ⟨_, _, h⟩ := bind_eq_error_iff.mp h
      · exact .inl h
      · split at h
        · obtain h | ⟨_, _, h⟩ := bind_eq_error_iff.mp h
          · obtain hend | hlength | ⟨_, _, _, _, _, hturn, -⟩ := ofItems_cases h
            · exact .inl hend
            · exact .inr (.inl hlength)
            · cases hturn
          · cases h
        · exact .inr (.inl ⟨i, (Except.error.inj h).symm⟩)
  | .cons rule s fs, i, d :: items, h => by
      rw [Fields.ofItems] at h
      obtain h | ⟨v, hv, h⟩ := bind_eq_error_iff.mp h
      · obtain ⟨f, hf, rfl⟩ := mapError_eq_error_iff.mp h
        exact .inr (.inr ⟨rule, s, d, 0, f, .here fs items, (adjust_eq_error_iff rule s).mp hf, rfl⟩)
      · obtain h | ⟨_, _, h⟩ := bind_eq_error_iff.mp h
        · obtain hend | hlength | ⟨rule', s', d', j, f, hturn, hf, rfl⟩ := ofItems_cases h
          · exact .inl hend
          · exact .inr (.inl hlength)
          · refine .inr (.inr ⟨rule', s', d', j + 1, f, .there (mapError_eq_ok_iff.mp hv) hturn, hf, ?_⟩)
            rw [Nat.add_comm j, Nat.add_assoc]
        · cases h

theorem take_append_cons {α : Type} {xs : List α} {n : Nat} (h : xs.length < n) (y : α)
    (ys : List α) : ∃ zs, (xs ++ y :: ys).take n = xs ++ y :: zs := by
  obtain ⟨m, rfl⟩ := Nat.exists_eq_add_of_lt h
  exact ⟨ys.take m, by rw [Nat.add_assoc, List.take_length_add_append, List.take_succ_cons]⟩

/-- The failure of a part is the failure of the whole, further down by the path to the part. -/
theorem decode_of_enters {s s' : Schema} {r r' : Reading} {d d' : Doc} {p : Path}
    (h : Enters s r d p s' r' d') {f : Failure} (hf : s'.codec.decode r' d' = .error f) :
    s.codec.decode r d = .error (placed p f) := by
  cases h with
  | elem => exact hf
  | option form s _ hd => exact decode_option_eq_error_iff.mpr ⟨hd, hf⟩
  | tri form s _ hd => exact decode_tri_eq_error_iff.mpr ⟨hd, hf⟩
  | item _ after tail hr hbefore =>
      refine decode_list_eq_error_iff.mpr (.inr ⟨r', hr, .inl ?_⟩)
      refine decodeItems_eq_error_iff.mpr ⟨_, d', after, _, f, rfl, hbefore, hf, ?_⟩
      rw [Nat.zero_add]
      rfl
  | slot _ after tail hr hbefore hn =>
      obtain ⟨rest, htake⟩ := take_append_cons hn d' after
      refine decode_array_eq_error_iff.mpr (.inr ⟨r', hr, .inl ?_⟩)
      refine decodeItems_eq_error_iff.mpr ⟨_, d', rest, _, f, htake, hbefore, hf, ?_⟩
      rw [Nat.zero_add]
      rfl
  | entry k _ after tail hr hbefore =>
      refine decode_map_eq_error_iff.mpr (.inr ⟨r', hr, .inl ?_⟩)
      rw [decodeEntries_eq_foldlM] at hbefore ⊢
      refine foldlM_eq_error_iff.mpr ⟨_, _, after, _, rfl, hbefore, ?_⟩
      exact readEntry_eq_error_iff.mpr (.inr ⟨k, f, rfl, hf, rfl⟩)
  | member _ after tail hr hbefore hfield =>
      refine decode_record_object_eq_error_iff.mpr (.inr ⟨r', hr, .inl ?_⟩)
      rw [foldMembers_eq_foldlM] at hbefore ⊢
      refine foldlM_eq_error_iff.mpr ⟨_, _, after, _, rfl, hbefore, ?_⟩
      exact readMember_eq_error_iff.mpr (.inr (.inl ⟨_, rfl, put?_of_awaits hfield hf⟩))
  | place tail hr hturn =>
      refine decode_record_array_eq_error_iff.mpr (.inr ⟨r', hr, .inl ?_⟩)
      rw [ofItems_of_turn hturn hf, Nat.zero_add]
      rfl

theorem Turn.mem {r : Reading} {rule : FieldRule} {s : Schema} {d : Doc} {fs : Fields}
    {items : List Doc} {i : Nat} (h : Turn r rule s d fs items i) : d ∈ items := by
  induction h with
  | here => exact List.mem_cons_self
  | there _ _ ih => exact List.mem_cons_of_mem _ ih

theorem Awaits.sizeOf_lt {rule : FieldRule} {s : Schema} {fs : Fields} {slots : fs.Slots}
    (h : Awaits rule s fs slots) : sizeOf s < sizeOf fs := by
  induction h with
  | here | there =>
      rw [Fields.cons.sizeOf_spec]
      omega

theorem Turn.sizeOf_lt {r : Reading} {rule : FieldRule} {s : Schema} {d : Doc} {fs : Fields}
    {items : List Doc} {i : Nat} (h : Turn r rule s d fs items i) : sizeOf s < sizeOf fs := by
  induction h with
  | here | there =>
      rw [Fields.cons.sizeOf_spec]
      omega

theorem Enters.sizeOf_lt {s s' : Schema} {r r' : Reading} {d d' : Doc} {p : Path}
    (h : Enters s r d p s' r' d') : sizeOf s' < sizeOf s := by
  cases h with
  | elem | option | tri | item | slot =>
      simp only [Schema.formed.sizeOf_spec, Form.option.sizeOf_spec, Form.tri.sizeOf_spec,
        Form.list.sizeOf_spec, Form.array.sizeOf_spec]
      omega
  | entry =>
      rw [Schema.map.sizeOf_spec]
      omega
  | member _ _ _ _ _ hfield =>
      have hlt := hfield.sizeOf_lt
      rw [Schema.record.sizeOf_spec]
      omega
  | place _ _ hturn =>
      have hlt := hturn.sizeOf_lt
      rw [Schema.record.sizeOf_spec]
      omega

end PlainTwin.Descent
