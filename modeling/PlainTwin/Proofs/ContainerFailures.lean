import PlainTwin.Proofs.Success
import PlainTwin.Schema

namespace PlainTwin.ContainerFailures

open Codec Success

variable {α σ : Type} {c : Codec α} {r : Reading}

theorem decodeItems_cons_of_ok {d : Doc} {a : α} (h : c.decode r d = .ok a) (i : Nat)
    (ds : List Doc) :
    decodeItems c r i (d :: ds) = (a :: ·) <$> decodeItems c r (i + 1) ds := by
  rw [decodeItems, h]
  rfl

theorem decodeItems_cons_of_error {d : Doc} {f : Failure} (h : c.decode r d = .error f) (i : Nat)
    (ds : List Doc) : decodeItems c r i (d :: ds) = .error (f.under (.index i)) := by
  rw [decodeItems, h]
  rfl

theorem decodeItems_eq_error_iff {i : Nat} {ds : List Doc} {g : Failure} :
    decodeItems c r i ds = .error g ↔ ∃ before d after xs f, ds = before ++ d :: after ∧
      decodeItems c r i before = .ok xs ∧ c.decode r d = .error f ∧
      g = f.under (.index (i + before.length)) := by
  induction ds generalizing i with
  | nil => simp [decodeItems]
  | cons d ds ih =>
    constructor
    · intro h
      cases hd : c.decode r d with
      | error f =>
        rw [decodeItems_cons_of_error hd] at h
        exact ⟨[], d, ds, [], f, rfl, rfl, hd, (Except.error.inj h).symm⟩
      | ok a =>
        rw [decodeItems_cons_of_ok hd, map_eq_error_iff] at h
        obtain ⟨before, x, after, xs, f, rfl, hbefore, hx, rfl⟩ := ih.mp h
        refine ⟨d :: before, x, after, a :: xs, f, rfl, ?_, hx, ?_⟩
        · rw [decodeItems_cons_of_ok hd, hbefore]
          rfl
        · rw [List.length_cons, Nat.add_comm before.length, Nat.add_assoc]
    · rintro ⟨before, x, after, xs, f, hds, hbefore, hx, rfl⟩
      cases before with
      | nil =>
        obtain ⟨rfl, rfl⟩ := List.cons.inj hds
        exact decodeItems_cons_of_error hx i ds
      | cons y before =>
        obtain ⟨rfl, rfl⟩ := List.cons.inj hds
        cases hy : c.decode r d with
        | error f =>
          rw [decodeItems_cons_of_error hy] at hbefore
          cases hbefore
        | ok a =>
          rw [decodeItems_cons_of_ok hy] at hbefore ⊢
          obtain ⟨ys, hys, -⟩ := map_eq_ok_iff.mp hbefore
          rw [map_eq_error_iff, ih]
          refine ⟨before, x, after, ys, f, rfl, hys, hx, ?_⟩
          rw [List.length_cons, Nat.add_comm before.length, Nat.add_assoc]

def readEntry (c : Codec α) (r : Reading) (seen : List (String × α)) :
    Except Fault String × Doc → Except Failure (List (String × α))
  | (.error e, _) => .error (.fault e)
  | (.ok k, d) => (insertSorted k · seen) <$> (c.decode r d).mapError (.under (.key k))

theorem decodeEntries_eq_foldlM (c : Codec α) (r : Reading) (seen : List (String × α))
    (ms : List (Except Fault String × Doc)) :
    decodeEntries c r seen ms = ms.foldlM (readEntry c r) seen := by
  induction ms generalizing seen with
  | nil => rfl
  | cons m ms ih =>
    rcases m with ⟨e | k, d⟩
    · rfl
    · rw [List.foldlM_cons, readEntry, decodeEntries]
      cases c.decode r d with
      | error f => rfl
      | ok a => exact ih _

theorem readEntry_eq_error_iff {seen : List (String × α)} {m : Except Fault String × Doc}
    {g : Failure} : readEntry c r seen m = .error g ↔
      (∃ e, m.1 = .error e ∧ g = .fault e) ∨
      ∃ k f, m.1 = .ok k ∧ c.decode r m.2 = .error f ∧ g = f.under (.key k) := by
  rcases m with ⟨e | k, d⟩
  · simp [readEntry, eq_comm]
  · simp [readEntry, map_eq_error_iff, mapError_eq_error_iff]

def readMember (put? : String → Doc → σ → Option (Except Failure σ)) (s : σ) :
    Except Fault String × Doc → Except Failure σ
  | (.error e, _) => .error (.fault e)
  | (.ok k, d) =>
    match put? k d s with
    | some x => x
    | none => (fun _ => s) <$> d.skip.mapError .fault

theorem foldMembers_eq_foldlM (put? : String → Doc → σ → Option (Except Failure σ)) (s : σ)
    (ms : List (Except Fault String × Doc)) :
    foldMembers put? s ms = ms.foldlM (readMember put?) s := by
  induction ms generalizing s with
  | nil => rfl
  | cons m ms ih =>
    rcases m with ⟨e | k, d⟩
    · rfl
    · have hstep : foldMembers put? s ((.ok k, d) :: ms) = match put? k d s with
          | some x => x >>= fun s => foldMembers put? s ms
          | none => d.skip.mapError .fault >>= fun _ => foldMembers put? s ms := rfl
      rw [List.foldlM_cons, readMember, hstep]
      cases put? k d s with
      | some x =>
        cases x with
        | error f => rfl
        | ok s => exact ih s
      | none =>
        cases d.skip with
        | error e => rfl
        | ok u => exact ih s

theorem readMember_eq_error_iff {put? : String → Doc → σ → Option (Except Failure σ)} {s : σ}
    {m : Except Fault String × Doc} {g : Failure} : readMember put? s m = .error g ↔
      (∃ e, m.1 = .error e ∧ g = .fault e) ∨
      (∃ k, m.1 = .ok k ∧ put? k m.2 s = some (.error g)) ∨
      ∃ e, m.2.skip = .error e ∧ (∃ k, m.1 = .ok k ∧ put? k m.2 s = none) ∧ g = .fault e := by
  rcases m with ⟨e | k, d⟩
  · simp [readMember, eq_comm]
  · cases hput : put? k d s with
    | some x => simp [readMember, hput]
    | none => simp [readMember, hput, map_eq_error_iff, mapError_eq_error_iff]

theorem decode_option_eq_error_iff {d : Doc} {g : Failure} :
    (option c).decode r d = .error g ↔ d ≠ .null ∧ c.decode r d = .error g := by
  cases d with
  | null => exact iff_of_false nofun (fun h => h.1 rfl)
  | bool | number | string | array | object | broken =>
    rw [and_iff_right nofun]
    exact map_eq_error_iff

theorem decode_tri_eq_error_iff {d : Doc} {g : Failure} :
    (tri c).decode r d = .error g ↔ d ≠ .null ∧ c.decode r d = .error g :=
  map_eq_error_iff.trans decode_option_eq_error_iff

@[simp]
theorem ending_none : Doc.ending none = .ok () := rfl

@[simp]
theorem ending_some (e : Fault) : Doc.ending (some e) = .error (.fault e) := rfl

theorem decode_list_eq_error_iff {items : List Doc} {tail : Option Fault} {g : Failure} :
    (list c).decode r (.array items tail) = .error g ↔ r.enter = .error g ∨
      ∃ r', r.enter = .ok r' ∧ (decodeItems c r' 0 items = .error g ∨
        ∃ xs, decodeItems c r' 0 items = .ok xs ∧ Doc.ending tail = .error g) := by
  simp [list, bind_eq_error_iff, map_eq_error_iff]

theorem decode_map_eq_error_iff {members : List (Except Fault String × Doc)} {tail : Option Fault}
    {g : Failure} : (map c).decode r (.object members tail) = .error g ↔ r.enter = .error g ∨
      ∃ r', r.enter = .ok r' ∧ (decodeEntries c r' [] members = .error g ∨
        ∃ ms, decodeEntries c r' [] members = .ok ms ∧ Doc.ending tail = .error g) := by
  simp [map, bind_eq_error_iff, map_eq_error_iff]

theorem decode_array_eq_error_iff {n : Nat} {items : List Doc} {tail : Option Fault} {g : Failure} :
    (array c n).decode r (.array items tail) = .error g ↔ r.enter = .error g ∨
      ∃ r', r.enter = .ok r' ∧ (decodeItems c r' 0 (items.take n) = .error g ∨
        ∃ xs, decodeItems c r' 0 (items.take n) = .ok xs ∧
          if xs.length = n then noMore r items.length n tail = .error g
          else Doc.ending tail = .error g ∨ Doc.ending tail = .ok () ∧
            g = .data (.invalidLength xs.length ("an array of length " ++ n.repr))) := by
  simp only [array, bind_eq_error_iff]
  refine or_congr_right (exists_congr fun r' => and_congr_right fun _ =>
    or_congr_right (exists_congr fun xs => and_congr_right fun _ => ?_))
  split_ifs
  · rw [bind_pure_comp, map_eq_error_iff]
  · cases tail <;> simp [bind_eq_error_iff, @eq_comm _ g]

section

variable {name : String} {count : Nat} {members : α → List (String × Json)} {start : σ}
  {put? : Reading → String → Doc → σ → Option (Except Failure σ)} {finish : σ → Except Failure α}
  {ofItems : String → Reading → Option Fault → List Doc → Except Failure α}
  {tail : Option Fault} {g : Failure}

theorem decode_record_object_eq_error_iff {ms : List (Except Fault String × Doc)} :
    (record name count members start put? finish ofItems).decode r (.object ms tail) = .error g ↔
      r.enter = .error g ∨ ∃ r', r.enter = .ok r' ∧ (foldMembers (put? r') start ms = .error g ∨
        ∃ s, foldMembers (put? r') start ms = .ok s ∧
          (Doc.ending tail = .error g ∨ Doc.ending tail = .ok () ∧ finish s = .error g)) := by
  cases tail <;> simp [record, bind_eq_error_iff]

theorem decode_record_array_eq_error_iff {items : List Doc} :
    (record name count members start put? finish ofItems).decode r (.array items tail) = .error g ↔
      r.enter = .error g ∨ ∃ r', r.enter = .ok r' ∧
        let expected := "struct " ++ name ++ " with " ++ count.repr ++
          (if count = 1 then " element" else " elements")
        (ofItems expected r' tail items = .error g ∨
          ∃ v, ofItems expected r' tail items = .ok v ∧
            noMore r items.length count tail = .error g) := by
  simp [record, bind_eq_error_iff, map_eq_error_iff]

end

end PlainTwin.ContainerFailures
