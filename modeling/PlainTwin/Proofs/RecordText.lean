import PlainTwin.Proofs.RecordTrip
import PlainTwin.Proofs.ValueText

namespace PlainTwin.RecordText

open Codec RecordTrip ValueText

variable {r s : Reading}

/-- A field comes back from the wire: its value is left out and stands in for a missing one, or it is
what its own encoding is read as. -/
def FieldKept (r : Reading) (rule : FieldRule) (s : Schema) (v : s.Val) : Prop :=
  if rule.skipsAbsent && s.isAbsent v then
    missing? rule (rule.adjust s s.codec) s.default? = some v
  else (rule.adjust s s.codec).decode r (.ofJson ((rule.adjust s s.codec).encode v)) = .ok v

def Kept (r : Reading) : (fs : Fields) → fs.Val → Prop
  | .nil, _ => True
  | .cons rule s fs, (v, vs) => FieldKept r rule s v ∧ Kept r fs vs

def keys (fs : Fields) : List String := fs.rules.map (·.key)

def names (fs : Fields) : List String := fs.rules.map (·.name)

theorem key_of_mem_members : ∀ {fs : Fields} {vs : fs.Val} {m : String × Json},
    m ∈ fs.members vs → m.1 ∈ keys fs
  | .nil, _, _, h => by cases h
  | .cons rule s fs, (v, vs), m, h => by
      have htail (hm : m ∈ fs.members vs) : m.1 ∈ keys (.cons rule s fs) :=
        List.mem_cons_of_mem _ (key_of_mem_members hm)
      rw [Fields.members] at h
      split at h
      · exact htail h
      · rcases List.mem_cons.mp h with rfl | h
        · exact List.mem_cons_self
        · exact htail h

theorem foldMembers_ok {σ : Type} (put? : String → Doc → σ → Option (Except Failure σ)) (x : σ)
    (k : String) (d : Doc) (ms : List (Except Fault String × Doc)) :
    foldMembers put? x ((.ok k, d) :: ms) =
      match put? k d x with
      | some y => y >>= fun y => foldMembers put? y ms
      | none => d.skip.mapError .fault >>= fun _ => foldMembers put? x ms := rfl

section

variable {rule : FieldRule} {s : Schema} {fs : Fields}

def withSlot (rule : FieldRule) (slot : Option s.Val) (slots : fs.Slots) :
    (Fields.cons rule s fs).Slots := (slot, slots)

theorem put?_of_ne {k : String} (h : k ≠ rule.key) (d : Doc) (slot : Option s.Val)
    (slots : fs.Slots) : (Fields.cons rule s fs).put? r k d (withSlot rule slot slots) =
      (fs.put? r k d slots).map fun x => withSlot rule slot <$> x := by
  rw [withSlot, Fields.put?, if_neg (Ne.symm h)]
  rfl

theorem put?_key {d : Doc} {v : s.Val} (h : (rule.adjust s s.codec).decode r d = .ok v)
    (slots : fs.Slots) : (Fields.cons rule s fs).put? r rule.key d (withSlot rule none slots) =
      some (.ok (withSlot rule (some v) slots)) := by
  rw [withSlot, Fields.put?, if_pos rfl]
  simp only [fill, h]
  rfl

theorem finish_withSlot {slot : Option s.Val} {v : s.Val}
    (h : (slot <|> missing? rule (rule.adjust s s.codec) s.default?) = some v) {slots : fs.Slots}
    {vs : fs.Val} (hs : fs.finish slots = .ok vs) :
    (Fields.cons rule s fs).finish (withSlot rule slot slots) = .ok (v, vs) := by
  rw [withSlot, Fields.finish, h, hs]
  rfl

theorem foldMembers_cons (slot : Option s.Val) {ms : List (String × Json)}
    (h : ∀ m ∈ ms, m.1 ≠ rule.key) (slots : fs.Slots) :
    foldMembers ((Fields.cons rule s fs).put? r) (withSlot rule slot slots) (Doc.ofMembers ms) =
      withSlot rule slot <$> foldMembers (fs.put? r) slots (Doc.ofMembers ms) := by
  induction ms generalizing slots with
  | nil => rfl
  | cons m ms ih =>
      obtain ⟨k, j⟩ := m
      rw [List.forall_mem_cons] at h
      obtain ⟨hk, hms⟩ := h
      rw [Doc.ofMembers, foldMembers_ok, foldMembers_ok, put?_of_ne hk]
      cases fs.put? r k (.ofJson j) slots with
      | none =>
          cases (Doc.ofJson j).skip with
          | error f => rfl
          | ok u => exact ih hms slots
      | some x =>
          cases x with
          | error f => rfl
          | ok slots => exact ih hms slots

end

/-- The object of a record fills the slots of its fields, and these give the record back. -/
theorem exists_slots : ∀ {fs : Fields} {vs : fs.Val}, (keys fs).Nodup → Kept r fs vs →
    ∃ slots, foldMembers (fs.put? r) fs.noSlots (Doc.ofMembers (fs.members vs)) = .ok slots ∧
      fs.finish slots = .ok vs
  | .nil, _, _, _ => ⟨(), rfl, rfl⟩
  | .cons rule s fs, (v, vs), hkeys, ⟨hv, hvs⟩ => by
      obtain ⟨hkey, hrest⟩ := List.nodup_cons.mp hkeys
      obtain ⟨slots, hfold, hfinish⟩ := exists_slots hrest hvs
      have hothers : ∀ m ∈ fs.members vs, m.1 ≠ rule.key := by
        intro m hm heq
        have hmem := key_of_mem_members hm
        rw [heq] at hmem
        exact hkey hmem
      have hpass (slot : Option s.Val) : foldMembers ((Fields.cons rule s fs).put? r)
          (withSlot rule slot fs.noSlots) (Doc.ofMembers (fs.members vs)) =
            .ok (withSlot rule slot slots) := by
        rw [foldMembers_cons slot hothers, hfold]
        rfl
      unfold FieldKept at hv
      rw [Fields.members]
      split at hv
      · next habsent =>
          rw [if_pos habsent]
          exact ⟨_, hpass none, finish_withSlot hv hfinish⟩
      · next hpresent =>
          rw [if_neg hpresent]
          refine ⟨withSlot rule (some v) slots, ?_, finish_withSlot rfl hfinish⟩
          change foldMembers _ (withSlot rule none fs.noSlots) (Doc.ofMembers (_ :: _)) = _
          rw [Doc.ofMembers, foldMembers_ok, put?_key hv]
          exact hpass (some v)

theorem decode_members {fs : Fields} {vs : fs.Val} (name : String) {r s : Reading}
    (hr : r.enter = .ok s) (hkeys : (keys fs).Nodup) (h : Kept s fs vs) :
    (Schema.record name fs).codec.decode r (.ofJson (.object (fs.members vs))) = .ok vs := by
  obtain ⟨slots, hfold, hfinish⟩ := exists_slots hkeys h
  rw [Schema.codec]
  simp only [record, Doc.ofJson, hr]
  change (foldMembers (fs.put? s) fs.noSlots (Doc.ofMembers (fs.members vs)) >>= _) = _
  rw [hfold]
  exact hfinish

theorem encode_adjust (rule : FieldRule) (s : Schema) (v : s.Val) :
    (rule.adjust s s.codec).encode v = s.codec.encode v := by
  apply rule.adjust_induction (P := fun s c => ∀ v, c.encode v = s.codec.encode v)
  · exact fun v => rfl
  · exact fun t v => rfl

def member? (r : Record) (rule : FieldRule) : Option (String × Json) := do
  let cell ← r.lookup rule.name
  if rule.skipsAbsent && cell.schema.isAbsent cell.val then none
  else some (rule.key, cell.schema.codec.encode cell.val)

theorem member?_cons (rule : FieldRule) (cell : Cell) (r : Record) :
    member? ((rule.name, cell) :: r) rule =
      if rule.skipsAbsent && cell.schema.isAbsent cell.val then none
      else some (rule.key, cell.schema.codec.encode cell.val) := by
  rw [member?, List.lookup_cons_self]
  rfl

theorem member?_cons_of_ne {rule : FieldRule} {n : String} (h : rule.name ≠ n) (cell : Cell)
    (r : Record) : member? ((n, cell) :: r) rule = member? r rule := by
  rw [member?, lookup_cons_of_ne cell h]
  rfl

theorem filterMap_member? : ∀ {fs : Fields} {vs : fs.Val}, (names fs).Nodup →
    fs.rules.filterMap (member? (fs.record vs)) = fs.members vs
  | .nil, _, _ => rfl
  | .cons rule s fs, (v, vs), hnames => by
      obtain ⟨hname, hrest⟩ := List.nodup_cons.mp hnames
      have hothers : fs.rules.filterMap (member? ((rule.name, ⟨s, v⟩) :: fs.record vs)) =
          fs.members vs := by
        rw [← filterMap_member? hrest]
        refine List.filterMap_congr fun other hother => member?_cons_of_ne ?_ _ _
        intro heq
        exact hname (List.mem_map.mpr ⟨other, hother, heq⟩)
      have hown := member?_cons rule ⟨s, v⟩ (fs.record vs)
      rw [Fields.rules, Fields.record, Fields.members, List.filterMap_cons, hown, hothers,
        encode_adjust]
      cases rule.skipsAbsent && s.isAbsent v <;> rfl

theorem encode_record {fs : Fields} {vs : fs.Val} (hnames : (names fs).Nodup) :
    Record.encode fs.rules (fs.record vs) = .object (fs.members vs) :=
  congrArg Json.object (filterMap_member? hnames)

theorem decode_ofText_render {fs : Fields} {vs : fs.Val} (name : String) {r s : Reading}
    (hr : r.enter = .ok s) (hnames : (names fs).Nodup) (hkeys : (keys fs).Nodup)
    (h : Kept s fs vs) (htext : Legible (.object (fs.members vs))) :
    (Schema.record name fs).codec.decode r
      (.ofText (Record.encode fs.rules (fs.record vs)).render) = .ok vs := by
  rw [encode_record hnames, ofText_render htext]
  exact decode_members name hr hkeys h

end PlainTwin.RecordText
