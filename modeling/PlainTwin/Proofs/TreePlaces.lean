import PlainTwin.Files.Tree
import PlainTwin.Proofs.Success

namespace PlainTwin.TreePlaces

open Success PlainTwin.Tree

def SameDirs (t t' : Tree) : Prop := ∀ l, t.node? l = some .dir ↔ t'.node? l = some .dir

theorem step_of_dirs {t t' : Tree} (h : ∀ l, t.node? l = some .dir → t'.node? l = some .dir)
    {l k : Location} {part : String} (hk : t.step l part = .ok k) : t'.step l part = .ok k := by
  unfold Tree.step at hk ⊢
  split at hk
  · cases hk
  · cases hk
  · next hdir =>
      rw [h l hdir]
      exact hk

theorem foldlM_of_dirs {t t' : Tree} (h : ∀ l, t.node? l = some .dir → t'.node? l = some .dir)
    {parts : List String} {k l : Location} (hl : parts.foldlM t.step k = .ok l) :
    parts.foldlM t'.step k = .ok l := by
  induction parts generalizing k with
  | nil => exact hl
  | cons part parts ih =>
    rw [List.foldlM_cons, bind_eq_ok_iff] at hl ⊢
    obtain ⟨k', hk, hl⟩ := hl
    exact ⟨k', step_of_dirs h hk, ih hl⟩

theorem walk_of_dirs {t t' : Tree} (h : ∀ l, t.node? l = some .dir → t'.node? l = some .dir)
    {p : FilePath} {parts : List String} {l : Location} (hl : t.walk p parts = .ok l) :
    t'.walk p parts = .ok l := by
  unfold Tree.walk at hl ⊢
  split at hl
  · cases hl
  · next hne =>
      rw [if_neg hne]
      exact foldlM_of_dirs h hl

theorem locate_eq_ok_iff {t t' : Tree} (h : SameDirs t t') {p : FilePath} {l : Location} :
    t.locate p = .ok l ↔ t'.locate p = .ok l :=
  ⟨walk_of_dirs fun k => (h k).mp, walk_of_dirs fun k => (h k).mpr⟩

theorem read_eq_ok_iff {t : Tree} {p : FilePath} {bytes : ByteArray} :
    t.read p = .ok bytes ↔ ∃ l, t.locate p = .ok l ∧ t.node? l = some (.file bytes) := by
  simp only [Tree.read, Tree.find, bind_eq_ok_iff]
  constructor
  · rintro ⟨n, ⟨l, hl, hn⟩, hb⟩
    refine ⟨l, hl, ?_⟩
    cases h : t.node? l with
    | none => simp [h] at hn
    | some k =>
      obtain rfl : k = n := by simpa [h] using hn
      cases k <;> simp_all
  · rintro ⟨l, hl, hn⟩
    exact ⟨.file bytes, ⟨l, hl, by simp [hn]⟩, rfl⟩

theorem read_eq_of_node? {t t' : Tree} {p : FilePath} {l l' : Location} (h : t.locate p = .ok l)
    (h' : t'.locate p = .ok l') (hn : t.node? l = t'.node? l') : t.read p = t'.read p := by
  simp only [Tree.read, Tree.find, h, h', bind, Except.bind, hn]

theorem locate_cases {t t' : Tree} (h : SameDirs t t') (p : FilePath) :
    (∃ l, t.locate p = .ok l ∧ t'.locate p = .ok l) ∨
      (∃ e, t'.read p = .error e) ∧ ∃ e, t.read p = .error e := by
  cases hl : t.locate p with
  | ok l => exact .inl ⟨l, rfl, (locate_eq_ok_iff h).mp hl⟩
  | error e =>
    cases hl' : t'.locate p with
    | ok l =>
      rw [(locate_eq_ok_iff h).mpr hl'] at hl
      cases hl
    | error e' =>
      exact .inr ⟨⟨e', by simp [Tree.read, Tree.find, hl', bind, Except.bind]⟩,
        ⟨e, by simp [Tree.read, Tree.find, hl, bind, Except.bind]⟩⟩

theorem write_eq_ok_iff {t t' : Tree} {p : FilePath} {bytes : ByteArray} :
    t.write p bytes = .ok t' ↔
      ∃ l, t.locate p = .ok l ∧ t.node? l ≠ some .dir ∧ t' = t.insert l (.file bytes) := by
  simp only [Tree.write, bind_eq_ok_iff]
  refine exists_congr fun l => and_congr_right fun _ => ?_
  split <;> simp_all [eq_comm]

theorem node?_insert {t : Tree} {l : Location} (h : l.names ≠ []) (n : Node) (k : Location) :
    (t.insert l n).node? k = if k = l then some n else t.node? k := by
  split
  case isTrue hk => rw [hk, node?_insert_self t h]
  case isFalse hk => rw [node?_insert_of_ne t hk]

theorem names_ne_nil {t : Tree} {l : Location} (h : t.node? l ≠ some .dir) : l.names ≠ [] :=
  fun hl => h (by simp [node?, hl])

/-- Where no directory is, a file can be written without a change to the directories. -/
theorem sameDirs_insert {t : Tree} {l : Location} (h : t.node? l ≠ some .dir) (bytes : ByteArray) :
    SameDirs t (t.insert l (.file bytes)) := by
  intro k
  rw [node?_insert (names_ne_nil h)]
  split <;> simp_all

theorem insert_insert (t : Tree) (l : Location) (n n' : Node) :
    (t.insert l n).insert l n' = t.insert l n' := by
  simp [Tree.insert]

theorem write_cases (t : Tree) (p : FilePath) :
    (∃ e, ∀ bytes, t.write p bytes = .error e) ∨
      ∃ l, t.locate p = .ok l ∧ t.node? l ≠ some .dir ∧
        ∀ bytes, t.write p bytes = .ok (t.insert l (.file bytes)) := by
  cases hl : t.locate p with
  | error e => exact .inl ⟨e, fun bytes => by simp [Tree.write, hl, bind, Except.bind]⟩
  | ok l =>
    by_cases hn : t.node? l = some .dir
    · exact .inl ⟨.isDirectory, fun bytes => by simp [Tree.write, hl, hn, bind, Except.bind]⟩
    · exact .inr ⟨l, rfl, hn, fun bytes => write_eq_ok_iff.mpr ⟨l, hl, hn, rfl⟩⟩

end PlainTwin.TreePlaces
