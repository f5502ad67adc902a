import Mathlib.Data.List.DropRight
import Mathlib.Data.List.Induction
import PlainTwin.Proofs.Splitting
import PlainTwin.Proofs.TreePlaces

namespace PlainTwin.Directories

open FilePath Success PlainTwin.Tree TreePlaces

section Path

theorem slash_not_mem {p : FilePath} {part : String} (h : part ∈ p.parts) : '/' ∉ part.toList := by
  obtain ⟨piece, hpiece, rfl⟩ := List.mem_map.mp h
  rw [String.toList_ofList]
  exact Splitting.not_mem_of_mem_splitOn hpiece

theorem parts_ofParts {parts : List String} (hslash : ∀ part ∈ parts, '/' ∉ part.toList)
    (hne : parts ≠ []) (hroot : parts ≠ [""]) : (ofParts parts).parts = parts := by
  have htext : ofParts parts = ⟨String.ofList (['/'].intercalate (parts.map String.toList))⟩ := by
    unfold ofParts
    split
    · exact absurd rfl hroot
    · rfl
  have hpieces : ∀ piece ∈ parts.map String.toList, '/' ∉ piece := by
    intro piece hpiece
    obtain ⟨part, hpart, rfl⟩ := List.mem_map.mp hpiece
    exact hslash part hpart
  rw [htext, FilePath.parts, String.toList_ofList,
    List.splitOn_intercalate '/' hpieces (by simpa using hne), List.map_map]
  have hid : String.ofList ∘ String.toList = id := funext fun _ => String.ofList_toList
  rw [hid, List.map_id]

theorem isAbsolute_iff {p : FilePath} (h : p.text ≠ "") :
    p.isAbsolute = true ↔ p.parts.head? = some "" := by
  unfold isAbsolute FilePath.parts
  cases htext : p.text.toList with
  | nil => exact absurd (String.toList_eq_nil_iff.mp htext) h
  | cons c cs =>
    rw [List.splitOn_cons_eq_if_modifyHead]
    by_cases hc : c = '/'
    · simp [hc]
    · obtain ⟨head, tail, hsplit⟩ := List.exists_cons_of_ne_nil (List.splitOn_ne_nil '/' cs)
      simp [hc, hsplit]

/-- The parts of a path but for the slashes at its end. They are followed to make a directory. -/
def endless (p : FilePath) : List String := p.parts.rdropWhile (· = "")

theorem exists_slashes (p : FilePath) :
    ∃ slashes, p.parts = endless p ++ slashes ∧ ∀ part ∈ slashes, part = "" := by
  refine ⟨p.parts.rtakeWhile (· = ""), List.rdropWhile_append_rtakeWhile.symm, fun part hpart => ?_⟩
  simpa using List.mem_rtakeWhile_imp hpart

theorem rdropWhile_stops {α : Type} (q : α → Bool) (front : List α) {a : α} (ha : ¬q a)
    (tail : List α) : ∃ rest, (front ++ a :: tail).rdropWhile q = front ++ a :: rest := by
  induction tail using List.reverseRecOn with
  | nil => exact ⟨[], List.rdropWhile_concat_neg q front a ha⟩
  | append_singleton tail b ih =>
    have hassoc : front ++ a :: (tail ++ [b]) = (front ++ a :: tail) ++ [b] := by simp
    rw [hassoc]
    by_cases hb : q b
    · rw [List.rdropWhile_concat_pos q _ b hb]
      exact ih
    · rw [List.rdropWhile_concat_neg q _ b hb]
      exact ⟨tail ++ [b], by simp⟩

theorem trimParts_cases (first : String) (others : List String) :
    trimParts (first :: others) = [first] ∨ ∃ init last tail, isIdle last = false ∧
      trimParts (first :: others) = first :: (init ++ [last]) ∧
      first :: others = first :: init ++ last :: tail := by
  have hothers := List.rdropWhile_append_rtakeWhile (p := isIdle) (l := others)
  have htrim : trimParts (first :: others) = first :: others.rdropWhile isIdle := rfl
  obtain hnone | ⟨init, last, hsome⟩ := List.eq_nil_or_concat (others.rdropWhile isIdle)
  · exact .inl (by rw [htrim, hnone])
  · rw [List.concat_eq_append] at hsome
    refine .inr ⟨init, last, others.rtakeWhile isIdle, ?_, by rw [htrim, hsome], ?_⟩
    · have hlast := List.rdropWhile_last_not isIdle others (by simp [hsome])
      simpa [hsome] using hlast
    · rw [hsome] at hothers
      simpa using congrArg (first :: ·) hothers.symm

theorem parent?_cases {p dir : FilePath} (h : p.parent? = some dir) : dir.text = "" ∨
    ∃ up idle last rest, up ≠ [] ∧ dir = ofParts up ∧ (∀ part ∈ idle, isIdle part = true) ∧
      endless p = up ++ idle ++ last :: rest := by
  unfold parent? at h
  obtain ⟨first, others, hparts⟩ : ∃ first others, p.parts = first :: others := by
    refine List.exists_cons_of_ne_nil ?_
    simp [FilePath.parts, List.splitOn_ne_nil]
  rw [hparts] at h
  obtain htrim | ⟨init, last, tail, hlast, htrim, hfull⟩ := trimParts_cases first others
  · rw [htrim] at h
    split at h
    · cases h
    · cases h
    · cases h
      exact .inl rfl
    · next hone => exact absurd rfl (hone first)
  · rw [htrim] at h
    split at h
    · cases h
    · next heq => simp at heq
    · next heq => simp at heq
    · rw [List.dropLast_cons_of_ne_nil (by simp), List.dropLast_concat] at h
      have hne : ¬(decide (last = "") = true) := by
        rw [decide_eq_true_iff]
        rintro rfl
        cases hlast
      obtain ⟨rest, hrest⟩ := rdropWhile_stops (fun part => part = "") (first :: init) hne tail
      have hinit := List.rdropWhile_append_rtakeWhile (p := isIdle) (l := init)
      refine .inr ⟨first :: init.rdropWhile isIdle, init.rtakeWhile isIdle, last, rest,
        List.cons_ne_nil _ _, (Option.some.inj h).symm, fun part => List.mem_rtakeWhile_imp, ?_⟩
      rw [endless, hparts, hfull, hrest, List.cons_append, List.cons_append, hinit]
      rfl

end Path

section Walk

theorem isDir_iff_locate {t : Tree} {p : FilePath} : t.isDir p = true ↔
    ∃ l, t.locate p = .ok l ∧ t.node? l = some .dir := by
  unfold Tree.isDir Tree.find
  cases hl : t.locate p with
  | error e => simp [bind, Except.bind]
  | ok l =>
    cases hn : t.node? l with
    | none => simp [bind, Except.bind, hn]
    | some n => cases n <;> simp [bind, Except.bind, hn]

theorem isDir_of_sameDirs {t t' : Tree} (h : SameDirs t t') {p : FilePath}
    (hp : t.isDir p = true) : t'.isDir p = true := by
  obtain ⟨l, hl, hn⟩ := isDir_iff_locate.mp hp
  exact isDir_iff_locate.mpr ⟨l, (locate_eq_ok_iff h).mp hl, (h l).mp hn⟩

theorem dir_of_step {t : Tree} {l k : Location} {part : String} (h : t.step l part = .ok k) :
    t.node? l = some .dir := by
  unfold Tree.step at h
  split at h
  · cases h
  · cases h
  · next hdir => exact hdir

theorem foldlM_idle {t : Tree} {idle : List String} (hidle : ∀ part ∈ idle, isIdle part = true)
    (l : Location) : (∃ k, idle.foldlM t.step l = .ok k ∧ t.node? k = some .dir) ↔
      t.node? l = some .dir := by
  induction idle with
  | nil => simp [pure, Except.pure]
  | cons part idle ih =>
    rw [List.forall_mem_cons] at hidle
    by_cases hl : t.node? l = some .dir
    · have hstep : t.step l part = .ok l := by simp [Tree.step, hl, hidle.1]
      simp only [List.foldlM_cons, hstep]
      exact ih hidle.2
    · refine ⟨?_, fun h => absurd h hl⟩
      rintro ⟨k, hk, -⟩
      rw [List.foldlM_cons, bind_eq_ok_iff] at hk
      obtain ⟨k', hstep, -⟩ := hk
      exact absurd (dir_of_step hstep) hl

theorem isDir_iff {t : Tree} {p : FilePath} : t.isDir p = true ↔
    ∃ l, t.walk p (endless p) = .ok l ∧ t.node? l = some .dir := by
  obtain ⟨slashes, hparts, hslashes⟩ := exists_slashes p
  have hidle : ∀ part ∈ slashes, isIdle part = true := by
    intro part hpart
    rw [hslashes part hpart]
    rfl
  rw [isDir_iff_locate]
  unfold Tree.locate Tree.walk
  by_cases hempty : p.text = ""
  · simp [hempty]
  · simp only [if_neg hempty]
    rw [hparts]
    simp only [List.foldlM_append, bind_eq_ok_iff]
    constructor
    · rintro ⟨k, ⟨l, hl, hk⟩, hn⟩
      exact ⟨l, hl, (foldlM_idle hidle l).mp ⟨k, hk, hn⟩⟩
    · rintro ⟨l, hl, hn⟩
      obtain ⟨k, hk, hn⟩ := (foldlM_idle hidle l).mpr hn
      exact ⟨k, ⟨l, hl, hk⟩, hn⟩

theorem dir_of_foldlM {t : Tree} {up idle rest : List String} {last : String} {k l : Location}
    (hidle : ∀ part ∈ idle, isIdle part = true)
    (h : (up ++ idle ++ last :: rest).foldlM t.step k = .ok l) :
    ∃ j, up.foldlM t.step k = .ok j ∧ t.node? j = some .dir := by
  rw [List.foldlM_append, bind_eq_ok_iff] at h
  obtain ⟨i, hi, hlast⟩ := h
  rw [List.foldlM_cons, bind_eq_ok_iff] at hlast
  obtain ⟨i', hstep, -⟩ := hlast
  rw [List.foldlM_append, bind_eq_ok_iff] at hi
  obtain ⟨j, hj, hi⟩ := hi
  exact ⟨j, hj, (foldlM_idle hidle j).mp ⟨i, hi, dir_of_step hstep⟩⟩

theorem walk_ofParts {t : Tree} {p : FilePath} {up more : List String} (hp : p.text ≠ "")
    (hparts : p.parts = up ++ more) (hne : up ≠ []) (hroot : up ≠ [""])
    (htext : (ofParts up).text ≠ "") : t.locate (ofParts up) = t.walk p up := by
  have hslash : ∀ part ∈ up, '/' ∉ part.toList := by
    intro part hpart
    apply slash_not_mem (p := p)
    simp [hparts, hpart]
  have hup : (ofParts up).parts = up := parts_ofParts hslash hne hroot
  have habsolute : (ofParts up).isAbsolute = p.isAbsolute := by
    rw [Bool.eq_iff_iff, isAbsolute_iff htext, isAbsolute_iff hp, hup, hparts]
    obtain ⟨first, others, rfl⟩ := List.exists_cons_of_ne_nil hne
    rfl
  rw [Tree.locate, Tree.walk, Tree.walk, if_neg htext, if_neg hp, habsolute, hup]

theorem isDir_of_parent? {t : Tree} {p dir : FilePath} {l : Location} (hdir : p.parent? = some dir)
    (hl : t.walk p (endless p) = .ok l) : dir.text = "" ∨ t.isDir dir = true := by
  obtain hempty | ⟨up, idle, last, rest, hne, rfl, hidle, hparts⟩ := parent?_cases hdir
  · exact .inl hempty
  · by_cases htext : (ofParts up).text = ""
    · exact .inl htext
    · apply Or.inr
      by_cases hroot : up = [""]
      · rw [hroot]
        rfl
      · have hp : p.text ≠ "" := by
          intro hp
          simp [Tree.walk, hp] at hl
        obtain ⟨slashes, hfull, -⟩ := exists_slashes p
        rw [hparts, List.append_assoc, List.append_assoc] at hfull
        rw [Tree.walk, if_neg hp, hparts] at hl
        obtain ⟨j, hj, hdir⟩ := dir_of_foldlM hidle hl
        refine isDir_iff_locate.mpr ⟨j, ?_, hdir⟩
        rw [walk_ofParts hp hfull hne hroot htext, Tree.walk, if_neg hp]
        exact hj

end Walk

theorem isDir_of_makeDir {t t' : Tree} {p : FilePath} (h : t.makeDir p = .ok t') :
    t'.isDir p = true := by
  obtain ⟨l, hl, h⟩ := bind_eq_ok_iff.mp h
  split at h
  · cases h
  case h_2 hnone =>
    cases h
    have hfree : t.node? l ≠ some .dir := by simp [hnone]
    have hnames : l.names ≠ [] := names_ne_nil hfree
    refine isDir_iff.mpr ⟨l, walk_of_dirs (fun k hk => ?_) hl, node?_insert_self t hnames _⟩
    rw [node?_insert hnames]
    by_cases hkl : k = l
    · rw [if_pos hkl]
    · rw [if_neg hkl, hk]

theorem makeDir_of_isDir {t : Tree} {p : FilePath} (h : t.isDir p = true) :
    t.makeDir p = .error .present := by
  obtain ⟨l, hl, hn⟩ := isDir_iff.mp h
  have hl : t.walk p (p.parts.reverse.dropWhile (· = "")).reverse = .ok l := hl
  simp [Tree.makeDir, hl, hn, bind, Except.bind]

abbrev ensureDir (p : FilePath) : StateM Tree (Except FileError Unit) := Files.ensureDir p

abbrev makeDirsUpTo (n : Nat) (p : FilePath) : StateM Tree (Except FileError Unit) :=
  Files.makeDirsUpTo n p

theorem bind_apply {α β : Type} (x : StateM Tree α) (f : α → StateM Tree β) (t : Tree) :
    (x >>= f) t = f (x t).1 (x t).2 := rfl

theorem ensureDir_eq (p : FilePath) (t : Tree) : ensureDir p t = match t.makeDir p with
    | .ok t' => (.ok (), t')
    | .error e => (if t.isDir p then .ok () else .error e, t) := by
  have hmake : (Files.makeDir p : StateM Tree (Except FileError Unit)) t =
      attempt (·.makeDir p) t := rfl
  rw [ensureDir, Files.ensureDir, bind_apply, hmake]
  cases h : t.makeDir p with
  | ok t' =>
    simp only [attempt, h]
    rfl
  | error e =>
    have hlook : (Files.isDir p : StateM Tree Bool) t = (t.isDir p, t) := rfl
    simp only [attempt, h]
    rw [bind_apply, hlook]
    by_cases hdir : t.isDir p = true
    · rw [if_pos hdir, if_pos hdir]
      rfl
    · rw [if_neg hdir, if_neg hdir]
      rfl

theorem makeDirsUpTo_succ (n : Nat) (p : FilePath) (t : Tree) :
    makeDirsUpTo (n + 1) p t = if p.text = "" then (.ok (), t)
      else match ensureDir p t, p.parent? with
        | (.error .missing, t₁), some dir => match makeDirsUpTo n dir t₁ with
          | (.ok (), t₂) => ensureDir p t₂
          | (.error e, t₂) => (.error e, t₂)
        | r, _ => r := by
  by_cases hp : p.text = ""
  · rw [makeDirsUpTo, Files.makeDirsUpTo, if_pos hp, if_pos hp]
    rfl
  · have hens : (Files.ensureDir p : StateM Tree (Except FileError Unit)) = ensureDir p := rfl
    rw [makeDirsUpTo, Files.makeDirsUpTo, if_neg hp, if_neg hp, bind_apply, hens]
    rcases ensureDir p t with ⟨(e | ⟨⟩), t₁⟩
    · cases e with
      | missing =>
        cases p.parent? with
        | none => rfl
        | some dir =>
          have hdirs : (Files.makeDirsUpTo n dir : StateM Tree (Except FileError Unit)) =
              makeDirsUpTo n dir := rfl
          dsimp only
          rw [bind_apply, hdirs]
          rcases makeDirsUpTo n dir t₁ with ⟨(e | ⟨⟩), t₂⟩
          · rfl
          · rfl
      | notDirectory | isDirectory | present | other => rfl
    · rfl

section Ensure

variable {p : FilePath} {t t' : Tree}

theorem ensureDir_of_isDir (h : t.isDir p = true) : ensureDir p t = (.ok (), t) := by
  rw [ensureDir_eq, makeDir_of_isDir h]
  dsimp only
  rw [if_pos h]

theorem ensureDir_cases (h : ensureDir p t = (.ok (), t')) :
    t.makeDir p = .ok t' ∨ t.isDir p = true ∧ t' = t := by
  rw [ensureDir_eq] at h
  split at h
  · next hmake =>
    cases h
    exact .inl hmake
  · by_cases hdir : t.isDir p = true
    · exact .inr ⟨hdir, (Prod.mk.inj h).2.symm⟩
    · rw [if_neg hdir] at h
      cases h

theorem isDir_of_ensureDir (h : ensureDir p t = (.ok (), t')) : t'.isDir p = true := by
  obtain hmake | ⟨hdir, rfl⟩ := ensureDir_cases h
  · exact isDir_of_makeDir hmake
  · exact hdir

theorem walk_of_ensureDir (h : ensureDir p t = (.ok (), t')) :
    ∃ l, t.walk p (endless p) = .ok l := by
  obtain hmake | ⟨hdir, -⟩ := ensureDir_cases h
  · obtain ⟨l, hl, -⟩ := bind_eq_ok_iff.mp hmake
    exact ⟨l, hl⟩
  · obtain ⟨l, hl, -⟩ := isDir_iff.mp hdir
    exact ⟨l, hl⟩

theorem eq_of_ensureDir {e : FileError} (h : ensureDir p t = (.error e, t')) : t' = t := by
  rw [ensureDir_eq] at h
  split at h
  · cases h
  · exact (Prod.mk.inj h).2.symm

end Ensure

section Repeat

variable {n : Nat} {p : FilePath} {t t' : Tree}

theorem isDir_of_makeDirsUpTo (h : makeDirsUpTo n p t = (.ok (), t')) :
    p.text = "" ∨ t'.isDir p = true := by
  cases n with
  | zero => cases h
  | succ n =>
    by_cases hp : p.text = ""
    · exact .inl hp
    · apply Or.inr
      rw [makeDirsUpTo_succ, if_neg hp] at h
      split at h
      · split at h
        · exact isDir_of_ensureDir h
        · cases h
      · exact isDir_of_ensureDir h

theorem makeDirsUpTo_of_isDir (h : p.text = "" ∨ t.isDir p = true) :
    makeDirsUpTo (n + 1) p t = (.ok (), t) := by
  rw [makeDirsUpTo_succ]
  by_cases hp : p.text = ""
  · rw [if_pos hp]
  · rw [if_neg hp, ensureDir_of_isDir (h.resolve_left hp)]

def Stuck (n : Nat) (p : FilePath) (t : Tree) : Prop := ∃ e, makeDirsUpTo n p t = (.error e, t)

theorem stuck_of_ensureDir {e : FileError} (hp : p.text ≠ "") (h : ensureDir p t = (.error e, t))
    (habove : ∀ dir, p.parent? = some dir → Stuck n dir t ∨ makeDirsUpTo n dir t = (.ok (), t)) :
    Stuck (n + 1) p t := by
  unfold Stuck
  rw [makeDirsUpTo_succ, if_neg hp, h]
  split
  · next dir heq hdir =>
    cases heq
    obtain ⟨e', he'⟩ | hok := habove dir hdir
    · rw [he']
      exact ⟨e', rfl⟩
    · rw [hok]
      exact ⟨_, h⟩
  · exact ⟨e, rfl⟩

/-- Directories that could not be made cannot be made afterwards either. -/
theorem stuck_of_error {e : FileError} (h : makeDirsUpTo n p t = (.error e, t')) :
    Stuck n p t' := by
  induction n generalizing p t t' e with
  | zero =>
    cases h
    exact ⟨_, rfl⟩
  | succ n ih =>
    have hp : p.text ≠ "" := by
      intro hp
      rw [makeDirsUpTo_succ, if_pos hp] at h
      cases h
    have hfirst := h
    rw [makeDirsUpTo_succ, if_neg hp] at h
    rcases hens : ensureDir p t with ⟨r, t₁⟩
    rw [hens] at h
    split at h
    · next dir heq hdir =>
      cases heq
      obtain rfl := eq_of_ensureDir hens
      split at h
      · next t₂ hdirs =>
        obtain rfl := eq_of_ensureDir h
        refine stuck_of_ensureDir hp h fun dir' hdir' => .inr ?_
        obtain rfl : dir = dir' := Option.some.inj (hdir.symm.trans hdir')
        cases n with
        | zero => cases hdirs
        | succ n => exact makeDirsUpTo_of_isDir (isDir_of_makeDirsUpTo hdirs)
      · next e₂ t₂ hdirs =>
        cases h
        have hstuck : Stuck n dir t' := ih hdirs
        rcases hagain : ensureDir p t' with ⟨(e₃ | ⟨⟩), t₃⟩
        · obtain rfl := eq_of_ensureDir hagain
          refine stuck_of_ensureDir hp hagain fun dir' hdir' => .inl ?_
          obtain rfl : dir = dir' := Option.some.inj (hdir.symm.trans hdir')
          exact hstuck
        · obtain ⟨l, hl⟩ := walk_of_ensureDir hagain
          cases n with
          | zero =>
            cases hdirs
            cases hens.symm.trans hagain
          | succ n =>
            obtain ⟨e', he'⟩ := hstuck
            cases he'.symm.trans (makeDirsUpTo_of_isDir (isDir_of_parent? hdir hl))
    · cases h
      obtain rfl := eq_of_ensureDir hens
      exact ⟨e, hfirst⟩

end Repeat

end PlainTwin.Directories
