import Mathlib.Data.List.TakeWhile
import PlainTwin.Text.CharSet

namespace PlainTwin.Splitting

variable {α : Type} [DecidableEq α]

theorem not_mem_of_mem_splitOn {sep : α} {l piece : List α} (h : piece ∈ l.splitOn sep) :
    sep ∉ piece := by
  induction l generalizing piece with
  | nil =>
    obtain rfl : piece = [] := by simpa using h
    exact List.not_mem_nil
  | cons a l ih =>
    rw [List.splitOn_cons_eq_if_modifyHead] at h
    split at h
    · rcases List.mem_cons.mp h with rfl | h
      · exact List.not_mem_nil
      · exact ih h
    · next ha =>
      obtain ⟨head, tail, hsplit⟩ := List.exists_cons_of_ne_nil (List.splitOn_ne_nil sep l)
      rw [hsplit] at h ih
      rcases List.mem_cons.mp h with rfl | h
      · rw [List.mem_cons, not_or]
        exact ⟨fun heq => ha (beq_iff_eq.mpr heq.symm), ih List.mem_cons_self⟩
      · exact ih (List.mem_cons_of_mem head h)

end PlainTwin.Splitting

namespace PlainTwin.Trimming

open Text

def IsWhiteSpace (c : Char) : Prop :=
  (9 ≤ c.toNat ∧ c.toNat ≤ 13) ∨ c.toNat = 0x20 ∨ c.toNat = 0x85 ∨ c.toNat = 0xA0 ∨
    c.toNat = 0x1680 ∨ (0x2000 ≤ c.toNat ∧ c.toNat ≤ 0x200A) ∨ c.toNat = 0x2028 ∨
    c.toNat = 0x2029 ∨ c.toNat = 0x202F ∨ c.toNat = 0x205F ∨ c.toNat = 0x3000

structure Trims (cs text : List Char) : Prop where
  parts : ∃ before after, cs = before ++ text ++ after ∧ (∀ c ∈ before, IsWhiteSpace c) ∧
    ∀ c ∈ after, IsWhiteSpace c
  head : ∀ c ∈ text.head?, ¬ IsWhiteSpace c
  last : ∀ c ∈ text.getLast?, ¬ IsWhiteSpace c

/-- The code point `n` is in a set whose runs begin at `start`. -/
def HoldsFrom (runs : CharSet) (start n : Nat) : Prop := start ≤ n ∧ runs.holds (n - start) = true

theorem holdsFrom_nil (start n : Nat) : HoldsFrom [] start n ↔ False := by
  simp [HoldsFrom, CharSet.holds]

theorem holdsFrom_cons_cons (gap length : Nat) (runs : CharSet) (start n : Nat) :
    HoldsFrom (gap :: length :: runs) start n ↔
      (start + gap ≤ n ∧ n < start + gap + length) ∨
        HoldsFrom runs (start + gap + length) n := by
  unfold HoldsFrom
  rcases Nat.lt_or_ge n (start + gap) with hgap | hgap
  · constructor
    · rintro ⟨hstart, h⟩
      rw [CharSet.holds_cons_of_lt _ (by omega)] at h
      cases h
    · rintro (h | h) <;> omega
  · obtain ⟨j, rfl⟩ := Nat.exists_eq_add_of_le hgap
    have hj : start + gap + j - start = gap + j := by omega
    rw [hj, CharSet.holds_cons_add]
    rcases Nat.lt_or_ge j length with hlen | hlen
    · rw [CharSet.holds_cons_of_lt _ hlen]
      exact iff_of_true ⟨by omega, rfl⟩ (.inl ⟨by omega, by omega⟩)
    · obtain ⟨i, rfl⟩ := Nat.exists_eq_add_of_le hlen
      have hi : start + gap + (length + i) - (start + gap + length) = i := by omega
      rw [CharSet.holds_cons_add, hi, Bool.not_not]
      constructor
      · exact fun h => .inr ⟨by omega, h.2⟩
      · rintro (h | h)
        · omega
        · exact ⟨by omega, h.2⟩

theorem isBlank_iff (c : Char) : isBlank c = true ↔ IsWhiteSpace c := by
  have hruns : isBlank c = true ↔ HoldsFrom whiteSpace 0 c.toNat := by
    simp [isBlank, CharSet.contains, HoldsFrom]
  rw [hruns, whiteSpace]
  simp only [holdsFrom_cons_cons, holdsFrom_nil, IsWhiteSpace, or_false]
  omega

theorem trimStart_eq_iff {cs text : List Char} : trimStart cs = text ↔
    ∃ before, cs = before ++ text ∧ (∀ c ∈ before, IsWhiteSpace c) ∧
      ∀ c ∈ text.head?, ¬ IsWhiteSpace c := by
  constructor
  · rintro rfl
    refine ⟨cs.takeWhile isBlank, List.takeWhile_append_dropWhile.symm, ?_, ?_⟩
    · intro c hc
      exact (isBlank_iff c).mp (List.mem_takeWhile_imp hc)
    · intro c hc hblank
      have hnot := List.head?_dropWhile_not isBlank cs
      rw [trimStart, Option.mem_def] at hc
      rw [hc] at hnot
      exact Bool.eq_false_iff.mp hnot ((isBlank_iff c).mpr hblank)
  · rintro ⟨before, rfl, hbefore, hhead⟩
    rw [trimStart, List.dropWhile_append_of_pos fun c hc => (isBlank_iff c).mpr (hbefore c hc)]
    cases text with
    | nil => rfl
    | cons c cs =>
        apply List.dropWhile_cons_of_neg
        rw [isBlank_iff]
        exact hhead c rfl

theorem trimEnd_eq_iff {cs text : List Char} : trimEnd cs = text ↔
    ∃ after, cs = text ++ after ∧ (∀ c ∈ after, IsWhiteSpace c) ∧
      ∀ c ∈ text.getLast?, ¬ IsWhiteSpace c := by
  rw [trimEnd, List.reverse_eq_iff, trimStart_eq_iff]
  constructor
  · rintro ⟨before, hcs, hbefore, hlast⟩
    refine ⟨before.reverse, ?_, ?_, ?_⟩
    · rw [← List.reverse_reverse cs, hcs, List.reverse_append, List.reverse_reverse]
    · simpa using hbefore
    · simpa using hlast
  · rintro ⟨after, rfl, hafter, hlast⟩
    exact ⟨after.reverse, List.reverse_append, by simpa using hafter, by simpa using hlast⟩

theorem trim_eq_iff {cs text : List Char} : trim cs = text ↔ Trims cs text := by
  constructor
  · intro h
    obtain ⟨before, hcs, hbefore, hhead⟩ := trimStart_eq_iff.mp (rfl : trimStart cs = trimStart cs)
    obtain ⟨after, hmid, hafter, hlast⟩ := trimEnd_eq_iff.mp h
    refine ⟨⟨before, after, ?_, hbefore, hafter⟩, ?_, hlast⟩
    · rw [List.append_assoc, ← hmid, ← hcs]
    · intro c hc
      apply hhead
      rw [hmid, List.head?_append, Option.mem_def.mp hc]
      rfl
  · rintro ⟨⟨before, after, hcs, hbefore, hafter⟩, hhead, hlast⟩
    rw [List.append_assoc] at hcs
    cases text with
    | nil =>
        have hstart : trimStart cs = [] := by
          refine trimStart_eq_iff.mpr ⟨before ++ after, by simpa using hcs, ?_, hhead⟩
          intro c hc
          exact (List.mem_append.mp hc).elim (hbefore c) (hafter c)
        rw [trim, hstart]
        rfl
    | cons c text =>
        have hstart : trimStart cs = c :: text ++ after :=
          trimStart_eq_iff.mpr ⟨before, hcs, hbefore, hhead⟩
        exact trimEnd_eq_iff.mpr ⟨after, hstart, hafter, hlast⟩

theorem trim_eq_nil_iff {cs : List Char} : trim cs = [] ↔ ∀ c ∈ cs, IsWhiteSpace c := by
  rw [trim_eq_iff]
  constructor
  · rintro ⟨⟨before, after, rfl, hbefore, hafter⟩, -, -⟩ c hc
    rw [List.append_nil] at hc
    exact (List.mem_append.mp hc).elim (hbefore c) (hafter c)
  · intro h
    exact ⟨⟨cs, [], by simp, h, by simp⟩, by simp, by simp⟩

end PlainTwin.Trimming
