import Mathlib.Data.List.Basic
import PlainTwin.Json.Reader

namespace PlainTwin.StringText

open Octet

def octetsOf (c : Char) : Octets := ofBytes (String.utf8EncodeChar c)

theorem octetsOf_of_lt {c : Char} (h : c.toNat < 128) : octetsOf c = [c] := by
  have hv : c.val.toNat ≤ 0x7f := Nat.le_of_lt_succ h
  have hbyte : (UInt8.ofNat c.val.toNat).toNat = c.toNat :=
    UInt8.toNat_ofNat_of_lt (Nat.lt_trans h (by decide))
  simp only [octetsOf, ofBytes, String.utf8EncodeChar, if_pos hv, List.map_cons, List.map_nil, hbyte,
    Char.ofNat_toNat]

theorem flatMap_octetsOf {cs : List Char} (h : ∀ c ∈ cs, c.toNat < 128) :
    cs.flatMap octetsOf = cs := by
  induction cs with
  | nil => rfl
  | cons c cs ih =>
      rw [List.forall_mem_cons] at h
      rw [List.flatMap_cons, octetsOf_of_lt h.1, ih h.2, List.singleton_append]

theorem loop_eq (bs : ByteArray) (n i : Nat) (seen : List UInt8) (h : i + n = bs.data.toList.length) :
    ByteArray.toList.loop bs i seen = seen.reverse ++ bs.data.toList.drop i := by
  induction n generalizing i seen with
  | zero =>
      have hend : bs.data.toList.length ≤ i := by omega
      rw [ByteArray.toList.loop, if_neg (show ¬ i < bs.size from Nat.not_lt.mpr hend),
        List.drop_eq_nil_of_le hend, List.append_nil]
  | succ n ih =>
      have hi : i < bs.data.toList.length := by omega
      have hbyte : bs.get! i = bs.data.toList[i] := getElem!_pos bs.data i hi
      rw [ByteArray.toList.loop, if_pos (show i < bs.size from hi), ih (i + 1) _ (by omega),
        List.drop_eq_getElem_cons hi, hbyte, List.reverse_cons, List.append_assoc]
      rfl

theorem toList_eq (bs : ByteArray) : bs.toList = bs.data.toList :=
  loop_eq bs bs.data.toList.length 0 [] (Nat.zero_add _)

theorem ofString_ofList (cs : List Char) : ofString (String.ofList cs) = cs.flatMap octetsOf := by
  have hbytes : (String.ofList cs).toUTF8.toList = cs.flatMap String.utf8EncodeChar := by
    rw [toList_eq, String.toUTF8_eq_toByteArray, String.toByteArray_ofList, List.utf8Encode,
      List.data_toByteArray]
  unfold ofString ofBytes
  rw [hbytes, List.map_flatMap]
  rfl

theorem ofString_eq (s : String) : ofString s = s.toList.flatMap octetsOf := by
  rw [← ofString_ofList, String.ofList_toList]

theorem ofString_append (s t : String) : ofString (s ++ t) = ofString s ++ ofString t := by
  simp only [ofString_eq, String.toList_append, List.flatMap_append]

theorem toNat_ofByte (b : UInt8) : (Char.ofNat b.toNat).toNat = b.toNat := by
  have hb : b.toNat < 256 := b.toNat_lt
  rw [Char.ofNat, dif_pos (.inl (by omega))]
  rfl

theorem le_of_mem_octetsOf {c o : Char} (h : 128 ≤ c.toNat) (ho : o ∈ octetsOf c) :
    128 ≤ o.toNat := by
  have hv : ¬ c.val.toNat ≤ 0x7f := Nat.not_le_of_lt h
  obtain ⟨b, hb, rfl⟩ := List.mem_map.mp ho
  have hle : 128 ≤ b.toNat := by
    unfold String.utf8EncodeChar at hb
    simp only [if_neg hv] at hb
    split at hb
    · rcases List.mem_pair.mp hb with rfl | rfl <;> rw [UInt8.toNat_ofNat'] <;> omega
    · split at hb <;> simp only [List.mem_cons, List.not_mem_nil, or_false] at hb
      · rcases hb with rfl | rfl | rfl <;> rw [UInt8.toNat_ofNat'] <;> omega
      · rcases hb with rfl | rfl | rfl | rfl <;> rw [UInt8.toNat_ofNat'] <;> omega
  rw [toNat_ofByte]
  exact hle

theorem toBytes_ofString (s : String) : toBytes (ofString s) = s.toByteArray := by
  have hbyte : (fun c : Char => c.toNat.toUInt8) ∘ (fun b : UInt8 => Char.ofNat b.toNat) = id :=
    funext fun b => (congrArg Nat.toUInt8 (toNat_ofByte b)).trans UInt8.ofNat_toNat
  unfold toBytes ofString ofBytes
  rw [List.map_map, hbyte, List.map_id, toList_eq]
  rfl

theorem decode?_ofString (s : String) : decode? (ofString s) = some s := by
  rw [decode?, toBytes_ofString, String.fromUTF8?, dif_pos s.isValidUTF8]
  rfl

/-- A piece of the text of a string is read as certain bytes, whatever follows it. -/
structure Passes (piece bytes : Octets) : Prop where
  read : ∀ r, readString (piece ++ r) = (bytes ++ ·) <$> readString r
  skip : ∀ r, skipString (piece ++ r) = skipString r

theorem Passes.nil : Passes [] [] where
  read r := (id_map (readString r)).symm
  skip _ := rfl

theorem Passes.append {p q bs cs : Octets} (hp : Passes p bs) (hq : Passes q cs) :
    Passes (p ++ q) (bs ++ cs) where
  read r := by
    rw [List.append_assoc, hp.read, hq.read, Functor.map_map]
    simp only [List.append_assoc]
  skip r := by rw [List.append_assoc, hp.skip, hq.skip]

theorem Passes.flatMap {α : Type} {f g : α → Octets} {xs : List α} (h : ∀ x ∈ xs, Passes (f x) (g x)) :
    Passes (xs.flatMap f) (xs.flatMap g) := by
  induction xs with
  | nil => exact .nil
  | cons x xs ih =>
      rw [List.forall_mem_cons] at h
      exact h.1.append (ih h.2)

def IsPlain (c : Char) : Prop := c ≠ '"' ∧ c ≠ '\\' ∧ ¬ c < ' '

theorem passes_plain {c : Char} (h : IsPlain c) : Passes [c] [c] := by
  obtain ⟨hquote, hslash, hspace⟩ := h
  constructor
  · intro r
    have hread : readString (c :: r) =
        if c < ' ' then .error .syntactic else (c :: ·) <$> readString r := by
      rw [readString.eq_def]
      split <;> simp_all
    exact hread.trans (if_neg hspace)
  · intro r
    have hskip : skipString (c :: r) = if c < ' ' then .error .syntactic else skipString r := by
      rw [skipString.eq_def]
      split <;> simp_all
    exact hskip.trans (if_neg hspace)

theorem isPlain_of_le {c : Char} (h : 128 ≤ c.toNat) : IsPlain c := by
  refine ⟨?_, ?_, fun hc => ?_⟩
  · rintro rfl
    exact absurd h (by decide)
  · rintro rfl
    exact absurd h (by decide)
  · have hlt : c.toNat < 32 := hc
    omega

theorem passes_octetsOf {c : Char} (h : IsPlain c) : Passes (octetsOf c) (octetsOf c) := by
  -- A quote, a backslash or a control character is one octet below 128, never a part of another.
  have hplain : ∀ o ∈ octetsOf c, IsPlain o := by
    intro o ho
    by_cases hc : c.toNat < 128
    · rw [octetsOf_of_lt hc, List.mem_singleton] at ho
      exact ho ▸ h
    · exact isPlain_of_le (le_of_mem_octetsOf (Nat.le_of_not_lt hc) ho)
  simpa only [List.flatMap_singleton'] using
    Passes.flatMap fun o ho => passes_plain (hplain o ho)

theorem passes_short {c e : Char} (h : shortEscape? e = some c) :
    Passes (['\\', e].flatMap octetsOf) (octetsOf c) := by
  unfold shortEscape? at h
  split at h <;> cases h
  all_goals exact ⟨fun r => rfl, fun r => rfl⟩

theorem digits_control : ∀ n < 32,
    ('\\' :: 'u' :: List.replicate (4 - (Nat.toDigits 16 n).length) '0' ++
      Nat.toDigits 16 n).flatMap octetsOf =
        ['\\', 'u', '0', '0', Nat.digitChar (n / 16), Nat.digitChar (n % 16)] ∧
    unit? '0' '0' (Nat.digitChar (n / 16)) (Nat.digitChar (n % 16)) = some n := by
  decide

theorem passes_unit {a b d e : Char} {n : Nat} (hn : n < 32) (h : unit? a b d e = some n) :
    Passes ['\\', 'u', a, b, d, e] (octetsOf (Char.ofNat n)) where
  read r := by
    have hlead : isLeading n = false := by
      simp only [isLeading, Bool.and_eq_false_iff, decide_eq_false_iff_not]
      omega
    have htrail : isTrailing n = false := by
      simp only [isTrailing, Bool.and_eq_false_iff, decide_eq_false_iff_not]
      omega
    have hchar : ofString (Char.ofNat n).toString = octetsOf (Char.ofNat n) := by
      rw [ofString_eq]
      simp
    simp only [List.cons_append, List.nil_append, readString, h, hlead, htrail, hchar]
    rfl
  skip r := by
    simp only [List.cons_append, List.nil_append, skipString, h, Option.isSome_some, if_true]

theorem passes_escape (c : Char) : Passes ((Json.escape c).flatMap octetsOf) (octetsOf c) := by
  unfold Json.escape
  split
  · next h => subst h; exact passes_short rfl
  next hquote =>
  split
  · next h => subst h; exact passes_short rfl
  next hslash =>
  iterate 5
    split
    · next h => subst h; exact passes_short rfl
  split
  · next hspace =>
      have hlt : c.toNat < 32 := hspace
      obtain ⟨htext, hunit⟩ := digits_control c.toNat hlt
      have hpass := passes_unit hlt hunit
      rw [Char.ofNat_toNat, ← htext] at hpass
      exact hpass
  · next hspace =>
      simpa only [List.flatMap_singleton] using passes_octetsOf ⟨hquote, hslash, hspace⟩

def body (s : String) : Octets := (s.toList.flatMap Json.escape).flatMap octetsOf

theorem ofString_renderString (s : String) :
    ofString (Json.renderString s) = '"' :: (body s ++ ['"']) := by
  have hquote : octetsOf '"' = ['"'] := octetsOf_of_lt (by decide)
  simp only [Json.renderString, ofString_ofList, List.flatMap_append, List.flatMap_cons,
    List.flatMap_nil, hquote, body, List.nil_append, List.append_nil, List.cons_append]

theorem passes_body (s : String) : Passes (body s) (ofString s) := by
  rw [ofString_eq, body, List.flatMap_assoc]
  exact .flatMap fun c _ => passes_escape c

/-- A string that was written is read to its closing quote, as what it was. -/
theorem text_body (s : String) (r : Octets) :
    Doc.text (body s ++ '"' :: r) = (.ok (some s), .ok r) := by
  have hread : readString (body s ++ '"' :: r) = .ok (ofString s) := by
    rw [(passes_body s).read]
    exact congrArg Except.ok (List.append_nil _)
  have hskip : skipString (body s ++ '"' :: r) = .ok r := (passes_body s).skip _
  simp only [Doc.text, hread, hskip, decode?_ofString]

end PlainTwin.StringText
