import Mathlib.Tactic.IntervalCases
import WorkflowClient.Uuid

/-! Identifiers are read back from their texts. -/
namespace WorkflowClient.Uuid

variable {n d : Nat} {c : Char}

theorem hexDigit?_digitChar (h : d < 16) : hexDigit? d.digitChar = some d := by
  interval_cases d <;> decide

theorem readHex_append (value : Nat) (xs ys : List Char) :
    readHex value (xs ++ ys) = (readHex value xs).bind fun v => readHex v ys := by
  induction xs generalizing value with
  | nil => rfl
  | cons c rest ih =>
    rw [List.cons_append, readHex, readHex]
    cases hexDigit? c with
    | none => rfl
    | some d => exact ih _

theorem readHex_toDigits (n : Nat) : readHex 0 (Nat.toDigits 16 n) = some n := by
  induction n using Nat.strong_induction_on with
  | _ n ih =>
    by_cases hn : n < 16
    · rw [Nat.toDigits_of_lt_base hn]
      simp [readHex, hexDigit?_digitChar hn]
    · have hd : n % 16 < 16 := Nat.mod_lt _ (by decide)
      rw [Nat.toDigits_of_base_le (by decide) (by omega), readHex_append, ih (n / 16) (by omega)]
      simp only [Option.bind_some, readHex, hexDigit?_digitChar hd]
      congr 1
      omega

theorem readHex_zeros (k : Nat) (cs : List Char) :
    readHex 0 (List.replicate k '0' ++ cs) = readHex 0 cs := by
  induction k with
  | zero => rfl
  | succ k ih => exact ih

theorem length_hex (hn : n < 16 ^ 32) : (Text.hex 32 n).length = 32 := by
  have hlen : (Nat.toDigits 16 n).length ≤ 32 :=
    (Nat.length_toDigits_le_iff (by decide) (by decide)).mpr hn
  rw [Text.hex, List.length_append, List.length_replicate]
  omega

theorem ofHex?_hex (u : Uuid) : ofHex? (Text.hex 32 u.value) = some u := by
  obtain ⟨n, hn⟩ := u
  have hlt : n < 16 ^ 32 := hn
  rw [ofHex?, if_pos (length_hex hlt), Text.hex, readHex_zeros, readHex_toDigits]
  simp [hn]

theorem ofHyphenated?_groups {a b c d e : List Char} (ha : a.length = 8) (hb : b.length = 4)
    (hc : c.length = 4) (hd : d.length = 4) (he : e.length = 12) :
    ofHyphenated? (a ++ '-' :: b ++ '-' :: c ++ '-' :: d ++ '-' :: e) =
      ofHex? (a ++ b ++ c ++ d ++ e) := by
  have hlen : (a ++ '-' :: b ++ '-' :: c ++ '-' :: d ++ '-' :: e).length = 36 := by
    simp [ha, hb, hc, hd, he]
  unfold ofHyphenated?
  rw [if_pos ⟨hlen, by simp [List.getElem?_append, ha, hb, hc, hd]⟩]
  congr 1
  simp (disch := omega) [List.drop_append, List.drop_of_length_le, ha, hb, hc, hd]

theorem isHexDigit_of_mem_toDigits (h : c ∈ Nat.toDigits 16 n) : ∃ d < 16, c = Nat.digitChar d := by
  induction n using Nat.strong_induction_on with
  | _ n ih =>
    by_cases hn : n < 16
    · rw [Nat.toDigits_of_lt_base hn, List.mem_singleton] at h
      exact ⟨n, hn, h⟩
    · rw [Nat.toDigits_of_base_le (by decide) (by omega), List.mem_append, List.mem_singleton] at h
      rcases h with h | h
      · exact ih (n / 16) (by omega) h
      · exact ⟨n % 16, Nat.mod_lt _ (by decide), h⟩

theorem isHexDigit_of_mem_hex {width : Nat} (h : c ∈ Text.hex width n) :
    ∃ d < 16, c = Nat.digitChar d := by
  rcases List.mem_append.mp h with h | h
  · exact ⟨0, by decide, List.eq_of_mem_replicate h⟩
  · exact isHexDigit_of_mem_toDigits h

/-- Texts of identifiers begin with neither a brace nor the name of their space. -/
theorem ofChars?_eq_ofHyphenated? {cs : List Char} (hc : ∃ d < 16, c = Nat.digitChar d)
    (hl : (c :: cs).length = 36) : ofChars? (c :: cs) = ofHyphenated? (c :: cs) := by
  obtain ⟨d, hd, rfl⟩ := hc
  have hbrace : d.digitChar ≠ '{' := by interval_cases d <;> decide
  have hu : d.digitChar ≠ 'u' := by interval_cases d <;> decide
  unfold ofChars?
  split
  · simp_all
  · simp_all
  · rw [if_neg (by omega)]

theorem ofChars?_chars (u : Uuid) : ofChars? u.chars = some u := by
  have hlen : (Text.hex 32 u.value).length = 32 := length_hex u.value_lt
  have hgroups : ofHyphenated? u.chars = some u := by
    rw [chars, ofHyphenated?_groups (by simp [hlen]) (by simp [hlen]) (by simp [hlen])
      (by simp [hlen]) (by simp [hlen]), ← ofHex?_hex u]
    congr 1
    generalize Text.hex 32 u.value = ds
    have hfour (k : Nat) : (ds.drop k).take 4 ++ ds.drop (k + 4) = ds.drop k := by
      rw [← List.drop_drop, List.take_append_drop]
    simp only [List.append_assoc]
    rw [hfour 16, hfour 12, hfour 8, List.take_append_drop]
  cases hds : Text.hex 32 u.value with
  | nil => simp [hds] at hlen
  | cons c more =>
    have hc : ∃ d < 16, c = Nat.digitChar d := by
      have hmem : c ∈ Text.hex 32 u.value := by
        rw [hds]
        exact List.mem_cons_self
      exact isHexDigit_of_mem_hex hmem
    obtain ⟨rest, hrest⟩ : ∃ rest, u.chars = c :: rest := by
      unfold chars
      rw [hds]
      exact ⟨_, rfl⟩
    have hl : u.chars.length = 36 := by simp [chars, hlen]
    rw [hrest] at hl hgroups ⊢
    rw [ofChars?_eq_ofHyphenated? hc hl, hgroups]

end WorkflowClient.Uuid
