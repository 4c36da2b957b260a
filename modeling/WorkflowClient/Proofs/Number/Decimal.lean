import WorkflowClient.Number.Decimal
import WorkflowClient.Proofs.Number.Reading

/-! Decimal numbers are read back from their texts. -/
namespace WorkflowClient.Number.Decimal

variable {negative : Bool} {coefficient : Nat} {exponent : Int} {cs : List Char} {c : Char}

/-- What texts of finite decimals are made of. -/
def isPart (c : Char) : Bool := c.isDigit || c = '.' || c = 'E' || c = '+' || c = '-'

theorem plain_of_isPart (h : isPart c = true) :
    Text.isBlank c = false ∧ c ≠ '_' ∧ asciiDigit c = c := by
  simp only [isPart, Bool.or_eq_true, decide_eq_true_eq] at h
  rcases h with (((h | rfl) | rfl) | rfl) | rfl
  · obtain ⟨d, hd, rfl⟩ := exists_digitChar h
    interval_cases d <;> decide
  · decide
  · decide
  · decide
  · decide

/-- Texts made of nothing but parts are read as they stand. -/
theorem cleaned_eq_self (h : ∀ c ∈ cs, isPart c = true) :
    ((Text.trim Text.isBlank cs).filter (· ≠ '_')).map asciiDigit = cs := by
  rw [trim_eq_self fun c hc => (plain_of_isPart (h c hc)).1,
    List.filter_eq_self.mpr fun c hc => by simpa using (plain_of_isPart (h c hc)).2.1]
  conv_rhs => rw [← List.map_id cs]
  exact List.map_congr_left fun c hc => (plain_of_isPart (h c hc)).2.2

theorem word?_digit {d : Char} (h : d.isDigit = true) (more : List Char) :
    word? negative ((d :: more).map Char.toLower) = none := by
  obtain ⟨n, hn, rfl⟩ := exists_digitChar h
  have hlower : n.digitChar.toLower = n.digitChar := by interval_cases n <;> decide
  have hi : n.digitChar ≠ 'i' := by interval_cases n <;> decide
  have hs : n.digitChar ≠ 's' := by interval_cases n <;> decide
  have hN : n.digitChar ≠ 'n' := by interval_cases n <;> decide
  rw [List.map_cons, hlower]
  simp [word?, hi, hs, hN]

/-- Digits with a point behind the first of them, unless there is no other. -/
def pointedLead : List Char → List Char
  | [d] => [d]
  | d :: more => d :: '.' :: more
  | [] => []

theorem mantissa?_pointedLead {ds rest : List Char} (hd : ∀ c ∈ ds, c.isDigit = true)
    (hne : ds ≠ []) (hr : EndsDigits rest) (hdot : rest.head? ≠ some '.') :
    mantissa? (pointedLead ds ++ rest) = some (⟨ds, ds.length - 1⟩, rest) := by
  match ds, hne with
  | [d], _ =>
    have hread : mantissa? ([d] ++ rest) = some (⟨[d], 0⟩, rest) :=
      mantissa?_whole hd (by simp) hr hdot
    exact hread
  | d :: x :: more, _ =>
    have hwhole : ∀ c ∈ [d], c.isDigit = true := fun c hc => hd c (by simp_all)
    have hmore : ∀ c ∈ x :: more, c.isDigit = true := fun c hc => hd c (List.mem_cons_of_mem _ hc)
    exact mantissa?_fraction hwhole (by simp) hmore hr

theorem magnitudeText_eq (coefficient : Nat) (exponent : Int) :
    magnitudeText coefficient exponent =
      let ds := natText coefficient
      let point : Int := exponent + ds.length
      if exponent ≤ 0 ∧ -6 < point then
        if point ≤ 0 then '0' :: '.' :: (List.replicate (-point).toNat '0' ++ ds)
        else if exponent = 0 then ds
        else ds.take point.toNat ++ '.' :: ds.drop point.toNat
      else if point - 1 = 0 then pointedLead ds
      else pointedLead ds ++ 'E' :: signedDigits (point - 1) 0 := rfl

/-- The coefficient's digits with a point among them or an exponent behind. -/
theorem mantissa?_magnitudeText (coefficient : Nat) (exponent : Int) :
    ∃ m rest, mantissa? (magnitudeText coefficient exponent) = some (m, rest) ∧
      value m.digits = coefficient ∧ exponent? rest = some (exponent + m.places) := by
  have hd : ∀ c ∈ natText coefficient, c.isDigit = true := fun _ => isDigit_of_mem_natText
  have hne := natText_ne_nil coefficient
  have hval := value_natText coefficient
  rw [magnitudeText_eq]
  generalize natText coefficient = ds at hd hne hval
  have hpos : 0 < ds.length := List.length_pos_iff.mpr hne
  dsimp only
  split
  · rename_i hplain
    split
    · rename_i hpoint
      -- All digits are behind the point.
      have hf := isDigit_append (isDigit_replicate_zero (-(exponent + ds.length)).toNat) hd
      have hread := mantissa?_fraction (isDigit_replicate_zero 1) (by simp) hf endsDigits_nil
      rw [List.append_nil] at hread
      refine ⟨_, _, hread, ?_, ?_⟩
      · exact (value_zeros_append 1 _).trans ((value_zeros_append _ ds).trans hval)
      · simp only [exponent?, List.length_append, List.length_replicate, Option.some.injEq]
        omega
    · split
      · rename_i hzero
        have hread := mantissa?_whole hd hne endsDigits_nil (by simp)
        rw [List.append_nil] at hread
        exact ⟨_, _, hread, hval, by simp [exponent?, hzero]⟩
      · rename_i hpoint hzero
        have hwhole : ∀ c ∈ ds.take (exponent + ds.length).toNat, c.isDigit = true :=
          fun c hc => hd c (List.mem_of_mem_take hc)
        have hfraction : ∀ c ∈ ds.drop (exponent + ds.length).toNat, c.isDigit = true :=
          fun c hc => hd c (List.mem_of_mem_drop hc)
        have hnil : ds.take (exponent + ds.length).toNat ≠ [] := by
          intro h
          have hlen := congrArg List.length h
          rw [List.length_take, List.length_nil] at hlen
          omega
        have hread := mantissa?_fraction hwhole hnil hfraction endsDigits_nil
        rw [List.append_nil] at hread
        refine ⟨_, _, hread, ?_, ?_⟩
        · rw [List.take_append_drop, hval]
        · simp only [exponent?, List.length_drop, Option.some.injEq]
          omega
  · split
    · rename_i hzero
      have hread := mantissa?_pointedLead hd hne endsDigits_nil (by simp)
      rw [List.append_nil] at hread
      refine ⟨_, _, hread, hval, ?_⟩
      simp only [exponent?, Option.some.injEq]
      omega
    · have hmark : EndsDigits ('E' :: signedDigits (exponent + ds.length - 1) 0) :=
        endsDigits_cons rfl
      have hread := mantissa?_pointedLead hd hne hmark (by simp)
      refine ⟨_, _, hread, hval, ?_⟩
      rw [exponent?_signedDigits (.inr rfl)]
      simp only [Option.some.injEq]
      omega

theorem isPart_of_isDigit (h : c.isDigit = true) : isPart c = true := by simp [isPart, h]

theorem isPart_of_mem_signedDigits {n : Int} {k : Nat} (h : c ∈ signedDigits n k) :
    isPart c = true := by
  rcases List.mem_cons.mp h with h | h
  · rw [h]
    split <;> decide
  · rcases List.mem_append.mp h with h | h
    · rw [List.eq_of_mem_replicate h]
      decide
    · exact isPart_of_isDigit (isDigit_of_mem_natText h)

theorem isPart_of_mem_pointedLead {ds : List Char} (hd : ∀ c ∈ ds, c.isDigit = true)
    (h : c ∈ pointedLead ds) : isPart c = true := by
  match ds with
  | [] => cases h
  | [d] => exact isPart_of_isDigit (hd c h)
  | d :: x :: more =>
    rcases List.mem_cons.mp h with rfl | h
    · exact isPart_of_isDigit (hd _ (by simp))
    · rcases List.mem_cons.mp h with rfl | h
      · decide
      · exact isPart_of_isDigit (hd c (List.mem_cons_of_mem _ h))

theorem isPart_of_mem_magnitudeText (h : c ∈ magnitudeText coefficient exponent) :
    isPart c = true := by
  have hd : ∀ c ∈ natText coefficient, c.isDigit = true := fun _ => isDigit_of_mem_natText
  rw [magnitudeText_eq] at h
  generalize natText coefficient = ds at hd h
  dsimp only at h
  split at h
  · split at h
    · rcases List.mem_cons.mp h with rfl | h
      · decide
      rcases List.mem_cons.mp h with rfl | h
      · decide
      rcases List.mem_append.mp h with h | h
      · rw [List.eq_of_mem_replicate h]
        decide
      · exact isPart_of_isDigit (hd c h)
    · split at h
      · exact isPart_of_isDigit (hd c h)
      · rcases List.mem_append.mp h with h | h
        · exact isPart_of_isDigit (hd c (List.mem_of_mem_take h))
        rcases List.mem_cons.mp h with rfl | h
        · decide
        · exact isPart_of_isDigit (hd c (List.mem_of_mem_drop h))
  · split at h
    · exact isPart_of_mem_pointedLead hd h
    · rcases List.mem_append.mp h with h | h
      · exact isPart_of_mem_pointedLead hd h
      rcases List.mem_cons.mp h with rfl | h
      · decide
      · exact isPart_of_mem_signedDigits h

theorem magnitudeText_eq_cons (coefficient : Nat) (exponent : Int) :
    ∃ d more, magnitudeText coefficient exponent = d :: more ∧ d.isDigit = true := by
  obtain ⟨d, rest, hds, hdigit⟩ := natText_eq_cons coefficient
  have hlead (ds : List Char) : ∃ more, pointedLead (d :: rest) ++ ds = d :: more := by
    cases rest <;> exact ⟨_, rfl⟩
  rw [magnitudeText_eq, hds]
  dsimp only
  split
  · split
    · exact ⟨_, _, rfl, by decide⟩
    · split
      · exact ⟨_, _, rfl, hdigit⟩
      · rename_i hpoint _
        obtain ⟨k, hk⟩ : ∃ k, (exponent + (d :: rest).length).toNat = k + 1 :=
          Nat.exists_eq_succ_of_ne_zero (by omega)
        rw [hk]
        exact ⟨_, _, rfl, hdigit⟩
  · split
    · obtain ⟨more, hmore⟩ := hlead []
      rw [List.append_nil] at hmore
      exact ⟨_, _, hmore, hdigit⟩
    · obtain ⟨more, hmore⟩ := hlead ('E' :: signedDigits (exponent + (d :: rest).length - 1) 0)
      exact ⟨_, _, hmore, hdigit⟩

/-- A finite decimal keeps its digits and its exponent in its text. -/
theorem ofChars?_chars (negative : Bool) (coefficient : Nat) (exponent : Int) :
    ofChars? (Decimal.finite negative coefficient exponent).chars =
      some (.finite negative coefficient exponent) := by
  obtain ⟨d, more, hd, hdigit⟩ := magnitudeText_eq_cons coefficient exponent
  obtain ⟨m, rest, hm, hvalue, hexponent⟩ := mantissa?_magnitudeText coefficient exponent
  have hparts : ∀ c ∈ (Decimal.finite negative coefficient exponent).chars, isPart c = true := by
    intro c hc
    rcases List.mem_append.mp hc with h | h
    · cases negative with
      | false => cases h
      | true =>
        rw [List.mem_singleton.mp h]
        decide
    · exact isPart_of_mem_magnitudeText h
  have hsign : sign (Decimal.finite negative coefficient exponent).chars =
      (negative, magnitudeText coefficient exponent) := by
    cases negative with
    | false =>
      change sign (magnitudeText coefficient exponent) = _
      rw [hd, sign_digit hdigit]
    | true => rfl
  have hword : word? negative ((magnitudeText coefficient exponent).map Char.toLower) = none := by
    rw [hd]
    exact word?_digit hdigit more
  unfold ofChars?
  rw [cleaned_eq_self hparts]
  dsimp only
  rw [hsign]
  dsimp only
  rw [hword, hm]
  simp [hexponent, hvalue]

end WorkflowClient.Number.Decimal
