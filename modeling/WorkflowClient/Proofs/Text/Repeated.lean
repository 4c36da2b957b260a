import Mathlib.Data.List.Nodup
import WorkflowClient.Text.Basic

/-! Repeated names come in the order in which they are first used. -/
namespace WorkflowClient.Text

variable {names : List String} {a b : String}

/-- Leaving some names out does not change the order of the others. -/
theorem idxOf_lt_of_filter {p : String → Bool} (ha : p a = true) (hb : p b = true)
    (h : (names.filter p).idxOf a < (names.filter p).idxOf b) : names.idxOf a < names.idxOf b := by
  induction names with
  | nil => exact h
  | cons n rest ih =>
    by_cases hn : p n = true
    · rw [List.filter_cons_of_pos hn] at h
      by_cases hna : n = a
      · subst hna
        have hnb : n ≠ b := fun heq => by simp [heq] at h
        rw [List.idxOf_cons_self, List.idxOf_cons_ne _ hnb]
        exact Nat.succ_pos _
      · by_cases hnb : n = b
        · subst hnb
          rw [List.idxOf_cons_self] at h
          exact absurd h (Nat.not_lt_zero _)
        · rw [List.idxOf_cons_ne _ hna, List.idxOf_cons_ne _ hnb] at h ⊢
          exact Nat.succ_lt_succ (ih (Nat.lt_of_succ_lt_succ h))
    · rw [List.filter_cons_of_neg hn] at h
      have hna : n ≠ a := fun heq => hn (heq ▸ ha)
      have hnb : n ≠ b := fun heq => hn (heq ▸ hb)
      rw [List.idxOf_cons_ne _ hna, List.idxOf_cons_ne _ hnb]
      exact Nat.succ_lt_succ (ih h)

theorem pairwise_idxOf_eraseDups (names : List String) :
    names.eraseDups.Pairwise fun a b => names.idxOf a < names.idxOf b := by
  induction hlen : names.length using Nat.strongRecOn generalizing names with
  | ind len ih =>
    cases names with
    | nil => exact .nil
    | cons n rest =>
      have hshort : (rest.filter fun b => !b == n).length < len := by
        rw [← hlen, List.length_cons]
        exact Nat.lt_succ_of_le (List.length_filter_le _ _)
      have hrest := ih _ hshort _ rfl
      rw [List.eraseDups_cons, List.pairwise_cons]
      have hne : ∀ b ∈ (rest.filter fun b => !b == n).eraseDups, n ≠ b := by
        intro b hb heq
        rw [List.mem_eraseDups, List.mem_filter] at hb
        simp [heq] at hb
      refine ⟨fun b hb => ?_, ?_⟩
      · rw [List.idxOf_cons_self, List.idxOf_cons_ne _ (hne b hb)]
        exact Nat.succ_pos _
      · refine hrest.imp_of_mem fun ha hb hlt => ?_
        rw [List.idxOf_cons_ne _ (hne _ ha), List.idxOf_cons_ne _ (hne _ hb)]
        refine Nat.succ_lt_succ (idxOf_lt_of_filter ?_ ?_ hlt)
        · simpa using (hne _ ha).symm
        · simpa using (hne _ hb).symm

theorem eraseDups_of_nodup (h : names.Nodup) : names.eraseDups = names := by
  induction names with
  | nil => rfl
  | cons n rest ih =>
    obtain ⟨hn, hrest⟩ := List.nodup_cons.mp h
    have hkept : (rest.filter fun b => !b == n) = rest := by
      refine List.filter_eq_self.mpr fun b hb => ?_
      have hne : b ≠ n := fun heq => hn (heq ▸ hb)
      simpa using hne
    rw [List.eraseDups_cons, hkept, ih hrest]

/-- A name that was there already makes no difference. -/
theorem eraseDups_append_of_mem {more : List String} {n : String} (h : n ∈ names) :
    (names ++ n :: more).eraseDups = (names ++ more).eraseDups := by
  have hdropped : (n :: more).removeAll names = more.removeAll names := by
    simp [List.removeAll, h]
  rw [List.eraseDups_append, hdropped, ← List.eraseDups_append]

theorem pairwise_idxOf_repeated (names : List String) :
    (repeated names).Pairwise fun a b => names.idxOf a < names.idxOf b :=
  (pairwise_idxOf_eraseDups names).filter _

end WorkflowClient.Text
