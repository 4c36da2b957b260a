import Mathlib.Data.List.Forall2
import Mathlib.Data.List.Pairwise
import Mathlib.Data.List.Perm.Subperm

/-! Lists whose elements are matched with those of another list, in order or in any order. -/
namespace WorkflowClient

variable {α β γ : Type} {R : α → β → Prop} {as : List α} {bs : List β}

section
variable (h : List.Forall₂ R as bs)
include h

theorem forall_mem_right {Q : β → Prop} (hq : ∀ a b, R a b → Q b) : ∀ b ∈ bs, Q b := by
  induction h with
  | nil => exact fun b hb => by cases hb
  | cons hab _ ih =>
    intro b hb
    rcases List.mem_cons.mp hb with rfl | hmem
    · exact hq _ _ hab
    · exact ih b hmem

theorem exists_mem_right : ∀ a ∈ as, ∃ b ∈ bs, R a b := by
  induction h with
  | nil => exact fun a ha => by cases ha
  | cons hab _ ih =>
    intro a ha
    rcases List.mem_cons.mp ha with rfl | hmem
    · exact ⟨_, by simp, hab⟩
    · obtain ⟨b, hb, hr⟩ := ih a hmem
      exact ⟨b, List.mem_cons_of_mem _ hb, hr⟩

/-- What is paired with an element is paired with its counterpart in the other list. -/
theorem exists_mem_zip {items : List γ} {p : γ × α} (hp : p ∈ items.zip as) :
    ∃ b, (p.1, b) ∈ items.zip bs ∧ R p.2 b := by
  induction h generalizing items with
  | nil => simp at hp
  | cons hab _ ih =>
    cases items with
    | nil => cases hp
    | cons x items =>
      rcases List.mem_cons.mp hp with rfl | hmem
      · exact ⟨_, by simp, hab⟩
      · obtain ⟨c, hc, hr⟩ := ih hmem
        exact ⟨c, List.mem_cons_of_mem _ hc, hr⟩

theorem forall₂_congr_left {P : β → γ → Prop} {Q : α → γ → Prop} {cs : List γ}
    (hpq : ∀ a b, R a b → ∀ c, P b c ↔ Q a c) : List.Forall₂ P bs cs ↔ List.Forall₂ Q as cs := by
  induction h generalizing cs with
  | nil => rw [List.forall₂_nil_left_iff, List.forall₂_nil_left_iff]
  | cons hab _ ih =>
    cases cs with
    | nil => exact iff_of_false nofun nofun
    | cons c cs => rw [List.forall₂_cons, List.forall₂_cons, hpq _ _ hab, ih]

theorem map_eq_of_forall₂ {f : α → γ} {g : β → γ} (hfg : ∀ a b, R a b → f a = g b) :
    as.map f = bs.map g := by
  induction h with
  | nil => rfl
  | cons hab _ ih => rw [List.map_cons, List.map_cons, hfg _ _ hab, ih]

theorem forall₂_imp_mem {S : α → β → Prop} (hrs : ∀ a ∈ as, ∀ b ∈ bs, R a b → S a b) :
    List.Forall₂ S as bs := by
  induction h with
  | nil => exact .nil
  | cons hab _ ih =>
    refine .cons (hrs _ List.mem_cons_self _ List.mem_cons_self hab) (ih fun a ha b hb => ?_)
    exact hrs a (List.mem_cons_of_mem _ ha) b (List.mem_cons_of_mem _ hb)

theorem forall₂_trans {S : β → γ → Prop} {T : α → γ → Prop} {cs : List γ}
    (h' : List.Forall₂ S bs cs) (ht : ∀ a ∈ as, ∀ b c, R a b → S b c → T a c) :
    List.Forall₂ T as cs := by
  induction h generalizing cs with
  | nil =>
    cases h'
    exact .nil
  | cons hab _ ih =>
    cases h' with
    | cons hbc h' =>
      refine .cons (ht _ List.mem_cons_self _ _ hab hbc) (ih h' fun a ha => ?_)
      exact ht a (List.mem_cons_of_mem _ ha)

end

/-- Nothing is related to two elements of the list. -/
def Apart (R : α → β → Prop) (as : List α) : Prop :=
  as.Pairwise fun a a' => ∀ b, R a b → ¬ R a' b

section
variable (hab : ∀ a ∈ as, ∃ b ∈ bs, R a b) (hd : Apart R as)
include hab hd

/-- Where every element of one list is related to one of another, and no two of them to the same,
they are matched with different elements of it. -/
theorem exists_matching : ∃ cs, List.Forall₂ R as cs ∧ cs.Subperm bs := by
  induction as generalizing bs with
  | nil => exact ⟨[], .nil, List.nil_subperm⟩
  | cons a as ih =>
    obtain ⟨ha, has⟩ := List.pairwise_cons.mp hd
    obtain ⟨b, hb, hr⟩ := hab a List.mem_cons_self
    obtain ⟨before, rest, rfl⟩ := List.append_of_mem hb
    have hothers : ∀ a' ∈ as, ∃ b' ∈ before ++ rest, R a' b' := by
      intro a' ha'
      obtain ⟨b', hb', hr'⟩ := hab a' (List.mem_cons_of_mem a ha')
      rcases List.mem_cons.mp (List.perm_middle.mem_iff.mp hb') with rfl | hmem
      · exact absurd hr' (ha a' ha' b' hr)
      · exact ⟨b', hmem, hr'⟩
    obtain ⟨cs, hcs, hsub⟩ := ih hothers has
    refine ⟨b :: cs, .cons hr hcs, ?_⟩
    exact ((List.subperm_cons b).mpr hsub).trans List.perm_middle.symm.subperm

theorem length_le_of_apart : as.length ≤ bs.length := by
  obtain ⟨cs, hcs, hsub⟩ := exists_matching hab hd
  rw [hcs.length_eq]
  exact hsub.length_le

theorem exists_matching_perm (hl : bs.length ≤ as.length) :
    ∃ cs, List.Forall₂ R as cs ∧ cs.Perm bs := by
  obtain ⟨cs, hcs, hsub⟩ := exists_matching hab hd
  exact ⟨cs, hcs, hsub.perm_of_length_le (hcs.length_eq ▸ hl)⟩

/-- If the other list is as long, none of its elements is left out. -/
theorem exists_left_of_apart (hl : bs.length ≤ as.length) : ∀ b ∈ bs, ∃ a ∈ as, R a b := by
  obtain ⟨cs, hcs, hperm⟩ := exists_matching_perm hab hd hl
  intro b hb
  exact exists_mem_right hcs.flip b (hperm.mem_iff.mpr hb)

/-- What is the same for related elements is the same for the lists, whatever the order. -/
theorem perm_map_of_apart (hl : bs.length ≤ as.length) {f : α → γ} {g : β → γ}
    (hfg : ∀ a ∈ as, ∀ b ∈ bs, R a b → f a = g b) : (as.map f).Perm (bs.map g) := by
  have hboth : ∀ a ∈ as, ∃ b ∈ bs, R a b ∧ f a = g b := by
    intro a ha
    obtain ⟨b, hb, hr⟩ := hab a ha
    exact ⟨b, hb, hr, hfg a ha b hb hr⟩
  have hapart : Apart (fun a b => R a b ∧ f a = g b) as :=
    hd.imp fun hne b hb hb' => hne b hb.1 hb'.1
  obtain ⟨cs, hcs, hperm⟩ := exists_matching_perm hboth hapart hl
  rw [map_eq_of_forall₂ hcs fun _ _ h => h.2]
  exact hperm.map g

end

section
variable {same : α → α → Bool} {as bs : List α}
  (htrans : ∀ a b c, same a b = true → same b c = true → same a c = true)
include htrans

/-- What is the same as an element of a list is the same as one of those that are kept. -/
theorem exists_mem_pwFilter {a : α} (h : ∃ b ∈ bs, same a b = true) :
    ∃ b ∈ bs.pwFilter fun a b => same a b = false, same a b = true := by
  have hneg {x y z : α} (hxz : same x z = false) : same x y = false ∨ same y z = false := by
    by_contra hsame
    rw [not_or, Bool.not_eq_false, Bool.not_eq_false] at hsame
    rw [htrans x y z hsame.1 hsame.2] at hxz
    cases hxz
  by_contra hnone
  have hkept : ∀ b ∈ bs.pwFilter fun a b => same a b = false, same a b = false := by
    simpa using hnone
  obtain ⟨b, hb, hab⟩ := h
  rw [(List.forall_mem_pwFilter (R := fun a b => same a b = false) hneg a bs).mp hkept b hb] at hab
  cases hab

theorem apart_pwFilter (hsymm : ∀ a ∈ as, ∀ b, same a b = true → same b a = true) :
    Apart (fun a b => same a b = true) (as.pwFilter fun a b => same a b = false) := by
  refine (List.pairwise_pwFilter as).imp_of_mem fun {a a'} _ ha' hne b hab hab' => ?_
  have hba := hsymm a' (List.pwFilter_subset as ha') b hab'
  rw [htrans a b a' hab hba] at hne
  cases hne

/-- Two lists in which the same things occur agree, up to order, in whatever is the same for these,
once what occurs repeatedly is counted once. -/
theorem perm_map_pwFilter (has : ∀ a ∈ as, ∀ b, same a b = true → same b a = true)
    (hbs : ∀ b ∈ bs, ∀ a, same b a = true → same a b = true)
    (hab : ∀ a ∈ as, ∃ b ∈ bs, same a b = true) (hba : ∀ b ∈ bs, ∃ a ∈ as, same a b = true)
    {f : α → γ} (hf : ∀ a ∈ as, ∀ b ∈ bs, same a b = true → f a = f b) :
    ((as.pwFilter fun a b => same a b = false).map f).Perm
      ((bs.pwFilter fun a b => same a b = false).map f) := by
  have hright : ∀ a ∈ as.pwFilter fun a b => same a b = false,
      ∃ b ∈ bs.pwFilter fun a b => same a b = false, same a b = true :=
    fun a ha => exists_mem_pwFilter htrans (hab a (List.pwFilter_subset as ha))
  have hleft : ∀ b ∈ bs.pwFilter fun a b => same a b = false,
      ∃ a ∈ as.pwFilter fun a b => same a b = false, same b a = true := by
    intro b hb
    obtain ⟨a, ha, hsame⟩ := hba b (List.pwFilter_subset bs hb)
    exact exists_mem_pwFilter htrans ⟨a, ha, has a ha b hsame⟩
  exact perm_map_of_apart hright (apart_pwFilter htrans has)
    (length_le_of_apart hleft (apart_pwFilter htrans hbs))
    fun a ha b hb => hf a (List.pwFilter_subset as ha) b (List.pwFilter_subset bs hb)

end
end WorkflowClient
