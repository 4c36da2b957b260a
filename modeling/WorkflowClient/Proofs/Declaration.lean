import WorkflowClient.Declaration
import WorkflowClient.Proofs.Diagnostic.Causes
import WorkflowClient.Proofs.Text.Repeated

/-! Declarations are taken as they are, or refused with every problem named once. -/
namespace WorkflowClient
open Diagnostic (Part)

namespace Text
variable {names twice : List String}

/-- The names that occur at least twice, each once, in the order in which they are first used. -/
structure Repeats (names twice : List String) : Prop where
  mem (n : String) : n ∈ twice ↔ 2 ≤ names.count n
  order : twice.Pairwise fun a b => names.idxOf a < names.idxOf b

theorem repeats_repeated (names : List String) : Repeats names (repeated names) where
  mem _ := mem_repeated
  order := pairwise_idxOf_repeated names

theorem Repeats.eq_nil_iff (h : Repeats names twice) : twice = [] ↔ names.Nodup := by
  rw [List.eq_nil_iff_forall_not_mem, List.nodup_iff_count]
  constructor
  · intro hnone n
    have hn := mt (h.mem n).mpr (hnone n)
    omega
  · intro hcount n hn
    have htwo := (h.mem n).mp hn
    have hone := hcount n
    omega

end Text

namespace Declaration
variable {d : Declaration} {t : WorkflowType} {e : Diagnostic} {errors : List Diagnostic}

/-- The name has a character that is not blank. -/
def Named (d : Declaration) : Prop := ∃ c ∈ d.name.toList, Text.isBlank c = false

theorem named_iff : d.Named ↔ d.isUnnamed = false := by
  simp [Named, isUnnamed]

/-- The error for a declaration without a name, if it is one. -/
inductive NameProblem (d : Declaration) : List Diagnostic → Prop
  | named (h : d.Named) : NameProblem d []
  | unnamed {e : Diagnostic} (h : ¬ d.Named) (he : e.Shows .noName) : NameProblem d [e]

/-- One error of that number for every name that is used twice or more for a kind of part, which it
names, in the order of the first uses. -/
inductive PartProblems (d : Declaration) (number what : String) (names : List String) :
    List Diagnostic → Prop
  | each {twice : List String} {errors : List Diagnostic} (ht : Text.Repeats names twice)
      (h : List.Forall₂ (fun n (e : Diagnostic) => e.Shows (.duplicatePart number what d.name n))
        twice errors) : PartProblems d number what names errors

/-- All that is wrong with a declaration, in this order. -/
inductive Problems (d : Declaration) : List Diagnostic → Prop
  | groups {unnamed states channels attributes : List Diagnostic} (hn : d.NameProblem unnamed)
      (hs : d.PartProblems "E002" "state id" d.stateIds states)
      (hc : d.PartProblems "E003" "signal channel" d.channelNames channels)
      (ha : d.PartProblems "E004" "query attribute" d.attributeKeys attributes) :
      Problems d (unnamed ++ states ++ channels ++ attributes)

theorem nameProblem_eq (d : Declaration) :
    d.NameProblem (if d.isUnnamed then [.noName] else []) := by
  by_cases hn : d.Named
  · rw [if_neg (by simpa [named_iff] using hn)]
    exact .named hn
  · rw [if_pos (by simpa [named_iff] using hn)]
    exact .unnamed hn Diagnostic.shows_noName

theorem partProblems_duplicates (d : Declaration) (part : Part) (names : List String) :
    d.PartProblems part.duplicateCode.text part.text names (duplicates part d.name names) := by
  refine .each (Text.repeats_repeated names) ?_
  rw [duplicates, List.forall₂_map_right_iff, List.forall₂_same]
  exact fun n _ => Diagnostic.shows_duplicatePart part d.name n

theorem problems_violations (d : Declaration) : d.Problems d.violations :=
  .groups d.nameProblem_eq (d.partProblems_duplicates .state _)
    (d.partProblems_duplicates .channel _) (d.partProblems_duplicates .attribute _)

theorem NameProblem.eq_nil_iff (h : d.NameProblem errors) : errors = [] ↔ d.Named := by
  cases h with
  | named h => simp [h]
  | unnamed h _ => simp [h]

theorem PartProblems.eq_nil_iff {number what : String} {names : List String}
    (h : d.PartProblems number what names errors) : errors = [] ↔ names.Nodup := by
  obtain ⟨ht, hall⟩ := h
  rw [← ht.eq_nil_iff, ← List.length_eq_zero_iff, ← hall.length_eq, List.length_eq_zero_iff]

/-- Nothing is wrong exactly if the declaration has a name and no kind of part repeats one. -/
theorem Problems.eq_nil_iff (h : d.Problems errors) :
    errors = [] ↔ d.Named ∧ d.stateIds.Nodup ∧ d.channelNames.Nodup ∧ d.attributeKeys.Nodup := by
  cases h with
  | groups hn hs hc ha =>
    simp only [List.append_eq_nil_iff, hn.eq_nil_iff, hs.eq_nil_iff, hc.eq_nil_iff, ha.eq_nil_iff,
      and_assoc]

/-- What comes of a list of problems: no problem lets the declaration through as it is, one is
raised as itself, and more are raised together. -/
structure Raises (d : Declaration) (errors : List Diagnostic)
    (result : Except Diagnostic WorkflowType) : Prop where
  none : errors = [] → ∃ t, result = .ok t ∧ t.toDeclaration = d
  one (e : Diagnostic) : errors = [e] → result = .error e
  many : 2 ≤ errors.length → result = .error (.multiple
    { message := Diagnostic.abortingMessage errors.length } "workflow definition" errors)

/-- Nothing goes through with a problem. -/
theorem Raises.eq_nil (h : d.Raises errors (.ok t)) : errors = [] := by
  match errors, h with
  | [], _ => rfl
  | [e], h => cases h.one e rfl
  | _ :: _ :: _, h => cases h.many (by simp)

theorem check_of_raised (h : Diagnostic.raised? "workflow definition" d.violations = some e) :
    d.check = .error e := by
  unfold check
  split
  · rename_i e' he
    rw [h] at he
    cases he
    rfl
  · rename_i hnone
    rw [h] at hnone
    cases hnone

theorem exists_check (h : d.violations = []) : ∃ t, d.check = .ok t ∧ t.toDeclaration = d := by
  unfold check
  split
  · rename_i e he
    rw [h] at he
    cases he
  · exact ⟨_, rfl, rfl⟩

theorem raises_check (d : Declaration) : d.Raises d.violations d.check where
  none h := exists_check h
  one e h := check_of_raised (by rw [h]; rfl)
  many h := by
    apply check_of_raised
    match hv : d.violations with
    | [] => simp [hv] at h
    | [_] => simp [hv] at h
    | _ :: _ :: _ => rfl

theorem mem_startingIds {id : String} : id ∈ d.startingIds ↔ ⟨id, true⟩ ∈ d.states := by
  simp only [startingIds, List.mem_map, List.mem_filter]
  constructor
  · rintro ⟨⟨id, canStart⟩, ⟨hs, rfl⟩, rfl⟩
    exact hs
  · intro hs
    exact ⟨⟨id, true⟩, ⟨hs, rfl⟩, rfl⟩

theorem sublist_startingIds (d : Declaration) : d.startingIds.Sublist d.stateIds :=
  List.filter_sublist.map State.id

/-- A declaration describes a workflow type exactly if it has a name and repeats none among its
states, channels or attributes. Then the type is as it was declared, and its runs start from the
states that say so. Otherwise all that is wrong is found, one problem is raised as itself, and more
are raised together. -/
theorem check_outcomes (d : Declaration) :
    ((∃ t, d.check = .ok t) ↔
      d.Named ∧ d.stateIds.Nodup ∧ d.channelNames.Nodup ∧ d.attributeKeys.Nodup) ∧
    (∃ errors, d.Problems errors ∧ d.Raises errors d.check) ∧
    ∀ t, d.check = .ok t → t.toDeclaration = d ∧ t.startingIds.Sublist (d.states.map State.id) ∧
      ∀ id, id ∈ t.startingIds ↔ ⟨id, true⟩ ∈ d.states := by
  have hp := d.problems_violations
  have hr := d.raises_check
  have hnil : ∀ t, d.check = .ok t → d.violations = [] := by
    intro t ht
    rw [ht] at hr
    exact hr.eq_nil
  refine ⟨?_, ⟨_, hp, hr⟩, ?_⟩
  · constructor
    · rintro ⟨t, ht⟩
      exact hp.eq_nil_iff.mp (hnil t ht)
    · intro h
      obtain ⟨t, ht, -⟩ := exists_check (hp.eq_nil_iff.mpr h)
      exact ⟨t, ht⟩
  · intro t ht
    obtain ⟨t', ht', rfl⟩ := exists_check (hnil t ht)
    obtain rfl : t' = t := by simpa [ht'] using ht
    exact ⟨rfl, sublist_startingIds _, fun _ => mem_startingIds⟩

end Declaration
end WorkflowClient
