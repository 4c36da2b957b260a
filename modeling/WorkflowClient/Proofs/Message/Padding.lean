import WorkflowClient.Proofs.Json.Entries
import WorkflowClient.Proofs.Message.RoundTrip

/-! A record is read from the members that go by the names of its fields. Other members do not
matter, and neither does the order of all. -/
namespace WorkflowClient.Message
open Validation (Checked both)

section
variable {α β : Type} {names own : List String} {Alike : String → Json → Json → Prop}
  {ms ms' : List (String × Json)}

/-- Under each of the names both objects have a member, with values that are alike, or neither has. -/
def Agree (names : List String) (Alike : String → Json → Json → Prop)
    (ms ms' : List (String × Json)) : Prop :=
  ∀ name ∈ names, Option.Rel (fun m m' => m.1 = name ∧ m'.1 = name ∧ Alike name m.2 m'.2)
    (ms.find? (·.1 == name)) (ms'.find? (·.1 == name))

theorem find?_values (ms : List (String × Json)) (name : String) :
    (values ms).find? (·.1 == name) =
      (ms.find? (·.1 == name)).map fun m => (m.1, .ofJson m.2) := by
  rw [values, List.find?_map]
  rfl

/-- Where look-ups agree, the same name is found first, with values that are alike, or none is. -/
theorem find?_of_agree (h : Agree own Alike ms ms') :
    (find? (values ms) own = none ∧ find? (values ms') own = none) ∨
      ∃ name ∈ own, ∃ j j', Alike name j j' ∧ find? (values ms) own = some (name, .ofJson j) ∧
        find? (values ms') own = some (name, .ofJson j') := by
  induction own with
  | nil => exact .inl ⟨rfl, rfl⟩
  | cons n rest ih =>
    have hrel := h n List.mem_cons_self
    unfold find?
    rw [find?_values, find?_values]
    generalize ms.find? (·.1 == n) = m at hrel ⊢
    generalize ms'.find? (·.1 == n) = m' at hrel ⊢
    cases hrel with
    | none =>
      rcases ih fun name hname => h name (List.mem_cons_of_mem _ hname) with hnone | hsome
      · exact .inl hnone
      · obtain ⟨name, hname, found⟩ := hsome
        exact .inr ⟨name, List.mem_cons_of_mem _ hname, found⟩
    | some hpair =>
      obtain ⟨rfl, hname, halike⟩ := hpair
      refine .inr ⟨_, List.mem_cons_self, _, _, halike, rfl, ?_⟩
      rw [← hname]
      rfl

/-- What is read rests on the members under the names alone, and not on how they differ as long as
they are alike. -/
def RestsOn (names : List String) (Alike : String → Json → Json → Prop) (r : Reading α) : Prop :=
  ∀ ms ms', Agree names Alike ms ms' → r.run (values ms) = r.run (values ms')

namespace RestsOn

theorem seq {f : Reading (α → β)} {x : Reading α} (hf : RestsOn names Alike f)
    (hx : RestsOn names Alike x) : RestsOn names Alike (f <*> x) := by
  intro ms ms' h
  exact congrArg₂ (both (· ·)) (hf ms ms' h) (hx ms ms' h)

theorem map (f : α → β) {x : Reading α} (hx : RestsOn names Alike x) :
    RestsOn names Alike (f <$> x) := by
  intro ms ms' h
  exact congrArg (both (fun g a => g a) (.ok f)) (hx ms ms' h)

theorem field {absent : Checked α} {decode : Value → Checked α} (hown : ∀ name ∈ own, name ∈ names)
    (hdecode : ∀ name ∈ own, ∀ j j', Alike name j j' →
      decode (.ofJson j) = decode (.ofJson j')) :
    RestsOn names Alike (field own absent decode) := by
  intro ms ms' h
  unfold Message.field
  dsimp only
  rcases find?_of_agree fun name hname => h name (hown name hname) with hnone | hsome
  · rw [hnone.1, hnone.2]
  · obtain ⟨name, hname, j, j', halike, hj, hj'⟩ := hsome
    rw [hj, hj']
    exact congrArg (fun r : Checked α => r.below (.name name)) (hdecode name hname j j' halike)

end RestsOn

end

namespace Kind

/-- The fields of the records of a class. -/
def fieldNames : Kind → List String
  | startRequest =>
    ["workflow_id", "iwf_worker_url", "iwf_workflow_type", "workflow_timeout_seconds",
      "start_state_id", "state_input"]
  | startResponse => ["workflow_run_id"]
  | getRequest => ["workflow_id", "workflow_run_id", "needs_results"]
  | getResponse => ["workflow_run_id", "workflow_status", "results"]
  | stateOutput => ["completed_state_id", "completed_state_output"]
  | signalRequest => ["workflow_id", "workflow_run_id", "signal_channel_name", "signal_value"]
  | resetRequest =>
    ["workflow_id", "workflow_run_id", "reset_type", "history_event_id",
      "reset_bad_binary_checksum", "earliest_time", "decision_offset", "reason",
      "skip_signal_reapply"]
  | resetResponse => ["workflow_run_id"]
  | attributesRequest => ["workflow_id", "workflow_run_id", "attribute_keys"]
  | attributesResponse => ["workflow_run_id", "query_attributes"]
  | keyValue => ["key", "value"]

/-- All names that the fields go by. -/
def names (k : Kind) : List String := k.fieldNames.flatMap namesOf

/-- The class of the records in the list that a member holds. -/
def itemKind? : Kind → String → Option Kind
  | getResponse, name => if name ∈ namesOf "results" then some stateOutput else none
  | attributesResponse, name => if name ∈ namesOf "query_attributes" then some keyValue else none
  | _, _ => none

/-- Values under the name of a field are alike only if they are equal, or are read alike as the list
of records that the field holds. -/
structure Faithful (k : Kind) (Alike : String → Json → Json → Prop) : Prop where
  plain {name : String} {j j' : Json} (h : Alike name j j') (hname : name ∈ k.names)
    (hk : k.itemKind? name = none) : j = j'
  records {name : String} {leaf : Kind} {j j' : Json} (h : Alike name j j')
    (hname : name ∈ k.names) (hk : k.itemKind? name = some leaf) :
    nullable (list leaf.shape.ofValue) (.ofJson j) =
      nullable (list leaf.shape.ofValue) (.ofJson j')

section
variable {k : Kind} {Alike : String → Json → Json → Prop} {field : String}

theorem mem_names {name : String} (hf : field ∈ k.fieldNames) (h : name ∈ namesOf field) :
    name ∈ k.names := List.mem_flatMap.mpr ⟨field, hf, h⟩

/-- A field that holds no records. -/
theorem restsOn_plain {α : Type} {absent : Checked α} {decode : Value → Checked α}
    (h : k.Faithful Alike)
    (hf : field ∈ k.fieldNames ∧ ∀ name ∈ namesOf field, k.itemKind? name = none) :
    RestsOn k.names Alike (Message.field (namesOf field) absent decode) := by
  refine .field (fun name => mem_names hf.1) fun name hname j j' halike => ?_
  rw [h.plain halike (mem_names hf.1 hname) (hf.2 name hname)]

/-- A field that holds a list of records. -/
theorem restsOn_records (leaf : Kind) {absent : Checked (Option (List leaf.Record))}
    (h : k.Faithful Alike)
    (hf : field ∈ k.fieldNames ∧ ∀ name ∈ namesOf field, k.itemKind? name = some leaf) :
    RestsOn k.names Alike
      (Message.field (namesOf field) absent (nullable (list leaf.shape.ofValue))) :=
  .field (fun _ => mem_names hf.1) fun name hname _ _ halike =>
    h.records halike (mem_names hf.1 hname) (hf.2 name hname)

/-- A record of any class is read from the members under the names of its fields. -/
theorem restsOn_reading (h : k.Faithful Alike) : RestsOn k.names Alike k.shape.reading := by
  -- One link for each field, in the order in which the reading reads them.
  cases k with
  | startRequest =>
    exact (restsOn_plain h (by decide)).map _
      |>.seq (restsOn_plain h (by decide))
      |>.seq (restsOn_plain h (by decide))
      |>.seq (restsOn_plain h (by decide))
      |>.seq (restsOn_plain h (by decide))
      |>.seq (restsOn_plain h (by decide))
  | startResponse =>
    exact (restsOn_plain h (by decide)).map _
  | getRequest =>
    exact (restsOn_plain h (by decide)).map _
      |>.seq (restsOn_plain h (by decide))
      |>.seq (restsOn_plain h (by decide))
  | getResponse =>
    exact (restsOn_plain h (by decide)).map _
      |>.seq (restsOn_plain h (by decide))
      |>.seq (restsOn_records stateOutput h ⟨by decide, fun _ hname => if_pos hname⟩)
  | stateOutput =>
    exact (restsOn_plain h (by decide)).map _
      |>.seq (restsOn_plain h (by decide))
  | signalRequest =>
    exact (restsOn_plain h (by decide)).map _
      |>.seq (restsOn_plain h (by decide))
      |>.seq (restsOn_plain h (by decide))
      |>.seq (restsOn_plain h (by decide))
  | resetRequest =>
    exact (restsOn_plain h (by decide)).map _
      |>.seq (restsOn_plain h (by decide))
      |>.seq (restsOn_plain h (by decide))
      |>.seq (restsOn_plain h (by decide))
      |>.seq (restsOn_plain h (by decide))
      |>.seq (restsOn_plain h (by decide))
      |>.seq (restsOn_plain h (by decide))
      |>.seq (restsOn_plain h (by decide))
      |>.seq (restsOn_plain h (by decide))
  | resetResponse =>
    exact (restsOn_plain h (by decide)).map _
  | attributesRequest =>
    exact (restsOn_plain h (by decide)).map _
      |>.seq (restsOn_plain h (by decide))
      |>.seq (restsOn_plain h (by decide))
  | attributesResponse =>
    exact (restsOn_plain h (by decide)).map _
      |>.seq (restsOn_records keyValue h ⟨by decide, fun _ hname => if_pos hname⟩)
  | keyValue =>
    exact (restsOn_plain h (by decide)).map _
      |>.seq (restsOn_plain h (by decide))

/-- A record is read alike from objects that agree on the names of its fields. -/
theorem ofValue_object_congr {ms ms' : List (String × Json)} (hf : k.Faithful Alike)
    (h : Agree k.names Alike ms ms') :
    k.shape.ofValue (.ofJson (.object ms)) = k.shape.ofValue (.ofJson (.object ms')) := by
  have hread := restsOn_reading hf ms ms' h
  rw [← membersOf_ofJsonMembers, ← membersOf_ofJsonMembers] at hread
  exact hread

end

end Kind

/-- Two members of the same name with values that are alike under it. -/
def Paired (Alike : String → Json → Json → Prop) (m m' : String × Json) : Prop :=
  m.1 = m'.1 ∧ Alike m.1 m.2 m'.2

/-- An object with more members, none of them under a known name, and with all of them in any order.
The members that it had keep their names, and their values are alike. Other data is as it was. -/
inductive Padded (known : List String) (Alike : String → Json → Json → Prop) : Json → Json → Prop
  | unchanged (j : Json) : Padded known Alike j j
  | object {members kept extra members' : List (String × Json)}
      (hkept : List.Forall₂ (Paired Alike) members kept)
      (hextra : ∀ m ∈ extra, m.1 ∉ known)
      (hperm : members'.Perm (kept ++ extra))
      (hnames : (members'.map (·.1)).Nodup) :
      Padded known Alike (.object members) (.object members')

namespace Kind

/-- The values of a member are equal, if the class knows it. -/
def AlikeWithin (k : Kind) (name : String) (j j' : Json) : Prop := name ∈ k.names → j = j'

/-- The values of a member are equal, or lists of the records that it holds, each of them padded. If
the class does not know the member, they are any two values. -/
inductive Alike (k : Kind) (name : String) : Json → Json → Prop
  | equal (j : Json) : k.Alike name j j
  | unknown (j j' : Json) (h : name ∉ k.names) : k.Alike name j j'
  | records {leaf : Kind} {items items' : List Json} (hk : k.itemKind? name = some leaf)
      (hitems : List.Forall₂ (Message.Padded leaf.names leaf.AlikeWithin) items items') :
      k.Alike name (.array items) (.array items')

/-- The data of a record and the same data with members that the class does not know, in it and in
the records that it holds. -/
def Padded (k : Kind) : Json → Json → Prop := Message.Padded k.names k.Alike

end Kind

theorem find?_of_forall₂ {Alike : String → Json → Json → Prop} {ms ms' : List (String × Json)}
    (h : List.Forall₂ (Paired Alike) ms ms') (name : String) :
    Option.Rel (fun m m' => m.1 = name ∧ m'.1 = name ∧ Alike name m.2 m'.2)
      (ms.find? (·.1 == name)) (ms'.find? (·.1 == name)) := by
  induction h with
  | nil => exact .none
  | @cons m m' _ _ hpair _ ih =>
    obtain ⟨hnames, halike⟩ := hpair
    by_cases hm : m.1 = name
    · have hm' : m'.1 = name := hnames ▸ hm
      rw [List.find?_cons_of_pos (by simpa using hm), List.find?_cons_of_pos (by simpa using hm')]
      exact .some ⟨hm, hm', hm ▸ halike⟩
    · have hm' : m'.1 ≠ name := hnames ▸ hm
      rw [List.find?_cons_of_neg (by simpa using hm), List.find?_cons_of_neg (by simpa using hm')]
      exact ih

/-- A known name is found among the members as if there were no others. -/
theorem find?_of_perm {kept extra ms : List (String × Json)} {known : List String} {name : String}
    (hextra : ∀ m ∈ extra, m.1 ∉ known) (hperm : ms.Perm (kept ++ extra))
    (hnames : (ms.map (·.1)).Nodup) (hname : name ∈ known) :
    ms.find? (·.1 == name) = kept.find? (·.1 == name) := by
  have hall : ((kept ++ extra).map (·.1)).Nodup := (hperm.map _).nodup_iff.mp hnames
  have hkept : (kept.map (·.1)).Nodup := by
    rw [List.map_append] at hall
    exact hall.of_append_left
  refine Option.ext fun m => ?_
  rw [find?_eq_some_iff hnames, find?_eq_some_iff hkept, hperm.mem_iff, List.mem_append]
  constructor
  · rintro ⟨hm | hm, rfl⟩
    · exact ⟨hm, rfl⟩
    · exact absurd hname (hextra m hm)
  · rintro ⟨hm, heq⟩
    exact ⟨.inl hm, heq⟩

/-- A record of any class is read alike from padded data. -/
theorem ofValue_of_padded {k : Kind} {Alike : String → Json → Json → Prop} {j j' : Json}
    (hf : k.Faithful Alike) (h : Padded k.names Alike j j') :
    k.shape.ofValue (.ofJson j) = k.shape.ofValue (.ofJson j') := by
  cases h with
  | unchanged => rfl
  | object hkept hextra hperm hnames =>
    refine k.ofValue_object_congr hf fun name hname => ?_
    rw [find?_of_perm hextra hperm hnames hname]
    exact find?_of_forall₂ hkept name

theorem list_congr {α : Type} {decode : Value → Checked α} {R : Json → Json → Prop}
    {items items' : List Json} (hR : ∀ j j', R j j' → decode (.ofJson j) = decode (.ofJson j'))
    (h : List.Forall₂ R items items') :
    list decode (.ofJson (.array items)) = list decode (.ofJson (.array items')) := by
  have hmap : (Value.ofJsonItems items).map decode = (Value.ofJsonItems items').map decode := by
    rw [Value.ofJsonItems_eq_map, Value.ofJsonItems_eq_map, List.map_map, List.map_map]
    exact map_eq_of_forall₂ h hR
  exact congrArg (Validation.collectIndexed 0) hmap

namespace Kind

theorem faithful_alikeWithin (k : Kind) : k.Faithful k.AlikeWithin where
  plain h hname _ := h hname
  records h hname _ := by rw [h hname]

theorem faithful_alike (k : Kind) : k.Faithful k.Alike where
  plain h hname hk := by
    cases h with
    | equal => rfl
    | unknown _ _ hunknown => exact absurd hname hunknown
    | records hleaf _ =>
      rw [hk] at hleaf
      cases hleaf
  records h hname hk := by
    cases h with
    | equal => rfl
    | unknown _ _ hunknown => exact absurd hname hunknown
    | records hleaf hitems =>
      obtain rfl := Option.some.inj (hk.symm.trans hleaf)
      have hread := list_congr (fun _ _ => ofValue_of_padded (faithful_alikeWithin _)) hitems
      exact congrArg (Except.map some) hread

/-- Data is refused with the same faults or makes the same record, whatever it is padded with. -/
theorem ofValue_padded {k : Kind} {j j' : Json} (h : k.Padded j j') :
    k.shape.ofValue (.ofJson j) = k.shape.ofValue (.ofJson j') :=
  ofValue_of_padded k.faithful_alike h

end Kind

end WorkflowClient.Message
