import WorkflowClient.Proofs.Json.Entries
import WorkflowClient.Proofs.Json.Neat
import WorkflowClient.Proofs.Message.Reading

/-! The wire form of values: what is left out of it, and how what is left is read back. -/
namespace WorkflowClient.Message
open Json (Neat Part)
open Validation

/-- The names differ, and none is the wire name of another one. -/
def Unambiguous (names : List String) : Prop :=
  names.Nodup ∧ ∀ m ∈ names, ∀ n ∈ names, camel m ∈ namesOf n → m = n

instance (names : List String) : Decidable (Unambiguous names) :=
  inferInstanceAs (Decidable (_ ∧ _))

theorem Unambiguous.nodup_camel {names : List String} (h : Unambiguous names) :
    (names.map camel).Nodup :=
  h.1.map_on fun m hm n hn heq => h.2 m hm n hn (by simp [namesOf, heq])

def hasValue (m : String × Value) : Bool :=
  match m.2 with
  | .none => false
  | _ => true

theorem wireMembers_eq (ms : Members) :
    wireMembers ms = (ms.filter hasValue).map fun m => (camel m.1, wireOf m.2) := by
  induction ms with
  | nil => rfl
  | cons m rest ih =>
    obtain ⟨name, v⟩ := m
    cases v <;> simp [wireMembers, List.filter_cons, hasValue, ih]

theorem wireItems_eq_map (items : List Value) : wireItems items = items.map wireOf := by
  induction items with
  | nil => rfl
  | cons v rest ih => rw [wireItems, ih, List.map_cons]

/-- The members on the wire are those with a value, in the order of the fields. -/
theorem names_wireMembers (ms : Members) :
    (wireMembers ms).map (·.1) = (ms.filter hasValue).map fun m => camel m.1 := by
  rw [wireMembers_eq, List.map_map]
  rfl

/-- Values that have a form on the wire. -/
inductive OnWire : Value → Prop
  | bool (b : Bool) : OnWire (.bool b)
  | int {n : Int} (h : Number.writable n = true) : OnWire (.int n)
  | str (s : String) : OnWire (.str s)
  | member {mixin cls name value} (h : OnWire value) : OnWire (.member mixin cls name value)
  | sequence {kind items} (h : ∀ v ∈ items, OnWire v) : OnWire (.sequence kind items)
  | record {kind cls} {fields : Members} (hn : Unambiguous (fields.map (·.1)))
      (h : ∀ f ∈ fields, hasValue f = true → OnWire f.2) : OnWire (.record kind cls fields)

variable {v : Value} {ms : Members}

theorem OnWire.neat (h : OnWire v) : Neat (wireOf v) := by
  induction h with
  | bool b => exact .bool b
  | int h => exact .int h
  | str s => exact .str s
  | member _ ih => exact ih
  | sequence _ ih =>
    rw [wireOf, wireItems_eq_map]
    exact .array (List.forall_mem_map.mpr ih)
  | record hn _ ih =>
    rename_i fields _
    rw [wireOf]
    refine .object ?_ fun m hm => ?_
    · rw [names_wireMembers]
      refine hn.nodup_camel.sublist ?_
      rw [List.map_map]
      exact List.filter_sublist.map _
    · rw [wireMembers_eq] at hm
      obtain ⟨f, hf, rfl⟩ := List.mem_map.mp hm
      exact ih f (List.mem_of_mem_filter hf) (List.of_mem_filter hf)

/-- Nothing on the wire is null, at any depth, and no numbers but integers are. -/
theorem OnWire.part {p : Json} (h : OnWire v) (hp : Part p (wireOf v)) :
    p ≠ .null ∧ ∀ x, p ≠ .float x := by
  induction h with
  | bool b =>
    cases hp
    simp [wireOf]
  | int h =>
    cases hp
    simp [wireOf]
  | str s =>
    cases hp
    simp [wireOf]
  | member _ ih => exact ih hp
  | sequence _ ih =>
    rw [wireOf, wireItems_eq_map] at hp
    cases hp with
    | self => simp
    | item hj hp =>
      obtain ⟨v, hv, rfl⟩ := List.mem_map.mp hj
      exact ih v hv hp
  | record hn _ ih =>
    rw [wireOf, wireMembers_eq] at hp
    cases hp with
    | self => simp
    | member hm hp =>
      obtain ⟨f, hf, rfl⟩ := List.mem_map.mp hm
      exact ih f (List.mem_of_mem_filter hf) (List.of_mem_filter hf) hp

theorem OnWire.legible (h : OnWire v) : Json.Legible (wireOf v) :=
  h.neat.legible fun x hp => absurd rfl ((h.part hp).2 x)

/-- The members that the fields of a record are read from at the other end. -/
def received (ms : Members) : Members := membersOf (Value.ofJsonMembers (wireMembers ms))

theorem received_eq (ms : Members) :
    received ms = (ms.filter hasValue).map fun m => (camel m.1, .ofJson (wireOf m.2)) := by
  rw [received, membersOf_ofJsonMembers, values, wireMembers_eq, List.map_map]
  rfl

/-- A field with a value is found under its wire name. -/
theorem find?_received (hu : Unambiguous (ms.map (·.1))) {name : String} (hm : (name, v) ∈ ms)
    (hv : hasValue (name, v) = true) :
    find? (received ms) (namesOf name) = some (camel name, .ofJson (wireOf v)) := by
  have hn : ((received ms).map (·.1)).Nodup := by
    rw [received_eq, List.map_map]
    refine hu.nodup_camel.sublist ?_
    rw [List.map_map]
    exact List.filter_sublist.map _
  have hmem : (camel name, Value.ofJson (wireOf v)) ∈ received ms := by
    rw [received_eq]
    exact List.mem_map.mpr ⟨(name, v), List.mem_filter.mpr ⟨hm, hv⟩, rfl⟩
  simp [namesOf, find?, find?_of_nodup hn hmem]

/-- A field without a value is not found: no other field goes by its names. -/
theorem find?_received_none (hu : Unambiguous (ms.map (·.1))) {name : String}
    (hm : (name, .none) ∈ ms) : find? (received ms) (namesOf name) = none := by
  have habsent : ∀ m ∈ received ms, m.1 ∉ namesOf name := by
    intro m hmr hin
    rw [received_eq] at hmr
    obtain ⟨f, hf, rfl⟩ := List.mem_map.mp hmr
    have hfm := List.mem_of_mem_filter hf
    have hname : f.1 = name :=
      hu.2 _ (List.mem_map_of_mem hfm) _ (List.mem_map_of_mem (f := (·.1)) hm) hin
    have hsame : f = (name, .none) := List.inj_on_of_nodup_map hu.1 hfm hm hname
    rw [hsame] at hf
    exact absurd (List.of_mem_filter hf) (by simp [hasValue])
  have hnone {n : String} (hn : n ∈ namesOf name) : (received ms).find? (·.1 == n) = none := by
    rw [List.find?_eq_none]
    intro m hmr heq
    exact habsent m hmr (beq_iff_eq.mp heq ▸ hn)
  simp only [namesOf, find?, hnone (n := camel name) (by simp [namesOf]),
    hnone (n := name) (by simp [namesOf]), Option.orElse_none]

section
variable {α β : Type} {decode : Value → Checked α} {a : α}

/-- The value has a form on the wire that is read as `a`. -/
structure Carries (decode : Value → Checked α) (v : Value) (a : α) : Prop where
  onWire : OnWire v
  read : decode (.ofJson (wireOf v)) = .ok a

/-- The value of a field that may be left out. -/
inductive CarriesOr (default : α) (decode : Value → Checked α) : Value → α → Prop
  | omitted : CarriesOr default decode .none default
  | given {v : Value} {a : α} (h : Carries decode v a) : CarriesOr default decode v a

theorem carries_text (s : String) : Carries text (.str s) s := ⟨.str s, rfl⟩

theorem carries_integer {n : Int} (h : Number.writable n = true) : Carries integer (.int n) n :=
  ⟨.int h, rfl⟩

theorem carries_truth (b : Bool) : Carries truth (.bool b) b := ⟨.bool b, rfl⟩

theorem carries_truthOr (default b : Bool) : CarriesOr default truth (.bool b) b :=
  .given (carries_truth b)

theorem carries_choice {c : Choices α}
    (h : c.members.find? (fun b => c.text b == c.text a) = some a) :
    Carries (choice c) (c.toValue a) a :=
  ⟨.member (.str _), by simp [choice, Choices.toValue, wireOf, Value.ofJson, checkStr, h,
    Except.toOption]⟩

theorem Carries.nullable (h : Carries decode v a) : Carries (nullable decode) v (some a) := by
  refine ⟨h.onWire, ?_⟩
  have hread := h.read
  have hnull := (h.onWire.part .self).1
  cases hw : wireOf v with
  | null => exact absurd hw hnull
  | _ =>
    rw [hw] at hread
    exact congrArg (Except.map some) hread

theorem Carries.orNone (h : Carries decode v a) :
    CarriesOr none (Message.nullable decode) v (some a) := .given h.nullable

theorem carries_text? (s : Option String) :
    CarriesOr none (Message.nullable text) (ofText? s) s := by
  cases s with
  | none => exact .omitted
  | some s => exact (carries_text s).orNone

theorem carries_integer? {n : Option Int} (h : ∀ m ∈ n, Number.writable m = true) :
    CarriesOr none (Message.nullable integer) (ofInt? n) n := by
  cases n with
  | none => exact .omitted
  | some n => exact (carries_integer (h n rfl)).orNone

theorem collectIndexed_ok {as : List α} (start : Nat) :
    collectIndexed start (as.map .ok) = .ok as := by
  induction as generalizing start with
  | nil => rfl
  | cons a rest ih =>
    rw [List.map_cons, collectIndexed, ih]
    rfl

theorem list_text_map (ks : List String) :
    list text (.sequence .list (ks.map .str)) = .ok ks := by
  have hread : (ks.map Value.str).map text = ks.map .ok := by
    rw [List.map_map]
    rfl
  change collectIndexed 0 ((ks.map Value.str).map text) = _
  rw [hread, collectIndexed_ok]

theorem carries_list {encode : α → Value} (h : ∀ a, Carries decode (encode a) a) (as : List α) :
    Carries (list decode) (.sequence .list (as.map encode)) as := by
  refine ⟨.sequence (List.forall_mem_map.mpr fun a _ => (h a).onWire), ?_⟩
  have hread : (as.map encode).map (fun v => decode (.ofJson (wireOf v))) = as.map .ok := by
    rw [List.map_map]
    exact List.map_congr_left fun a _ => (h a).read
  rw [wireOf, wireItems_eq_map, Value.ofJson, Value.ofJsonItems_eq_map, List.map_map]
  change collectIndexed 0 (((as.map encode).map _).map decode) = .ok as
  rw [List.map_map]
  exact hread ▸ collectIndexed_ok 0

/-- The fields of a record are, one by one, those that its reading reads. -/
inductive Mirrors : {α : Type} → Reading α → Members → α → Prop
  | make {α : Type} (f : α) : Mirrors (pure f) [] f
  | required {α β : Type} {R : Reading (β → α)} {fields : Members} {f : β → α} {decode v b}
      (h : Mirrors R fields f) (name : String) (hv : Carries decode v b) :
      Mirrors (R <*> Message.required name decode) (fields ++ [(name, v)]) (f b)
  | optional {α β : Type} {R : Reading (β → α)} {fields : Members} {f : β → α} {default decode v b}
      (h : Mirrors R fields f) (name : String) (hv : CarriesOr default decode v b) :
      Mirrors (R <*> Message.optional name default decode) (fields ++ [(name, v)]) (f b)

theorem Mirrors.onWire {R : Reading α} {fields : Members} (h : Mirrors R fields a) :
    ∀ f ∈ fields, hasValue f = true → OnWire f.2 := by
  induction h with
  | make f => exact fun f hf => by cases hf
  | required _ name hv ih =>
    intro f hf hvalue
    rcases List.mem_append.mp hf with hf | hf
    · exact ih f hf hvalue
    · obtain rfl := List.mem_singleton.mp hf
      exact hv.onWire
  | optional _ name hv ih =>
    intro f hf hvalue
    rcases List.mem_append.mp hf with hf | hf
    · exact ih f hf hvalue
    · obtain rfl := List.mem_singleton.mp hf
      cases hv with
      | omitted => cases hvalue
      | given hv => exact hv.onWire

theorem run_seq {f : Reading (β → α)} {x : Reading β} {g : β → α} {b : β}
    (hf : f.run ms = .ok g) (hx : x.run ms = .ok b) : (f <*> x).run ms = .ok (g b) :=
  run_seq_eq_ok.mpr ⟨g, b, hf, hx, rfl⟩

/-- Read from the members that arrive, the fields make up the record again. -/
theorem Mirrors.run {R : Reading α} {fields : Members} (h : Mirrors R fields a)
    (hu : Unambiguous (ms.map (·.1))) (hms : fields ⊆ ms) : R.run (received ms) = .ok a := by
  have hread {β : Type} {name : String} {absent : Checked β} {decode : Value → Checked β}
      {v : Value} {b : β} (hm : (name, v) ∈ ms) (hv : Carries decode v b)
      (hne : hasValue (name, v) = true) :
      (field (namesOf name) absent decode).run (received ms) = .ok b :=
    (field_eq_ok (find?_received hu hm hne)).mpr hv.read
  -- The members stay those of the whole record while the fields get fewer.
  induction h with
  | make f => rfl
  | required _ name hv ih =>
    obtain ⟨hrest, hlast⟩ := List.append_subset.mp hms
    exact run_seq (ih hrest) (hread (hlast (by simp)) hv (by cases hv.onWire <;> rfl))
  | optional _ name hv ih =>
    obtain ⟨hrest, hlast⟩ := List.append_subset.mp hms
    refine run_seq (ih hrest) ?_
    cases hv with
    | omitted =>
      have hnone := find?_received_none hu (hlast (List.mem_singleton.mpr rfl))
      simp [Message.optional, field, hnone]
    | given hv => exact hread (hlast (by simp)) hv (by cases hv.onWire <;> rfl)

/-- A record whose fields are those of its reading comes back from the wire. -/
theorem Mirrors.carries {S : Shape α} (h : Mirrors S.reading (S.fields a) a)
    (hu : Unambiguous ((S.fields a).map (·.1))) : Carries S.ofValue (S.toValue a) a :=
  ⟨.record hu h.onWire, h.run hu (List.Subset.refl _)⟩

end
end WorkflowClient.Message
