import Mathlib.Data.Multiset.Defs
import WorkflowClient.Proofs.Value.Symmetric

/-! Hashing of values: equal values have equal hashes, whatever the hash functions are. -/
namespace WorkflowClient

/-- The double without the sign of a zero. -/
def Number.Double.unsigned : Number.Double → Number.Double
  | .finite _ 0 .. => .zero false
  | x => x

theorem Number.Double.unsigned_eq_of_equals {x y : Number.Double} (h : x.equals y = true) :
    x.unsigned = y.unsigned := by
  cases x <;> cases y <;> simp only [Double.equals, Bool.false_eq_true] at h
  · rw [beq_iff_eq.mp h]
  · simp only [Bool.or_eq_true, decide_eq_true_eq] at h
    rcases h with ⟨rfl, rfl, rfl⟩ | ⟨rfl, rfl⟩ <;> rfl

namespace Calendar

/-- Whether the moment is known, and what the clock shows, or would show in universal time. -/
def Clock.reading (c : Clock) : Bool × Int :=
  (c.universal?.isSome, c.universal?.getD c.microseconds)

theorem Clock.reading_eq_of_equals {a b : Clock} (h : a.equals b = true) :
    a.reading = b.reading := by
  unfold Clock.equals at h
  cases ha : a.universal? <;> cases hb : b.universal? <;> simp_all [Clock.reading]

def Instant.reading (t : Instant) : Bool × Option String × Int :=
  match t.clock.offset with
  | some o => (true, t.moment o)
  | none => (false, none, t.shown)

theorem Instant.reading_eq_of_equals {a b : Instant} (h : a.equals b = true) :
    a.reading = b.reading := by
  unfold Instant.equals at h
  cases ha : a.clock.offset <;> cases hb : b.clock.offset <;> simp_all [Instant.reading]

end Calendar

namespace Value

/-- What the hash of a value without items depends on. -/
inductive Mark
  | none
  | quantity (q : Quantity)
  | text (s : String)
  | octets (data : List UInt8)
  | range (bounds : Option (Int × Int))
  | member (cls name : String)
  | date (d : Calendar.Date)
  | clock (reading : Bool × Int)
  | instant (reading : Bool × Option String × Int)
  | span (microseconds : Int)
  | uuid (u : Uuid)
  | complex (re im : Number.Double)
  | classObject (kind : ClassKind) (name : String)
  /-- Plain instances, and values that are open to change. -/
  | other

/-- The mark of a value that is neither a number nor a text. -/
def plainMark : Value → Mark
  | .none => .none
  | .octets _ data => .octets data
  | .range a b => .range (if a < b then some (a, b) else Option.none)
  | .member .plain cls name _ => .member cls name
  | .date d => .date d
  | .clock c => .clock c.reading
  | .instant t => .instant t.reading
  | .span n => .span n
  | .uuid u => .uuid u
  | .complex a b => .complex a.unsigned b.unsigned
  | .classObject kind name => .classObject kind name
  | _ => .other

def mark (v : Value) : Mark :=
  match v.quantity?, v.text? with
  | some q, _ => .quantity q
  | Option.none, some s => .text s
  | Option.none, Option.none => v.plainMark

/-- Any functions that values can be hashed with. Sets are hashed without regard to order. -/
structure Hasher where
  leaf : Mark → Int
  tuple : List Int → Int
  set : Multiset Int → Int
  record (cls : String) : List Int → Int

section
variable (H : Hasher)

mutual

def digest : Value → Int
  | .sequence .tuple items => H.tuple (digestItems items)
  | .sequence .set items => H.set (digestItems items)
  | .sequence .frozenSet items => H.set (digestItems items)
  | .record .tuple _ fields => H.tuple (digestFields fields)
  | .record _ cls fields => H.record cls (digestFields fields)
  | v => H.leaf v.mark

def digestItems : List Value → List Int
  | [] => []
  | v :: rest => v.digest :: digestItems rest

def digestFields : List (String × Value) → List Int
  | [] => []
  | (_, v) :: rest => v.digest :: digestFields rest

end
end

variable {H : Hasher} {v w : Value}

theorem digestItems_eq_map (items : List Value) : digestItems H items = items.map (digest H) := by
  induction items with
  | nil => rfl
  | cons v rest ih => rw [digestItems, ih, List.map_cons]

theorem digestFields_eq_map (fields : List (String × Value)) :
    digestFields H fields = fields.map fun f => f.2.digest H := by
  induction fields with
  | nil => rfl
  | cons f rest ih => rw [digestFields, ih, List.map_cons]

theorem digest_of_hasItems (h : v.hasItems = false) : v.digest H = H.leaf v.mark := by
  cases v <;> first | rfl | cases h

theorem digest_of_tupleItems {xs : List Value} (h : v.tupleItems? = some xs) :
    v.digest H = H.tuple (xs.map (digest H)) := by
  unfold tupleItems? at h
  split at h
  · cases h
    rw [digest, digestItems_eq_map]
  · cases h
    rw [digest, digestFields_eq_map, List.map_map]
    rfl
  · cases h

theorem digest_of_setItems {xs : List Value} (h : v.setItems? = some xs) :
    v.digest H = H.set (xs.map (digest H)) := by
  unfold setItems? at h
  split at h
  · cases h
    rw [digest, digestItems_eq_map]
  · cases h
    rw [digest, digestItems_eq_map]
  · cases h

theorem digest_record {kind : RecordKind} {cls : String} {fields : List (String × Value)}
    (hk : kind ≠ .tuple) : (Value.record kind cls fields).digest H =
      H.record cls (fields.map fun f => f.2.digest H) := by
  rw [← digestFields_eq_map]
  cases kind <;> first | rfl | exact absurd rfl hk

theorem LeafAlike.mark_eq (h : LeafAlike v w) : v.mark = w.mark := by
  cases h with
  | none | octets | member | date | span | uuid | classObject => rfl
  | range h =>
    refine congrArg Mark.range ?_
    rcases h with ⟨hab, hcd⟩ | ⟨rfl, rfl⟩
    · rw [if_neg (Int.not_lt.mpr hab), if_neg (Int.not_lt.mpr hcd)]
    · rfl
  | clock h => exact congrArg Mark.clock (Calendar.Clock.reading_eq_of_equals h)
  | instant h => exact congrArg Mark.instant (Calendar.Instant.reading_eq_of_equals h)
  | complex h h' =>
    exact congrArg₂ Mark.complex (Number.Double.unsigned_eq_of_equals h)
      (Number.Double.unsigned_eq_of_equals h')

theorem mark_eq_of_leafEquals (h : leafEquals v w = true) : v.mark = w.mark := by
  rcases leafEquals_iff.mp h with ⟨a, b, ha, hb, hab⟩ | ⟨s, hs, ht⟩ | h
  · rw [mark, mark, ha, hb, Quantity.eq_of_equals hab]
  · rw [mark, mark, quantity?_of_text? hs, quantity?_of_text? ht, hs, ht]
  · exact h.mark_eq

/-- What the value is found equal to has its hash. -/
def HashedAt (H : Hasher) (v : Value) : Prop :=
  ∀ w : Value, v.equals w = true → v.digest H = w.digest H

theorem hashedAt_of_hasItems (h : v.hasItems = false) : HashedAt H v := by
  intro w hvw
  rw [equals_eq_leafEquals h] at hvw
  rw [digest_of_hasItems h, digest_of_hasItems (hasItems_of_leafEquals hvw),
    mark_eq_of_leafEquals hvw]

theorem digests_of_equalItems {xs ys : List Value} (h : ∀ x ∈ xs, HashedAt H x)
    (hxy : equalItems xs ys = true) : xs.map (digest H) = ys.map (digest H) := by
  have hdigests := forall₂_imp_mem (equalItems_iff.mp hxy) fun x hx y _ => h x hx y
  exact map_eq_of_forall₂ hdigests fun _ _ heq => heq

theorem digests_of_equalFields {xs ys : List (String × Value)} (h : ∀ x ∈ xs, HashedAt H x.2)
    (hxy : equalFields xs ys = true) :
    xs.map (fun f => f.2.digest H) = ys.map fun f => f.2.digest H := by
  have hdigests := forall₂_imp_mem (equalFields_iff.mp hxy) fun x hx y _ hxy => h x hx y.2 hxy.2
  exact map_eq_of_forall₂ hdigests fun _ _ heq => heq

theorem hashedAt_tuple {xs : List Value} (hv : v.tupleItems? = some xs)
    (h : ∀ x ∈ xs, HashedAt H x) : HashedAt H v := by
  intro w hvw
  obtain ⟨ys, hys, hxy⟩ := (equals_of_tupleItems hv).mp hvw
  rw [digest_of_tupleItems hv, digest_of_tupleItems hys, digests_of_equalItems h hxy]

theorem hashedAt_set {xs : List Value} (hv : v.setItems? = some xs)
    (hu : ∀ x ∈ xs, x.unrepeating = true) (hd : xs.Pairwise fun x x' => x.equals x' = false)
    (h : ∀ x ∈ xs, HashedAt H x) : HashedAt H v := by
  intro w hvw
  obtain ⟨ys, hys, hl, hxy⟩ := (equals_of_setItems hv).mp hvw
  have hperm : (xs.map (digest H)).Perm (ys.map (digest H)) :=
    perm_map_of_apart (allAmong_iff.mp hxy)
      (apart_of_pairwise (fun x hx => x.equals_symm (hu x hx)) hd) (Nat.le_of_eq hl.symm)
      fun x hx y _ => h x hx y
  rw [digest_of_setItems hv, digest_of_setItems hys, Multiset.coe_eq_coe.mpr hperm]

/-- Equal values are hashed alike. Lists, queues and dicts, which are not to be hashed, are no
exception, as one hash is set aside for them all. -/
theorem digest_eq_of_equals (v : Value) (hv : v.unrepeating = true) : HashedAt H v := by
  induction v using inductParts with
  | sequence kind items ih =>
    rw [unrepeating, Bool.and_eq_true, unrepeatingItems_iff] at hv
    have hitems : ∀ x ∈ items, HashedAt H x := fun x hx => ih x hx (hv.1 x hx)
    have hordered (hk : kind = .list ∨ kind = .queue) : HashedAt H (.sequence kind items) := by
      intro w hvw
      obtain ⟨ys, rfl, -⟩ := (equals_sequence hk).mp hvw
      rcases hk with rfl | rfl <;> rfl
    cases kind with
    | list => exact hordered (.inl rfl)
    | queue => exact hordered (.inr rfl)
    | tuple => exact hashedAt_tuple rfl hitems
    | set => exact hashedAt_set rfl hv.1 (by simpa [SequenceKind.isSet] using hv.2) hitems
    | frozenSet => exact hashedAt_set rfl hv.1 (by simpa [SequenceKind.isSet] using hv.2) hitems
  | dict entries ihk ih =>
    intro w hvw
    obtain ⟨ys, rfl, -⟩ := equals_dict.mp hvw
    rfl
  | record kind cls fields ih =>
    rw [unrepeating, unrepeatingFields_iff] at hv
    have hfields : ∀ f ∈ fields, HashedAt H f.2 := fun f hf => ih f hf (hv f hf)
    by_cases hk : kind = .tuple
    · subst hk
      exact hashedAt_tuple rfl (List.forall_mem_map.mpr hfields)
    · intro w hvw
      obtain ⟨ys, rfl, hxy⟩ := (equals_record hk).mp hvw
      rw [digest_record hk, digest_record hk, digests_of_equalFields hfields hxy]
  | member mixin cls name value ih => exact hashedAt_of_hasItems rfl
  | leaf v hleaf => exact hashedAt_of_hasItems (by cases v <;> first | rfl | cases hleaf)

end Value
end WorkflowClient
