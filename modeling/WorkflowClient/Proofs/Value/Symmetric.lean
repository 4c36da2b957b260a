import WorkflowClient.Proofs.Value.Transitive

/-! Equality of values is symmetric, as long as no set holds a value twice and no dict a key. -/
namespace WorkflowClient

namespace Number

theorem Double.equals_symm {x y : Double} (h : x.equals y = true) : y.equals x = true := by
  cases x <;> cases y <;> simp only [Double.equals, Bool.false_eq_true] at h ⊢
  · rw [beq_iff_eq] at h ⊢
    exact h.symm
  · simp only [Bool.or_eq_true, decide_eq_true_eq] at h ⊢
    rcases h with ⟨rfl, rfl, rfl⟩ | ⟨hx, hy⟩
    · exact .inl ⟨rfl, rfl, rfl⟩
    · exact .inr ⟨hy, hx⟩

end Number

namespace Calendar

theorem Clock.equals_symm {a b : Clock} (h : a.equals b = true) : b.equals a = true := by
  unfold Clock.equals at h ⊢
  cases ha : a.universal? <;> cases hb : b.universal? <;> simp_all

theorem Instant.equals_symm {a b : Instant} (h : a.equals b = true) : b.equals a = true := by
  unfold Instant.equals at h ⊢
  cases ha : a.clock.offset <;> cases hb : b.clock.offset <;> simp_all

end Calendar

def SequenceKind.isSet : SequenceKind → Bool
  | .set | .frozenSet => true
  | .list | .tuple | .queue => false

namespace Value

variable {v w : Value}

mutual

/-- No set in the value holds two values that are equal, and no dict two such keys. -/
def unrepeating : Value → Bool
  | .sequence kind items =>
    unrepeatingItems items &&
      (!kind.isSet || decide (items.Pairwise fun v w => v.equals w = false))
  | .dict entries =>
    unrepeatingEntries entries && decide (entries.Pairwise fun e f => e.1.equals f.1 = false)
  | .record _ _ fields => unrepeatingFields fields
  | .member _ _ _ value => value.unrepeating
  | _ => true

def unrepeatingItems : List Value → Bool
  | [] => true
  | v :: rest => v.unrepeating && unrepeatingItems rest

def unrepeatingEntries : List (Value × Value) → Bool
  | [] => true
  | (k, v) :: rest => k.unrepeating && v.unrepeating && unrepeatingEntries rest

def unrepeatingFields : List (String × Value) → Bool
  | [] => true
  | (_, v) :: rest => v.unrepeating && unrepeatingFields rest

end

theorem unrepeatingItems_iff {items : List Value} :
    unrepeatingItems items = true ↔ ∀ v ∈ items, v.unrepeating = true := by
  induction items <;> simp_all [unrepeatingItems]

theorem unrepeatingEntries_iff {entries : List (Value × Value)} :
    unrepeatingEntries entries = true ↔
      ∀ e ∈ entries, e.1.unrepeating = true ∧ e.2.unrepeating = true := by
  induction entries with
  | nil => simp [unrepeatingEntries]
  | cons e rest ih => simp [unrepeatingEntries, ih]

theorem unrepeatingFields_iff {fields : List (String × Value)} :
    unrepeatingFields fields = true ↔ ∀ f ∈ fields, f.2.unrepeating = true := by
  induction fields with
  | nil => simp [unrepeatingFields]
  | cons f rest ih => simp [unrepeatingFields, ih]

theorem Quantity.equals_symm {a b : Quantity} (h : a.equals b = true) : b.equals a = true := by
  obtain rfl := Quantity.eq_of_equals h
  exact h

theorem LeafAlike.symm (h : LeafAlike v w) : LeafAlike w v := by
  cases h with
  | none => exact .none
  | octets => exact .octets
  | range h => exact .range (by omega)
  | member => exact .member
  | date => exact .date
  | clock h => exact .clock (Calendar.Clock.equals_symm h)
  | instant h => exact .instant (Calendar.Instant.equals_symm h)
  | span => exact .span
  | uuid => exact .uuid
  | complex h h' => exact .complex (Number.Double.equals_symm h) (Number.Double.equals_symm h')
  | classObject => exact .classObject

theorem leafEquals_symm (h : leafEquals v w = true) : leafEquals w v = true := by
  rw [leafEquals_iff] at h ⊢
  rcases h with ⟨a, b, ha, hb, hab⟩ | ⟨s, hs, ht⟩ | h
  · exact .inl ⟨b, a, hb, ha, Quantity.equals_symm hab⟩
  · exact .inr (.inl ⟨s, ht, hs⟩)
  · exact .inr (.inr h.symm)

/-- What the value is found equal to is equal to the value. -/
def SymmetricAt (v : Value) : Prop := ∀ w : Value, v.equals w = true → w.equals v = true

theorem symmetricAt_of_hasItems (h : v.hasItems = false) : SymmetricAt v := by
  intro w hvw
  rw [equals_eq_leafEquals h] at hvw
  rw [equals_eq_leafEquals (hasItems_of_leafEquals hvw)]
  exact leafEquals_symm hvw

theorem equalItems_symm {xs ys : List Value} (h : ∀ x ∈ xs, SymmetricAt x)
    (hxy : equalItems xs ys = true) : equalItems ys xs = true := by
  rw [equalItems_iff] at hxy ⊢
  exact (forall₂_imp_mem hxy fun x hx y _ => h x hx y).flip

theorem equalFields_symm {xs ys : List (String × Value)} (h : ∀ x ∈ xs, SymmetricAt x.2)
    (hxy : equalFields xs ys = true) : equalFields ys xs = true := by
  rw [equalFields_iff] at hxy ⊢
  refine List.Forall₂.flip (forall₂_imp_mem hxy fun x hx y _ hxy => ?_)
  exact ⟨hxy.1.symm, h x hx y.2 hxy.2⟩

theorem symmetricAt_tuple {xs : List Value} (hv : v.tupleItems? = some xs)
    (h : ∀ x ∈ xs, SymmetricAt x) : SymmetricAt v := by
  intro w hvw
  obtain ⟨ys, hys, hxy⟩ := (equals_of_tupleItems hv).mp hvw
  exact (equals_of_tupleItems hys).mpr ⟨xs, hv, equalItems_symm h hxy⟩

/-- No value equals two that differ. -/
theorem apart_of_pairwise {α : Type} {key : α → Value} {xs : List α}
    (h : ∀ x ∈ xs, SymmetricAt (key x))
    (hd : xs.Pairwise fun x x' => (key x).equals (key x') = false) :
    Apart (fun x (y : Value) => (key x).equals y = true) xs := by
  refine hd.imp_of_mem fun {x x'} _ hx' hne y hxy hxy' => ?_
  rw [equals_trans _ y _ hxy (h x' hx' y hxy')] at hne
  cases hne

/-- Different values of a set are equal to different values of the other. As there are equally many
of both, none of the other is left out. -/
theorem symmetricAt_set {xs : List Value} (hv : v.setItems? = some xs)
    (h : ∀ x ∈ xs, SymmetricAt x) (hd : xs.Pairwise fun x x' => x.equals x' = false) :
    SymmetricAt v := by
  intro w hvw
  obtain ⟨ys, hys, hl, hxy⟩ := (equals_of_setItems hv).mp hvw
  refine (equals_of_setItems hys).mpr ⟨xs, hv, hl.symm, allAmong_iff.mpr fun y hy => ?_⟩
  obtain ⟨x, hx, heq⟩ :=
    exists_left_of_apart (allAmong_iff.mp hxy) (apart_of_pairwise h hd) (Nat.le_of_eq hl.symm) y hy
  exact ⟨x, hx, h x hx y heq⟩

theorem symmetricAt_dict {xs : List (Value × Value)} (hk : ∀ x ∈ xs, SymmetricAt x.1)
    (h : ∀ x ∈ xs, SymmetricAt x.2) (hd : xs.Pairwise fun x x' => x.1.equals x'.1 = false) :
    SymmetricAt (.dict xs) := by
  intro w hvw
  obtain ⟨ys, rfl, hl, hxy⟩ := equals_dict.mp hvw
  have hapart :
      Apart (fun x y : Value × Value => x.1.equals y.1 = true ∧ x.2.equals y.2 = true) xs :=
    (apart_of_pairwise hk hd).imp fun hne y hxy hxy' => hne y.1 hxy.1 hxy'.1
  refine equals_dict.mpr ⟨xs, rfl, hl.symm, entriesAmong_iff.mpr fun y hy => ?_⟩
  obtain ⟨x, hx, heq⟩ :=
    exists_left_of_apart (entriesAmong_iff.mp hxy) hapart (Nat.le_of_eq hl.symm) y hy
  exact ⟨x, hx, hk x hx y.1 heq.1, h x hx y.2 heq.2⟩

theorem equals_symm (v : Value) (hv : v.unrepeating = true) : SymmetricAt v := by
  induction v using inductParts with
  | sequence kind items ih =>
    rw [unrepeating, Bool.and_eq_true, unrepeatingItems_iff] at hv
    have hitems : ∀ x ∈ items, SymmetricAt x := fun x hx => ih x hx (hv.1 x hx)
    have hordered (hk : kind = .list ∨ kind = .queue) : SymmetricAt (.sequence kind items) := by
      intro w hvw
      obtain ⟨ys, rfl, hxy⟩ := (equals_sequence hk).mp hvw
      exact (equals_sequence hk).mpr ⟨items, rfl, equalItems_symm hitems hxy⟩
    cases kind with
    | list => exact hordered (.inl rfl)
    | queue => exact hordered (.inr rfl)
    | tuple => exact symmetricAt_tuple rfl hitems
    | set => exact symmetricAt_set rfl hitems (by simpa [SequenceKind.isSet] using hv.2)
    | frozenSet => exact symmetricAt_set rfl hitems (by simpa [SequenceKind.isSet] using hv.2)
  | dict entries ihk ih =>
    rw [unrepeating, Bool.and_eq_true, unrepeatingEntries_iff] at hv
    exact symmetricAt_dict (fun e he => ihk e he (hv.1 e he).1) (fun e he => ih e he (hv.1 e he).2)
      (of_decide_eq_true hv.2)
  | record kind cls fields ih =>
    rw [unrepeating, unrepeatingFields_iff] at hv
    have hfields : ∀ f ∈ fields, SymmetricAt f.2 := fun f hf => ih f hf (hv f hf)
    by_cases hk : kind = .tuple
    · subst hk
      exact symmetricAt_tuple rfl (List.forall_mem_map.mpr hfields)
    · intro w hvw
      obtain ⟨ys, rfl, hxy⟩ := (equals_record hk).mp hvw
      exact (equals_record hk).mpr ⟨fields, rfl, equalFields_symm hfields hxy⟩
  | member mixin cls name value ih => exact symmetricAt_of_hasItems rfl
  | leaf v hleaf => exact symmetricAt_of_hasItems (by cases v <;> first | rfl | cases hleaf)

end Value
end WorkflowClient
