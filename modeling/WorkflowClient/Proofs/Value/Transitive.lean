import WorkflowClient.Proofs.Matching
import WorkflowClient.Proofs.Value.Parts
import WorkflowClient.Value.Equality

/-! Equality of values is transitive, across all the kinds that can be equal. -/
namespace WorkflowClient

namespace Number

theorem Double.equals_trans {x y z : Double} (hxy : x.equals y = true) (hyz : y.equals z = true) :
    x.equals z = true := by
  cases x <;> cases y <;> simp only [Double.equals, Bool.false_eq_true] at hxy <;>
    cases z <;> simp only [Double.equals, Bool.false_eq_true] at hyz ⊢
  · rw [beq_iff_eq] at hxy hyz ⊢
    exact hxy.trans hyz
  · simp only [Bool.or_eq_true, decide_eq_true_eq] at hxy hyz ⊢
    rcases hxy with ⟨rfl, rfl, rfl⟩ | ⟨hx, hy⟩
    · exact hyz
    · rcases hyz with ⟨hz, -⟩ | ⟨-, hz⟩
      · exact .inr ⟨hx, hz ▸ hy⟩
      · exact .inr ⟨hx, hz⟩

end Number

namespace Calendar

theorem Clock.equals_trans {a b c : Clock} (hab : a.equals b = true) (hbc : b.equals c = true) :
    a.equals c = true := by
  unfold Clock.equals at hab hbc ⊢
  cases ha : a.universal? <;> cases hb : b.universal? <;> cases hc : c.universal? <;>
    simp_all

theorem Instant.equals_trans {a b c : Instant} (hab : a.equals b = true)
    (hbc : b.equals c = true) : a.equals c = true := by
  unfold Instant.equals at hab hbc ⊢
  cases ha : a.clock.offset <;> cases hb : b.clock.offset <;> cases hc : c.clock.offset <;>
    simp_all

end Calendar

namespace Value

variable {v w u : Value}

theorem Quantity.eq_of_equals {a b : Quantity} (h : a.equals b = true) : a = b := by
  cases a with
  | nan => cases h
  | exact x => exact of_decide_eq_true h
  | infinite s => exact of_decide_eq_true h

theorem Quantity.equals_trans {a b c : Quantity} (hab : a.equals b = true)
    (hbc : b.equals c = true) : a.equals c = true :=
  Quantity.eq_of_equals hbc ▸ hab

/-- Values that are compared as neither numbers nor texts, and count as equal. -/
inductive LeafAlike : Value → Value → Prop
  | none : LeafAlike .none .none
  | octets {k l : OctetsKind} {data : List UInt8} : LeafAlike (.octets k data) (.octets l data)
  | range {a b c d : Int} (h : (b ≤ a ∧ d ≤ c) ∨ (a = c ∧ b = d)) :
      LeafAlike (.range a b) (.range c d)
  | member {cls name : String} {v w : Value} :
      LeafAlike (.member .plain cls name v) (.member .plain cls name w)
  | date {d : Calendar.Date} : LeafAlike (.date d) (.date d)
  | clock {a b : Calendar.Clock} (h : a.equals b = true) : LeafAlike (.clock a) (.clock b)
  | instant {a b : Calendar.Instant} (h : a.equals b = true) : LeafAlike (.instant a) (.instant b)
  | span {n : Int} : LeafAlike (.span n) (.span n)
  | uuid {u : Uuid} : LeafAlike (.uuid u) (.uuid u)
  | complex {a b c d : Number.Double} (h : a.equals c = true) (h' : b.equals d = true) :
      LeafAlike (.complex a b) (.complex c d)
  | classObject {k : ClassKind} {cls : String} : LeafAlike (.classObject k cls) (.classObject k cls)

theorem LeafAlike.trans (hvw : LeafAlike v w) (hwu : LeafAlike w u) : LeafAlike v u := by
  cases hvw with
  | none => exact hwu
  | octets =>
    cases hwu
    exact .octets
  | range h =>
    cases hwu with
    | range h' => exact .range (by omega)
  | member =>
    cases hwu
    exact .member
  | date => exact hwu
  | clock h =>
    cases hwu with
    | clock h' => exact .clock (Calendar.Clock.equals_trans h h')
  | instant h =>
    cases hwu with
    | instant h' => exact .instant (Calendar.Instant.equals_trans h h')
  | span => exact hwu
  | uuid => exact hwu
  | complex h h' =>
    cases hwu with
    | complex k k' =>
      exact .complex (Number.Double.equals_trans h k) (Number.Double.equals_trans h' k')
  | classObject => exact hwu

theorem quantity?_of_text? {s : String} (h : v.text? = some s) : v.quantity? = Option.none := by
  unfold text? at h
  split at h <;> first | rfl | cases h

theorem leafEquals_iff : leafEquals v w = true ↔
    (∃ a b, v.quantity? = some a ∧ w.quantity? = some b ∧ a.equals b = true) ∨
      (∃ s, v.text? = some s ∧ w.text? = some s) ∨ LeafAlike v w := by
  constructor
  · intro h
    unfold leafEquals at h
    split at h
    · rename_i a b ha hb
      exact .inl ⟨a, b, ha, hb, h⟩
    · split at h
      · rename_i s t hs ht
        exact .inr (.inl ⟨s, hs, beq_iff_eq.mp h ▸ ht⟩)
      · refine .inr (.inr ?_)
        split at h
        · exact .none
        · obtain rfl := beq_iff_eq.mp h
          exact .octets
        · exact .range (by simpa using h)
        · simp only [Bool.and_eq_true, beq_iff_eq] at h
          obtain ⟨rfl, rfl⟩ := h
          exact .member
        · obtain rfl := beq_iff_eq.mp h
          exact .date
        · exact .clock h
        · exact .instant h
        · obtain rfl := beq_iff_eq.mp h
          exact .span
        · obtain rfl := beq_iff_eq.mp h
          exact .uuid
        · exact .complex (Bool.and_eq_true_iff.mp h).1 (Bool.and_eq_true_iff.mp h).2
        · simp only [Bool.and_eq_true, beq_iff_eq] at h
          obtain ⟨rfl, rfl⟩ := h
          exact .classObject
        · cases h
  · rintro (⟨a, b, ha, hb, h⟩ | ⟨s, hs, ht⟩ | h)
    · simp only [leafEquals, ha, hb, h]
    · simp [leafEquals, quantity?_of_text? hs, hs, ht]
    · cases h <;> simp_all [leafEquals, quantity?, text?]

theorem LeafAlike.plain (h : LeafAlike v w) :
    (v.quantity? = Option.none ∧ v.text? = Option.none) ∧
      w.quantity? = Option.none ∧ w.text? = Option.none := by
  cases h <;> simp [quantity?, text?]

theorem leafEquals_trans (hvw : leafEquals v w = true) (hwu : leafEquals w u = true) :
    leafEquals v u = true := by
  rw [leafEquals_iff] at hvw hwu ⊢
  rcases hvw with ⟨a, b, ha, hb, hab⟩ | ⟨s, hs, ht⟩ | h
  · rcases hwu with ⟨b', c, hb', hc, hbc⟩ | ⟨t, ht, -⟩ | h'
    · obtain rfl : b = b' := Option.some.inj (hb.symm.trans hb')
      exact .inl ⟨a, c, ha, hc, Quantity.equals_trans hab hbc⟩
    · cases hb.symm.trans (quantity?_of_text? ht)
    · cases hb.symm.trans h'.plain.1.1
  · rcases hwu with ⟨b, c, hb, -, -⟩ | ⟨t, ht', hu⟩ | h'
    · cases hb.symm.trans (quantity?_of_text? ht)
    · obtain rfl : s = t := Option.some.inj (ht.symm.trans ht')
      exact .inr (.inl ⟨s, hs, hu⟩)
    · cases ht.symm.trans h'.plain.1.2
  · rcases hwu with ⟨b, c, hb, -, -⟩ | ⟨t, ht, -⟩ | h'
    · cases hb.symm.trans h.plain.2.1
    · cases ht.symm.trans h.plain.2.2
    · exact .inr (.inr (h.trans h'))

/-- Values that have items, entries or fields. -/
def hasItems : Value → Bool
  | .sequence .. | .dict _ | .record .. => true
  | _ => false

theorem equals_eq_leafEquals (h : v.hasItems = false) : v.equals w = leafEquals v w := by
  cases v <;> first | rfl | cases h

theorem hasItems_of_leafEquals (h : leafEquals v w = true) : w.hasItems = false := by
  rcases leafEquals_iff.mp h with ⟨a, b, -, hb, -⟩ | ⟨s, -, ht⟩ | h
  · cases w <;> first | rfl | cases hb
  · cases w <;> first | rfl | cases ht
  · cases h <;> rfl

/-- The value compares transitively as the first of three. -/
def TransitiveAt (v : Value) : Prop :=
  ∀ w u : Value, v.equals w = true → w.equals u = true → v.equals u = true

theorem transitiveAt_of_hasItems (h : v.hasItems = false) : TransitiveAt v := by
  intro w u hvw hwu
  rw [equals_eq_leafEquals h] at hvw ⊢
  rw [equals_eq_leafEquals (hasItems_of_leafEquals hvw)] at hwu
  exact leafEquals_trans hvw hwu

theorem equalItems_iff {xs ys : List Value} :
    equalItems xs ys = true ↔ List.Forall₂ (fun x y : Value => x.equals y = true) xs ys := by
  induction xs generalizing ys with
  | nil => cases ys <;> simp [equalItems]
  | cons x xs ih => cases ys <;> simp [equalItems, ih]

theorem equalFields_iff {xs ys : List (String × Value)} : equalFields xs ys = true ↔
    List.Forall₂ (fun x y => x.1 = y.1 ∧ x.2.equals y.2 = true) xs ys := by
  induction xs generalizing ys with
  | nil => cases ys <;> simp [equalFields]
  | cons x xs ih => cases ys <;> simp [equalFields, ih]

theorem equalItems_trans {xs ys zs : List Value} (h : ∀ x ∈ xs, TransitiveAt x)
    (hxy : equalItems xs ys = true) (hyz : equalItems ys zs = true) : equalItems xs zs = true := by
  rw [equalItems_iff] at hxy hyz ⊢
  exact forall₂_trans hxy hyz h

theorem equalFields_trans {xs ys zs : List (String × Value)} (h : ∀ x ∈ xs, TransitiveAt x.2)
    (hxy : equalFields xs ys = true) (hyz : equalFields ys zs = true) :
    equalFields xs zs = true := by
  rw [equalFields_iff] at hxy hyz ⊢
  exact forall₂_trans hxy hyz fun x hx y z hxy hyz =>
    ⟨hxy.1.trans hyz.1, h x hx y.2 z.2 hxy.2 hyz.2⟩

theorem allAmong_iff {xs ys : List Value} :
    allAmong xs ys = true ↔ ∀ x ∈ xs, ∃ y ∈ ys, x.equals y = true := by
  induction xs <;> simp_all [allAmong]

theorem entriesAmong_iff {xs ys : List (Value × Value)} :
    entriesAmong xs ys = true ↔
      ∀ x ∈ xs, ∃ y ∈ ys, x.1.equals y.1 = true ∧ x.2.equals y.2 = true := by
  induction xs with
  | nil => simp [entriesAmong]
  | cons x xs ih => simp [entriesAmong, ih]

theorem equalParts_eq (xs : List (String × Value)) (ys : List Value) :
    equalParts xs ys = equalItems (xs.map (·.2)) ys := by
  induction xs generalizing ys with
  | nil => cases ys <;> rfl
  | cons x xs ih => cases ys <;> simp [equalParts, equalItems, ih]

/-- Tuples, named or not, are compared by their items. -/
theorem equals_of_tupleItems {xs : List Value} (h : v.tupleItems? = some xs) :
    v.equals w = true ↔ ∃ ys, w.tupleItems? = some ys ∧ equalItems xs ys = true := by
  unfold tupleItems? at h
  split at h
  · cases h
    rw [equals]
    cases w.tupleItems? <;> simp
  · cases h
    rw [equals]
    simp only [equalParts_eq]
    cases w.tupleItems? <;> simp
  · cases h

/-- Sets of both kinds are compared by their items, whatever the order. -/
theorem equals_of_setItems {xs : List Value} (h : v.setItems? = some xs) :
    v.equals w = true ↔
      ∃ ys, w.setItems? = some ys ∧ xs.length = ys.length ∧ allAmong xs ys = true := by
  unfold setItems? at h
  split at h
  · cases h
    rw [equals]
    cases w.setItems? <;> simp
  · cases h
    rw [equals]
    cases w.setItems? <;> simp
  · cases h

/-- Lists and queues are compared in order, each with its own kind. -/
theorem equals_sequence {kind : SequenceKind} {xs : List Value}
    (hk : kind = .list ∨ kind = .queue) : (Value.sequence kind xs).equals w = true ↔
      ∃ ys, w = .sequence kind ys ∧ equalItems xs ys = true := by
  rcases hk with rfl | rfl
  · cases w with
    | sequence kind ys => cases kind <;> simp [equals]
    | _ => simp [equals]
  · cases w with
    | sequence kind ys => cases kind <;> simp [equals]
    | _ => simp [equals]

theorem equals_dict {xs : List (Value × Value)} :
    (Value.dict xs).equals w = true ↔
      ∃ ys, w = .dict ys ∧ xs.length = ys.length ∧ entriesAmong xs ys = true := by
  cases w <;> simp [equals]

theorem equals_record {kind : RecordKind} {cls : String} {xs : List (String × Value)}
    (hk : kind ≠ .tuple) : (Value.record kind cls xs).equals w = true ↔
      ∃ ys, w = .record kind cls ys ∧ equalFields xs ys = true := by
  cases w with
  | record l c ys =>
    have heq : (Value.record kind cls xs).equals (.record l c ys) =
        (kind == l && cls == c && equalFields xs ys) := by
      cases kind <;> first | rfl | exact absurd rfl hk
    simp only [heq, Bool.and_eq_true, beq_iff_eq, record.injEq]
    constructor
    · rintro ⟨⟨rfl, rfl⟩, h⟩
      exact ⟨ys, ⟨rfl, rfl, rfl⟩, h⟩
    · rintro ⟨_, ⟨rfl, rfl, rfl⟩, h⟩
      exact ⟨⟨rfl, rfl⟩, h⟩
  | _ => cases kind <;> first | exact absurd rfl hk | simp [equals]

theorem transitiveAt_tuple {xs : List Value} (hv : v.tupleItems? = some xs)
    (h : ∀ x ∈ xs, TransitiveAt x) : TransitiveAt v := by
  intro w u hvw hwu
  obtain ⟨ys, hys, hxy⟩ := (equals_of_tupleItems hv).mp hvw
  obtain ⟨zs, hzs, hyz⟩ := (equals_of_tupleItems hys).mp hwu
  exact (equals_of_tupleItems hv).mpr ⟨zs, hzs, equalItems_trans h hxy hyz⟩

theorem transitiveAt_set {xs : List Value} (hv : v.setItems? = some xs)
    (h : ∀ x ∈ xs, TransitiveAt x) : TransitiveAt v := by
  intro w u hvw hwu
  obtain ⟨ys, hys, hlxy, hxy⟩ := (equals_of_setItems hv).mp hvw
  obtain ⟨zs, hzs, hlyz, hyz⟩ := (equals_of_setItems hys).mp hwu
  refine (equals_of_setItems hv).mpr ⟨zs, hzs, hlxy.trans hlyz, allAmong_iff.mpr fun x hx => ?_⟩
  obtain ⟨y, hy, hxy⟩ := allAmong_iff.mp hxy x hx
  obtain ⟨z, hz, hyz⟩ := allAmong_iff.mp hyz y hy
  exact ⟨z, hz, h x hx y z hxy hyz⟩

theorem equals_trans (v : Value) : TransitiveAt v := by
  induction v using inductParts with
  | sequence kind items ih =>
    have hordered (hk : kind = .list ∨ kind = .queue) : TransitiveAt (.sequence kind items) := by
      intro w u hvw hwu
      obtain ⟨ys, rfl, hxy⟩ := (equals_sequence hk).mp hvw
      obtain ⟨zs, rfl, hyz⟩ := (equals_sequence hk).mp hwu
      exact (equals_sequence hk).mpr ⟨zs, rfl, equalItems_trans ih hxy hyz⟩
    cases kind with
    | list => exact hordered (.inl rfl)
    | queue => exact hordered (.inr rfl)
    | tuple => exact transitiveAt_tuple rfl ih
    | set => exact transitiveAt_set rfl ih
    | frozenSet => exact transitiveAt_set rfl ih
  | dict entries ihk ih =>
    intro w u hvw hwu
    obtain ⟨ys, rfl, hlxy, hxy⟩ := equals_dict.mp hvw
    obtain ⟨zs, rfl, hlyz, hyz⟩ := equals_dict.mp hwu
    refine equals_dict.mpr ⟨zs, rfl, hlxy.trans hlyz, entriesAmong_iff.mpr fun x hx => ?_⟩
    obtain ⟨y, hy, hk, hv⟩ := entriesAmong_iff.mp hxy x hx
    obtain ⟨z, hz, hk', hv'⟩ := entriesAmong_iff.mp hyz y hy
    exact ⟨z, hz, ihk x hx y.1 z.1 hk hk', ih x hx y.2 z.2 hv hv'⟩
  | record kind cls fields ih =>
    by_cases hk : kind = .tuple
    · subst hk
      exact transitiveAt_tuple rfl (List.forall_mem_map.mpr ih)
    · intro w u hvw hwu
      obtain ⟨ys, rfl, hxy⟩ := (equals_record hk).mp hvw
      obtain ⟨zs, rfl, hyz⟩ := (equals_record hk).mp hwu
      exact (equals_record hk).mpr ⟨zs, rfl, equalFields_trans ih hxy hyz⟩
  | member mixin cls name value ih => exact transitiveAt_of_hasItems rfl
  | leaf v hv => exact transitiveAt_of_hasItems (by cases v <;> first | rfl | cases hv)

end Value
end WorkflowClient
