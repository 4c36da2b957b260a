import Mathlib.Logic.Equiv.List
import WorkflowClient.Proofs.Descriptor.Identity
import WorkflowClient.Proofs.TypeExpr.Hash

/-! Hashing of descriptors, and of what is declared with them: equal descriptors can stand for each
other as keys if their types can be keys, and not otherwise. -/
namespace WorkflowClient

/-- The objects in memory that descriptors were made from, by the numbers of the descriptors. What
was made from one object has one type. -/
structure Descriptors.Origin (L : List Descriptor) where
  object : Nat → Nat
  type_eq : ∀ d ∈ L, ∀ e ∈ L, object d.id = object e.id → d.type = e.type

namespace Descriptor
variable (Γ : Catalog) (object : Nat → Nat)

/-- Two descriptors of types that can be keys, or of one object. -/
def Interchangeable (d e : Descriptor) : Prop :=
  d.type.hashable Γ.isFrozen = true ∧ e.type.hashable Γ.isFrozen = true ∨
    object d.id = object e.id

variable (H : TypeExpr.Hasher) (place : Nat → Int)

/-- A descriptor is hashed by its type, and by the place in memory of the object that it was made
from if the type cannot be a key. -/
def digest (d : Descriptor) : Int :=
  if d.type.hashable Γ.isFrozen then d.type.digest H else place (object d.id)

/-- A descriptor that goes by a name is hashed together with it. -/
def namedDigest (name : String) (d : Descriptor) : Int :=
  H.tuple [(Value.str name).digest H.toHasher, d.digest Γ object H place]

end Descriptor

section
variable (Γ : Catalog) (object : Nat → Nat) (H : TypeExpr.Hasher) (place : Nat → Int)

def State.digest (s : State) : Int :=
  H.tuple [(Value.str s.id).digest H.toHasher, (Value.bool s.canStart).digest H.toHasher]

def Channel.digest (c : Channel) : Int := c.type.namedDigest Γ object H place c.name

def Attribute.digest (a : Attribute) : Int := a.type.namedDigest Γ object H place a.key

/-- Descriptions do not count. -/
def Declaration.digest (d : Declaration) : Int :=
  H.tuple [(Value.str d.name).digest H.toHasher, H.tuple (d.states.map (State.digest H)),
    H.tuple (d.channels.map (Channel.digest Γ object H place)),
    H.tuple (d.attributes.map (Attribute.digest Γ object H place))]

end

namespace Declaration

/-- The descriptors of the channels and of the attributes. -/
def descriptors (d : Declaration) : List Descriptor :=
  d.channels.map (·.type) ++ d.attributes.map (·.type)

/-- Each descriptor in the one is interchangeable with that in the same place of the other. -/
def Interchangeable (Γ : Catalog) (object : Nat → Nat) (a b : Declaration) : Prop :=
  List.Forall₂ (Descriptor.Interchangeable Γ object) (a.channels.map (·.type))
      (b.channels.map (·.type)) ∧
    List.Forall₂ (Descriptor.Interchangeable Γ object) (a.attributes.map (·.type))
      (b.attributes.map (·.type))

end Declaration

namespace Descriptors

/-- The descriptors after an event, with all that were ever given. -/
def Event.hand (Γ : Catalog) (a : Descriptors × List Descriptor) (e : Event) :
    Descriptors × List Descriptor :=
  (e.apply Γ a.1, a.2 ++ (e.given? Γ a.1).toList)

/-- All descriptors that there are after a history. -/
def handed (Γ : Catalog) (h : List Event) : List Descriptor :=
  (h.foldl (Event.hand Γ) ({}, [.any])).2

/-- No set in a type that is named lists an item twice. -/
def Unrepeating (h : List Event) : Prop :=
  ∀ e ∈ h, ∀ T, e.type? = some T → T.unrepeating = true

variable {Γ : Catalog} {s s' : Descriptors} {L : List Descriptor} {T : TypeExpr}
  {d d' : Descriptor} {e : Event}

/-- What is kept was given, and no set in a type that was given lists an item twice. -/
structure Tally (s : Descriptors) (L : List Descriptor) : Prop where
  any : .any ∈ L
  kept : ∀ d ∈ s.kept, d ∈ L
  sets : ∀ d ∈ L, d.type.unrepeating = true

theorem tally_start : Tally {} [.any] where
  any := List.mem_singleton_self _
  kept _ hd := absurd hd List.not_mem_nil
  sets d hd := by
    rw [List.mem_singleton.mp hd]
    rfl

theorem Tally.clear (h : s.Tally L) : s.clear.Tally L where
  any := h.any
  kept _ hd := absurd hd List.not_mem_nil
  sets := h.sets

theorem Tally.add (h : s.Tally L) (hd : d.type.unrepeating = true)
    (hkept : ∀ k ∈ s'.kept, k ∈ s.kept ∨ k = d) : s'.Tally (L ++ [d]) where
  any := List.mem_append_left _ h.any
  kept k hk := by
    rw [List.mem_append, List.mem_singleton]
    exact (hkept k hk).imp_left (h.kept k)
  sets k hk := by
    rcases List.mem_append.mp hk with hk | hk
    · exact h.sets k hk
    · rw [List.mem_singleton.mp hk]
      exact hd

theorem Tally.step (h : s.Tally L) (hsets : ∀ T, e.type? = some T → T.unrepeating = true) :
    (e.apply Γ s).Tally (L ++ (e.given? Γ s).toList) := by
  obtain rfl | ⟨hnone, heq⟩ | ⟨T, d, htype, hgiven, hcase⟩ := e.apply_cases (Γ := Γ) s
  · rw [← List.append_nil L] at h
    exact h.clear
  · rw [hnone, heq, Option.toList_none, List.append_nil]
    exact h
  rw [hgiven, Option.toList_some]
  have hT := hsets T htype
  rcases hcase with ⟨-, hmake⟩ | ⟨-, hof⟩
  · obtain ⟨rfl, -, hkept⟩ := make?_eq_some hmake
    exact h.add hT fun k hk => .inl (hkept ▸ hk)
  · obtain ⟨-, rfl, heq⟩ | ⟨hmem, -, heq⟩ | ⟨rfl, -, hkept⟩ := of?_cases hof
    · rw [heq]
      exact h.add (h.sets _ h.any) fun k hk => .inl hk
    · rw [heq]
      exact h.add (h.sets d (h.kept d hmem)) fun k hk => .inl hk
    · refine h.add hT fun k hk => ?_
      rcases hkept with hkept | hkept
      · exact .inl (hkept ▸ hk)
      · rw [hkept, List.mem_append, List.mem_singleton] at hk
        exact hk

theorem tally_after {h : List Event} (hsets : Unrepeating h) :
    (after Γ h).Tally (handed Γ h) := by
  have hrun (l : List Event) (hl : Unrepeating l) (a : Descriptors × List Descriptor)
      (ha : a.1.Tally a.2) :
      (l.foldl (Event.apply Γ) a.1).Tally (l.foldl (Event.hand Γ) a).2 := by
    induction l generalizing a with
    | nil => exact ha
    | cons e rest ih =>
      exact ih (fun x hx => hl x (List.mem_cons_of_mem e hx)) (e.hand Γ a)
        (ha.step (hl e List.mem_cons_self))
  exact hrun h hsets ({}, [.any]) tally_start

/-- Two of the descriptors that are equal, part by part. -/
structure Equated (L : List Descriptor) (d e : Descriptor) : Prop where
  left : d ∈ L
  right : e ∈ L
  equal : (d == e) = true

/-- No other descriptors are found to be equal. -/
theorem equated_of_compare? (hd : d ∈ L) (hd' : d' ∈ L) (h : d.compare? Γ d' = some true) :
    Equated L d d' := by
  unfold Descriptor.compare? at h
  split at h
  · exact ⟨hd, hd', Option.some.inj h⟩
  · cases h

section
open Descriptor (Interchangeable)

variable {o : Origin L} {object : Nat → Nat}

/-- Functions that tell tuples apart, and all types from the places in memory. -/
def separating : TypeExpr.Hasher where
  leaf _ := 0
  tuple digests := (Encodable.encode digests : Nat)
  set _ := 0
  record _ _ := 0
  applied _ _ := 0

theorem separating_tuple {xs ys : List Int} (h : separating.tuple xs = separating.tuple ys) :
    xs = ys :=
  Encodable.encode_injective (Int.ofNat_inj.mp h)

theorem separating_nonneg (T : TypeExpr) : 0 ≤ T.digest separating := by
  cases T <;> first | exact Int.le_refl 0 | exact Int.natCast_nonneg _

theorem interchangeable_of_digest
    (heq : d.digest Γ object separating Int.negSucc = d'.digest Γ object separating Int.negSucc) :
    d.Interchangeable Γ object d' := by
  have hT := separating_nonneg d.type
  have hT' := separating_nonneg d'.type
  unfold Descriptor.digest at heq
  split at heq <;> split at heq
  · exact .inl ⟨‹_›, ‹_›⟩
  · rw [heq] at hT
    cases hT
  · rw [← heq] at hT'
    cases hT'
  · exact .inr (Int.negSucc_inj.mp heq)

theorem Tally.digest_eq (h : s.Tally L) (hdd' : Equated L d d')
    (hi : d.Interchangeable Γ o.object d') (H : TypeExpr.Hasher) (place : Nat → Int) :
    d.digest Γ o.object H place = d'.digest Γ o.object H place := by
  rcases hi with ⟨hd, hd'⟩ | hobject
  · rw [Descriptor.digest, Descriptor.digest, if_pos hd, if_pos hd']
    exact d.type.digest_eq_of_equals d'.type hdd'.equal (h.sets d hdd'.left) (h.sets d' hdd'.right)
  · have htype := o.type_eq d hdd'.left d' hdd'.right hobject
    rw [Descriptor.digest, Descriptor.digest, htype, hobject]

theorem sameHash_iff (hdd' : Equated L d d') :
    d.sameHash Γ object d' = true ↔ d.Interchangeable Γ object d' := by
  have hequal : d.equals d' = true := hdd'.equal
  simp [Descriptor.sameHash, Interchangeable, hequal, or_comm]

section
variable {α : Type} {name : α → String} {type : α → Descriptor} {xs ys : List α}

/-- Parts that go by the same names and have equal descriptors, in turn. -/
def Paired (L : List Descriptor) (name : α → String) (type : α → Descriptor) :
    List α → List α → Prop :=
  List.Forall₂ fun x y => name x = name y ∧ Equated L (type x) (type y)

theorem paired_of_equal (hx : ∀ x ∈ xs, type x ∈ L) (hy : ∀ y ∈ ys, type y ∈ L)
    (hnames : xs.map name = ys.map name) (htypes : (xs.map type == ys.map type) = true) :
    Paired L name type xs ys := by
  induction xs generalizing ys with
  | nil =>
    cases ys with
    | nil => exact .nil
    | cons y ys => cases hnames
  | cons x xs ih =>
    cases ys with
    | nil => cases hnames
    | cons y ys =>
      rw [List.map_cons, List.map_cons, List.cons.injEq] at hnames
      rw [List.map_cons, List.map_cons, List.cons_beq_cons, Bool.and_eq_true] at htypes
      obtain ⟨hx, hxs⟩ := List.forall_mem_cons.mp hx
      obtain ⟨hy, hys⟩ := List.forall_mem_cons.mp hy
      exact .cons ⟨hnames.1, hx, hy, htypes.1⟩ (ih hxs hys hnames.2 htypes.2)

theorem Tally.digests_eq (h : s.Tally L) (hxy : Paired L name type xs ys)
    (hi : List.Forall₂ (Interchangeable Γ o.object) (xs.map type) (ys.map type))
    (H : TypeExpr.Hasher) (place : Nat → Int) :
    xs.map (fun x => (type x).namedDigest Γ o.object H place (name x)) =
      ys.map fun y => (type y).namedDigest Γ o.object H place (name y) := by
  rw [List.forall₂_map_left_iff, List.forall₂_map_right_iff] at hi
  rw [← List.forall₂_eq_eq_eq, List.forall₂_map_left_iff, List.forall₂_map_right_iff]
  refine List.Forall₂.mp ?_ hxy hi
  rintro x y ⟨hname, hequal⟩ hi
  rw [Descriptor.namedDigest, Descriptor.namedDigest, hname, h.digest_eq hequal hi]

theorem all_interchangeable
    (heq : xs.map (fun x => (type x).namedDigest Γ object separating Int.negSucc (name x)) =
      ys.map fun y => (type y).namedDigest Γ object separating Int.negSucc (name y)) :
    List.Forall₂ (Interchangeable Γ object) (xs.map type) (ys.map type) := by
  rw [← List.forall₂_eq_eq_eq, List.forall₂_map_left_iff, List.forall₂_map_right_iff] at heq
  rw [List.forall₂_map_left_iff, List.forall₂_map_right_iff]
  refine heq.imp fun x y hxy => ?_
  have hdigests := separating_tuple hxy
  rw [List.cons.injEq, List.cons.injEq] at hdigests
  exact interchangeable_of_digest hdigests.2.1

theorem Tally.namedDigest_iff (h : s.Tally L) (hdd' : Equated L d d') (name : String) :
    (∀ H place, d.namedDigest Γ o.object H place name = d'.namedDigest Γ o.object H place name) ↔
      d.Interchangeable Γ o.object d' := by
  constructor
  · intro hall
    have hdigests := separating_tuple (hall separating Int.negSucc)
    rw [List.cons.injEq, List.cons.injEq] at hdigests
    exact interchangeable_of_digest hdigests.2.1
  · intro hi H place
    rw [Descriptor.namedDigest, Descriptor.namedDigest, h.digest_eq hdd' hi]

theorem Tally.declaration_iff (h : s.Tally L) {a b : Declaration}
    (hL : ∀ d ∈ a.descriptors ++ b.descriptors, d ∈ L) (hab : a.equals b = true) :
    (∀ H place, a.digest Γ o.object H place = b.digest Γ o.object H place) ↔
      a.Interchangeable Γ o.object b := by
  simp only [Declaration.equals, Bool.and_eq_true, beq_iff_eq] at hab
  obtain ⟨⟨⟨hname, hstates⟩, hchannels, hchannelTypes⟩, hattributes, hattributeTypes⟩ := hab
  simp only [Declaration.descriptors, List.forall_mem_append, List.forall_mem_map] at hL
  obtain ⟨⟨hac, haa⟩, hbc, hba⟩ := hL
  have hc := paired_of_equal hac hbc hchannels hchannelTypes
  have ha := paired_of_equal haa hba hattributes hattributeTypes
  constructor
  · intro hall
    have hdigests := separating_tuple (hall separating Int.negSucc)
    simp only [List.cons.injEq] at hdigests
    obtain ⟨-, -, hcs, has, -⟩ := hdigests
    exact ⟨all_interchangeable (separating_tuple hcs),
      all_interchangeable (separating_tuple has)⟩
  · rintro ⟨hcs, has⟩ H place
    have hchannels : a.channels.map (Channel.digest Γ o.object H place) =
        b.channels.map (Channel.digest Γ o.object H place) := h.digests_eq hc hcs H place
    have hattributes : a.attributes.map (Attribute.digest Γ o.object H place) =
        b.attributes.map (Attribute.digest Γ o.object H place) := h.digests_eq ha has H place
    rw [Declaration.digest, Declaration.digest, hname, hstates, hchannels, hattributes]

end
end

section
open Descriptor (Interchangeable)

/-- What hashing makes of the descriptors that there are after a history, and of what is declared
with them, wherever their types come from. Equal ones have one hash, whatever the hash functions and
the places in memory are, just if their descriptors are interchangeable. -/
structure HashLaw (Γ : Catalog) (h : List Event) (object : Nat → Nat) : Prop where
  compared : ∀ d ∈ handed Γ h, ∀ e ∈ handed Γ h, d.compare? Γ e = some true →
    Equated (handed Γ h) d e
  descriptors : ∀ d e, Equated (handed Γ h) d e →
    ((∀ H place, d.digest Γ object H place = e.digest Γ object H place) ↔
      d.Interchangeable Γ object e)
  told : ∀ d e, Equated (handed Γ h) d e →
    (d.sameHash Γ object e = true ↔ d.Interchangeable Γ object e)
  channels : ∀ a b : Channel, a.name = b.name → Equated (handed Γ h) a.type b.type →
    ((∀ H place, a.digest Γ object H place = b.digest Γ object H place) ↔
      a.type.Interchangeable Γ object b.type)
  attributes : ∀ a b : Attribute, a.key = b.key → Equated (handed Γ h) a.type b.type →
    ((∀ H place, a.digest Γ object H place = b.digest Γ object H place) ↔
      a.type.Interchangeable Γ object b.type)
  declarations : ∀ a b : Declaration, (∀ d ∈ a.descriptors ++ b.descriptors, d ∈ handed Γ h) →
    a.equals b = true →
    ((∀ H place, a.digest Γ object H place = b.digest Γ object H place) ↔
      a.Interchangeable Γ object b)

/-- Over all histories equal descriptors, and what is declared with them, can stand for each other
as keys just where no type that cannot be a key, and is another object, comes between. -/
theorem hashLaw_after {h : List Event} (hsets : Unrepeating h) (o : Origin (handed Γ h)) :
    HashLaw Γ h o.object where
  compared _ hd _ he hde := equated_of_compare? hd he hde
  descriptors d e hde := by
    have ht := tally_after (Γ := Γ) hsets
    exact ⟨fun hall => interchangeable_of_digest (hall separating Int.negSucc),
      fun hi => ht.digest_eq hde hi⟩
  told d e hde := sameHash_iff hde
  channels a b hname hab := by
    simp only [Channel.digest, ← hname]
    exact (tally_after hsets).namedDigest_iff hab a.name
  attributes a b hkey hab := by
    simp only [Attribute.digest, ← hkey]
    exact (tally_after hsets).namedDigest_iff hab a.key
  declarations _ _ hL hab := (tally_after hsets).declaration_iff hL hab

end

/-- Where every descriptor was made from an object of its own. -/
def apart (n : Nat) : Nat := n

/-- Where all descriptors but that of anything were made from one object. -/
def shared (n : Nat) : Nat := if n = 0 then 0 else 1

/-- An integer with a dict as its note. -/
def notedDict : TypeExpr := .annotated (.primitive .int) [.dict [(.str "k", .int 1)]]

/-- Two descriptors with the numbers after that of anything, each from an object of its own. -/
def originApart (T U : TypeExpr) : Origin [.any, ⟨1, T⟩, ⟨2, U⟩] where
  object := apart
  type_eq := by simp [apart, Descriptor.any]

def originShared (T : TypeExpr) : Origin [.any, ⟨1, T⟩, ⟨2, T⟩] where
  object := shared
  type_eq := by simp [shared, Descriptor.any]

/-- A union is hashed alike in both orders, and so is an object that cannot be a key when two
descriptors are made from it. -/
theorem hashLaw_pairs :
    Unrepeating [.describe (.type intOrStr), .build strOrInt] ∧
      Unrepeating [.build notedDict, .build notedDict] ∧
      ∀ H place, (⟨1, intOrStr⟩ : Descriptor).digest Samples.Orders.catalog apart H place =
          (⟨2, strOrInt⟩ : Descriptor).digest Samples.Orders.catalog apart H place ∧
        (⟨1, notedDict⟩ : Descriptor).digest Samples.Orders.catalog shared H place =
          (⟨2, notedDict⟩ : Descriptor).digest Samples.Orders.catalog shared H place := by
  have hsets : Unrepeating [.describe (.type intOrStr), .build strOrInt] := by
    intro e he T hT
    rcases List.mem_pair.mp he with rfl | rfl <;> cases hT <;> rfl
  have hnoted : Unrepeating [.build notedDict, .build notedDict] := by
    intro e he T hT
    rcases List.mem_pair.mp he with rfl | rfl <;> cases hT <;> rfl
  have hunions := hashLaw_after (Γ := Samples.Orders.catalog) hsets (originApart intOrStr strOrInt)
  have hobject := hashLaw_after (Γ := Samples.Orders.catalog) hnoted (originShared notedDict)
  refine ⟨hsets, hnoted, fun H place => ⟨?_, ?_⟩⟩
  · exact (hunions.descriptors _ _ ⟨.tail _ (.head _), .tail _ (.tail _ (.head _)), rfl⟩).mpr
      (.inl ⟨rfl, rfl⟩) H place
  · exact (hobject.descriptors _ _ ⟨.tail _ (.head _), .tail _ (.tail _ (.head _)), rfl⟩).mpr
      (.inr rfl) H place

/-- Equal descriptors with different hashes: of a type that cannot be a key each has its own, and of
two equal types one can be a key and the other cannot. -/
theorem equal_hashes_differ :
    (∃ d e, Equated (handed Samples.Orders.catalog [.build notedDict, .build notedDict]) d e ∧
      d.compare? Samples.Orders.catalog e = some true ∧
      d.sameHash Samples.Orders.catalog apart e = false ∧
      ∃ H place, d.digest Samples.Orders.catalog apart H place ≠
        e.digest Samples.Orders.catalog apart H place) ∧
    ∃ d e, Equated (handed Samples.Orders.catalog
        [.describe (.type (noted .set)), .describe (.type (noted .frozenSet))]) d e ∧
      d.compare? Samples.Orders.catalog e = some true ∧
      d.sameHash Samples.Orders.catalog apart e = false ∧
      ∃ H place, d.digest Samples.Orders.catalog apart H place ≠
        e.digest Samples.Orders.catalog apart H place := by
  constructor
  · refine ⟨⟨1, notedDict⟩, ⟨2, notedDict⟩, ⟨.tail _ (.head _), .tail _ (.tail _ (.head _)), rfl⟩,
      rfl, rfl, separating, Int.negSucc, ?_⟩
    decide
  · refine ⟨⟨1, noted .set⟩, ⟨2, noted .frozenSet⟩,
      ⟨.tail _ (.head _), .tail _ (.tail _ (.head _)), rfl⟩, rfl, rfl, separating, Int.negSucc, ?_⟩
    decide

end Descriptors
end WorkflowClient
