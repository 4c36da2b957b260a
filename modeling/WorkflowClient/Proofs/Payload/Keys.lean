import WorkflowClient.Proofs.Json.Entries
import WorkflowClient.Proofs.Payload.RoundTrip
import WorkflowClient.Proofs.Payload.Text

/-! Keys of mappings are written as their texts, and read back by the type of the keys. -/
namespace WorkflowClient
open Payload
open Validation (Gives)

/-- A mapping to integers. -/
def Value.counts (entries : List (Value × Int)) : Value :=
  .dict (entries.map fun e => (e.1, .int e.2))

/-- An object of integers. -/
def Json.counts (members : List (String × Int)) : Json :=
  .object (members.map fun m => (m.1, .int m.2))

/-- A key exactly of a type that reads it from the text that shows it. Members of an enumeration are
shown by their integers. -/
inductive KeyOf (Γ : Catalog) : TypeExpr → Value → Prop
  | plain {K : Primitive} {k : Value} (h : Key K k) : KeyOf Γ (.primitive K) k
  | bool (b : Bool) : KeyOf Γ (.primitive .bool) (.bool b)
  | member {cls name : String} {n : Int} {members : List (String × Value)}
      (hb : Γ.body? cls = some (.enumeration .integer members)) (hd : Distinct .integer members)
      (hm : (name, .int n) ∈ members) :
      KeyOf Γ (.named cls) (.member .integer cls name (.int n))

variable {Γ : Catalog} {K U : TypeExpr} {k : Value} {entries : List (Value × Int)}

theorem Distinct.writable {members : List (String × Value)} {name : String} {n : Int}
    (hd : Distinct .integer members) (hm : (name, .int n) ∈ members) :
    Number.writable n = true := by
  cases hd with
  | texts hmix h => exact absurd rfl hmix
  | integers hmix h hw =>
    obtain ⟨m, hmem, heq⟩ := List.mem_map.mp hm
    cases heq
    exact hw m hmem

namespace KeyOf

theorem of_equals (h : KeyOf Γ K k) (he : U.equals K = true) : KeyOf Γ U k := by
  cases h with
  | plain h => exact TypeExpr.eq_of_equals U _ he rfl ▸ .plain h
  | bool b => exact TypeExpr.eq_of_equals U _ he rfl ▸ .bool b
  | member hb hd hm => exact TypeExpr.eq_of_equals U _ he rfl ▸ .member hb hd hm

theorem nameOf_eq (h : KeyOf Γ K k) : nameOf k = .ok k.text := by
  cases h with
  | plain h => exact nameOf_key h
  | bool b => rfl
  | member hb hd hm => exact if_pos (hd.writable hm)

theorem beq_self (h : KeyOf Γ K k) : (k == k) = true := by
  cases h with
  | plain h => exact beq_key h
  | bool b => cases b <;> rfl
  | @member _ _ n _ hb hd hm => exact Value.int_beq_iff.mpr (rfl : n = n)

theorem gives (h : KeyOf Γ K k) : Gives (Validation.answer Γ .data (.str k.text) K) k := by
  cases h with
  | plain h => exact gives_key h
  | bool b => cases b <;> exact ⟨⟨.lax, none⟩, rfl⟩
  | @member cls name n members hb hd hm =>
    have hread : Validation.intOfChars (Value.member .integer cls name (.int n)).text.toList =
        .ok n := by
      change Validation.intOfChars (String.ofList (Number.intText n)).toList = _
      rw [String.toList_ofList]
      exact intOfChars_intText (hd.writable hm)
    refine ⟨⟨.lax, none⟩, ?_⟩
    generalize (Value.member .integer cls name (.int n)).text = s at hread
    change Validation.checkNamed Γ .data { value := .str s } cls = _
    unfold Validation.checkNamed
    rw [hb]
    simp [Validation.checkMember, Validation.checkInt, Validation.chars?, Value.text?, hread,
      Validation.lax, Except.map, find?_of_distinct hd hm]

end KeyOf

/-- Where the keys of mappings to integers are read, no code of the application's own raises
anything. -/
def TypeExpr.Quiet (Γ : Catalog) (K : TypeExpr) : Prop :=
  ∀ spelling v, Γ.raised? .data (.dict spelling K (.primitive .int)) v = Option.none

theorem TypeExpr.quiet_of_ownCode (h : K.ownCode = false) : K.Quiet Γ := by
  intro spelling v
  rw [Catalog.raised?, TypeExpr.ownCode, h]
  rfl

theorem TypeExpr.ownCodeAny_eq_false {Ts : List TypeExpr} (h : ∀ T ∈ Ts, T.ownCode = false) :
    TypeExpr.ownCodeAny Ts = false := by
  induction Ts with
  | nil => rfl
  | cons T rest ih =>
    obtain ⟨hT, hrest⟩ := List.forall_mem_cons.mp h
    rw [TypeExpr.ownCodeAny, hT, ih hrest]
    rfl

/-- Types whose values are read from the texts that show them. -/
inductive KeyType (Γ : Catalog) : TypeExpr → Prop
  | primitive {p : Primitive} (h : p ∈ [.int, .bool, .str, .uuid, .date, .decimal]) :
      KeyType Γ (.primitive p)
  | enumeration {cls : String} {members : List (String × Value)}
      (hb : Γ.body? cls = some (.enumeration .integer members))
      (hq : (TypeExpr.named cls).Quiet Γ) : KeyType Γ (.named cls)

namespace KeyType

theorem quiet (hK : KeyType Γ K) : K.Quiet Γ := by
  cases hK with
  | primitive h => exact TypeExpr.quiet_of_ownCode rfl
  | enumeration hb hq => exact hq

theorem quiet_of_equals (hK : KeyType Γ K) (he : U.equals K = true) : U.Quiet Γ := by
  have heq : U = K := by
    cases hK with
    | primitive h => exact TypeExpr.eq_of_equals U _ he rfl
    | enumeration hb hq => exact TypeExpr.eq_of_equals U _ he rfl
  exact heq ▸ hK.quiet

theorem checkable (hK : KeyType Γ K) : K.checkable Γ = true := by
  cases hK with
  | primitive h => rfl
  | enumeration hb =>
    change Γ.checkable _ = true
    rw [Classes.checkable, hb]

theorem keyOf (hK : KeyType Γ K) (h : Inhabits Γ K k) : KeyOf Γ K k := by
  cases hK with
  | @primitive p hp =>
    cases h with
    | plain h =>
      cases h with
      | int h => exact .plain (.int h)
      | bool b => exact .bool b
      | str s => exact .plain (.str s)
      | decimal h => exact .plain (.decimal h)
      | uuid u => exact .plain (.uuid u)
      | date d => exact .plain (.date d)
      | _ => simp at hp
  | enumeration hb =>
    cases h with
    | member hb' hd hm =>
      cases hb.symm.trans hb'
      cases hd with
      | texts hmix _ => exact absurd rfl hmix
      | integers hmix hn hw =>
        obtain ⟨m, hmem, heq⟩ := List.mem_map.mp hm
        cases heq
        exact .member hb (.integers hmix hn hw) hm
    | record hr =>
      rw [hb] at hr
      cases hr
    | namedTuple hb' => cases hb.symm.trans hb'

end KeyType

namespace Payload

/-- The texts that show the keys, each with what stands under its key. -/
def shown (entries : List (Value × Int)) : List (String × Int) :=
  entries.map fun e => (e.1.text, e.2)

/-- Texts as keys. -/
def texts (members : List (String × Int)) : List (Value × Int) :=
  members.map fun m => (.str m.1, m.2)

/-- The payload of a mapping is an object with one member for each text that shows a key, in the
order in which they are first used, and the last integer under it. -/
structure Written (Γ : Catalog) (entries : List (Value × Int)) (text : String)
    (members : List (String × Int)) : Prop where
  encoded : encode Γ (.counts entries) = .ok (some text)
  object : loads (some text) = .ok (.counts members)
  names : members.map (·.1) = (entries.map (·.1.text)).eraseDups
  last (name : String) : members.find? (·.1 == name) = (shown entries).reverse.find? (·.1 == name)

variable {members : List (String × Int)} {text : String}

theorem names_shown (entries : List (Value × Int)) :
    (shown entries).map (·.1) = entries.map (·.1.text) := by
  rw [shown, List.map_map]
  rfl

theorem shown_texts (members : List (String × Int)) : shown (texts members) = members := by
  rw [shown, texts, List.map_map]
  exact List.map_id members

theorem sequence_map_ok {α β ε : Type} {f : α → Except ε β} {g : α → β} {as : List α}
    (h : ∀ a ∈ as, f a = .ok (g a)) : sequence (as.map f) = .ok (as.map g) := by
  induction as with
  | nil => rfl
  | cons a rest ih =>
    have hrest := ih fun b hb => h b (List.mem_cons_of_mem _ hb)
    rw [List.map_cons, h a (by simp), sequence_cons_ok, hrest]
    rfl

theorem jsonable_counts (hn : ∀ e ∈ entries, nameOf e.1 = .ok e.1.text) :
    jsonable Γ (.counts entries) = .ok (.ofJson (.counts (Json.settleEntries (shown entries)))) := by
  have hdata : ∀ e ∈ entries, entryData Γ (e.1, .int e.2) = .ok (e.1.text, .int e.2) := by
    intro e he
    rw [entryData, hn e he]
    rfl
  have hmembers : (entries.map fun e => (e.1.text, Value.int e.2)) =
      membersOf ((shown entries).map fun m => (m.1, .int m.2)) := by
    rw [membersOf, shown, List.map_map, List.map_map]
    rfl
  rw [Value.counts, jsonable, jsonableEntries_eq, List.map_map]
  change Except.map _ (sequence (entries.map fun e => entryData Γ (e.1, .int e.2))) = _
  rw [sequence_map_ok hdata, hmembers, Except.map, settledObject_membersOf, Json.counts,
    ← Json.settleEntries_map_values]

theorem legible_counts (hw : ∀ m ∈ members, Number.writable m.2 = true) :
    Json.Legible (.counts members) := by
  refine .object fun m hm => ?_
  obtain ⟨m, hmem, rfl⟩ := List.mem_map.mp hm
  exact .int (hw m hmem)

theorem nesting_counts_le (members : List (String × Int)) :
    (Json.counts members).nesting ≤ 1 := by
  rw [Json.counts, Json.nesting]
  induction members with
  | nil => exact Nat.zero_le 1
  | cons m rest ih =>
    rw [List.map_cons, Json.nestingMembers, Json.nesting]
    exact Nat.max_le.mpr ⟨Nat.le_refl 1, ih⟩

theorem settle_counts (hn : (members.map (·.1)).Nodup) :
    (Json.counts members).settle = .counts members := by
  refine Json.settle_object ?_ fun m hm => ?_
  · rw [List.map_map]
    exact hn
  · obtain ⟨m, -, rfl⟩ := List.mem_map.mp hm
    rfl

theorem writable_settled (hw : ∀ e ∈ entries, Number.writable e.2 = true) :
    ∀ m ∈ Json.settleEntries (shown entries), Number.writable m.2 = true := by
  intro m hm
  obtain ⟨d, hd, hdm⟩ := Json.mem_settleEntries hm
  obtain ⟨e, he, rfl⟩ := List.mem_map.mp hd
  rw [← hdm]
  exact hw e he

/-- Keys that can name members are written under their texts. -/
theorem written_of_names (hn : ∀ e ∈ entries, nameOf e.1 = .ok e.1.text)
    (hw : ∀ e ∈ entries, Number.writable e.2 = true)
    (hm : Json.settleEntries (shown entries) = members) :
    Written Γ entries (String.ofList ((Json.counts members).chars Json.compact)) members := by
  subst hm
  have hl := legible_counts (writable_settled hw)
  have hsettled := settle_counts (Json.nodup_settleEntries (shown entries))
  refine ⟨?_, loads_chars hl hsettled, ?_, Json.find?_settleEntries _⟩
  · exact (encode_of_jsonable Value.noConfusion (jsonable_counts hn) hl).1
  · rw [Json.names_settleEntries, names_shown]

/-- A mapping is read from the texts of its keys if each key is. -/
theorem gives_counts {spelling : Spelling} (hu : Json.Unrepeated entries)
    (hg : ∀ e ∈ entries, Gives (Validation.answer Γ .data (.str e.1.text) K) e.1) :
    Gives (Validation.answer Γ .data (.ofJson (.counts (shown entries)))
      (.dict spelling K (.primitive .int))) (.counts entries) := by
  change Gives (Validation.checkDict (objectSubject Γ _) K _) _
  refine Validation.checkDict_gives rfl ?_ ?_
  · rw [objectSubject_entries, shown, List.map_map, List.map_map, List.forall₂_map_left_iff,
      List.forall₂_map_right_iff, List.forall₂_same]
    intro e he
    exact ⟨hg e he, _, rfl⟩
  · exact List.pairwise_map.mpr hu

theorem decode_counts (hK : K.checkable Γ = true) (hu : Json.Unrepeated entries)
    (hw : ∀ e ∈ entries, Number.writable e.2 = true) (s : Descriptors) (spelling : Spelling)
    (hg : ∀ U, U = K ∨ U.equals K = true → U.Quiet Γ ∧ ∀ e ∈ entries,
      Gives (Validation.answer Γ .data (.str e.1.text) U) e.1) :
    (decode Γ s (some (String.ofList ((Json.counts (shown entries)).chars Json.compact)))
      (.type (.dict spelling K (.primitive .int)))).1.result = .ok (.counts entries) := by
  refine decode_of_gives ?_ TypeExpr.noConfusion (legible_counts ?_) ?_ ?_ s
  · simp [TypeExpr.checkable, hK]
  · intro m hm
    obtain ⟨e, he, rfl⟩ := List.mem_map.mp hm
    exact hw e he
  · exact Nat.le_trans (nesting_counts_le _) (by decide)
  · rintro U (rfl | hU)
    · obtain ⟨hquiet, hgives⟩ := hg K (.inl rfl)
      exact ⟨hquiet _ _, gives_counts hu hgives⟩
    · cases U <;> simp [TypeExpr.equals] at hU
      rename_i K' V
      obtain ⟨⟨rfl, hK'⟩, hV⟩ := hU
      obtain ⟨hquiet, hgives⟩ := hg K' (.inr hK')
      rw [TypeExpr.eq_of_equals V _ hV rfl]
      exact ⟨hquiet _ _, gives_counts hu hgives⟩

/-- Integers or texts. -/
def intOrStr (spelling : Spelling) : TypeExpr :=
  .union spelling [.primitive .int, .primitive .str]

/-- A type equal to it is a union of the same two types, however often each is listed. -/
theorem exists_union {spelling : Spelling}
    (hU : U = intOrStr spelling ∨ U.equals (intOrStr spelling) = true) :
    ∃ sp Us, U = .union sp Us ∧ .primitive .str ∈ Us ∧
      ∀ T ∈ Us, T = .primitive .int ∨ T = .primitive .str := by
  rcases hU with rfl | hU
  · exact ⟨spelling, _, rfl, by simp, by simp⟩
  · obtain ⟨sp, Us, rfl⟩ : ∃ sp Us, U = .union sp Us := by
      cases U <;> simp [intOrStr, TypeExpr.equals] at hU
      exact ⟨_, _, rfl⟩
    obtain ⟨_, _, heq, hmem, hall⟩ := TypeExpr.equals_union.mp hU
    cases heq
    obtain ⟨T, hT, hstr⟩ := hall (.primitive .str) (by simp)
    refine ⟨sp, Us, rfl, TypeExpr.eq_of_equals T _ hstr rfl ▸ hT, fun T hT => ?_⟩
    obtain ⟨W, hW, hTW⟩ := hmem T hT
    simp only [List.mem_cons, List.not_mem_nil, or_false] at hW
    rcases hW with rfl | rfl
    · exact .inl (TypeExpr.eq_of_equals T _ hTW rfl)
    · exact .inr (TypeExpr.eq_of_equals T _ hTW rfl)

theorem quiet_either {spelling : Spelling}
    (hU : U = intOrStr spelling ∨ U.equals (intOrStr spelling) = true) : U.Quiet Γ := by
  obtain ⟨sp, Us, rfl, -, hall⟩ := exists_union hU
  refine TypeExpr.quiet_of_ownCode (TypeExpr.ownCodeAny_eq_false fun T hT => ?_)
  rcases hall T hT with rfl | rfl <;> rfl

theorem gives_text {spelling : Spelling}
    (hU : U = intOrStr spelling ∨ U.equals (intOrStr spelling) = true) (t : String) :
    Gives (Validation.answer Γ .data (.str t) U) (.str t) := by
  obtain ⟨sp, Us, rfl, hstr, hall⟩ := exists_union hU
  have hmodest : ∀ T ∈ Us, T.modest = true := by
    intro T hT
    rcases hall T hT with rfl | rfl <;> rfl
  have hgives : Gives (Validation.check Γ .data { value := .str t } (.union sp Us)) (.str t) :=
    Validation.checkUnion_gives_native (by decide) (.str t) hstr hmodest
  exact hgives

theorem inhabits_either_iff {spelling : Spelling} :
    Inhabits Γ (intOrStr spelling) k ↔ Key .int k ∨ Key .str k := by
  constructor
  · intro h
    cases h with
    | absent hnull => simp [TypeExpr.noneType] at hnull
    | present hv hT hne h hs =>
      simp only [List.mem_cons, List.not_mem_nil, or_false] at hT
      rcases hT with rfl | rfl
      · cases h with
        | plain h =>
          cases h with
          | int h => exact .inl (.int h)
      · cases h with
        | plain h =>
          cases h with
          | str s => exact .inr (.str s)
    | native hn hp hT hm =>
      cases hp with
      | int h => exact .inl (.int h)
      | str s => exact .inr (.str s)
      | _ => simp at hT
  · rintro (h | h)
    · cases h with
      | int h => exact .native (.int _) (.int h) (by simp) (by simp [TypeExpr.modest])
    · cases h with
      | str t => exact .native (.str t) (.str t) (by simp) (by simp [TypeExpr.modest])

theorem unrepeated_texts (hn : (members.map (·.1)).Nodup) : Json.Unrepeated (texts members) := by
  rw [List.Nodup, List.pairwise_map] at hn
  refine List.pairwise_map.mpr (hn.imp fun {a b} hne => ?_)
  rw [Bool.eq_false_iff]
  exact mt Value.str_beq_iff.mp hne

theorem beq_counts_self (h : ∀ e ∈ entries, (e.1 == e.1) = true) :
    (Value.counts entries == .counts entries) = true := by
  refine Value.equals_dict.mpr ⟨_, rfl, rfl, Value.entriesAmong_iff.mpr fun x hx => ?_⟩
  obtain ⟨e, he, rfl⟩ := List.mem_map.mp hx
  exact ⟨_, hx, h e he, Value.int_beq_iff.mpr rfl⟩

/-- Entries whose keys are texts, no two of them equal, are the same entries under their texts. -/
theorem texts_settled (hu : Json.Unrepeated entries) (h : ∀ e ∈ entries, ∃ t, e.1 = .str t) :
    texts (Json.settleEntries (shown entries)) = entries := by
  have hkey : ∀ e ∈ entries, Key .str e.1 := by
    intro e he
    obtain ⟨t, ht⟩ := h e he
    exact ht ▸ .str t
  have hn : (entries.map (·.1.text)).Nodup :=
    nodup_texts_of_gives (Γ := .empty) hu (fun e he => beq_key (hkey e he))
      fun e he => gives_key (hkey e he)
  rw [← names_shown] at hn
  rw [Json.settleEntries_eq_self (Json.unrepeated_of_nodup hn), texts, shown, List.map_map]
  refine List.map_congr_left (fun e he => ?_) |>.trans (List.map_id entries)
  obtain ⟨t, ht⟩ := h e he
  obtain ⟨k, n⟩ := e
  subst ht
  rfl

theorem exists_str (hk : Key .int k ∨ Key .str k) (h : k.text?.isSome = true) :
    ∃ t, k = .str t := by
  rcases hk with hk | hk
  · cases hk
    cases h
  · cases hk with
    | str t => exact ⟨t, rfl⟩

/-- A text equals no integer. -/
theorem eq_str_of_equals {name : String} (hk : Key .int k ∨ Key .str k)
    (h : (Value.str name).equals k = true) : k = .str name := by
  rcases hk with hk | hk
  · cases hk
    cases h
  · cases hk with
    | str t => exact congrArg Value.str (Value.str_beq_iff.mp h).symm

/-- Texts for keys that were integers or texts make an equal mapping only if all were texts. -/
theorem beq_texts_iff (hk : ∀ e ∈ entries, Key .int e.1 ∨ Key .str e.1)
    (hu : Json.Unrepeated entries) :
    (Value.counts (texts (Json.settleEntries (shown entries))) == .counts entries) = true ↔
      ∀ e ∈ entries, ∃ t, e.1 = .str t := by
  constructor
  · intro heq
    obtain ⟨ys, hys, hlen, hamong⟩ := Value.equals_dict.mp heq
    cases hys
    -- Every name was a key, and there are as many names as entries.
    have hsub : (Json.settleEntries (shown entries)).map (·.1) ⊆
        (entries.filter fun e => e.1.text?.isSome).map (·.1.text) := by
      intro name hname
      obtain ⟨m, hm, rfl⟩ := List.mem_map.mp hname
      obtain ⟨y, hy, hkey, -⟩ := Value.entriesAmong_iff.mp hamong (.str m.1, .int m.2)
        (List.mem_map_of_mem (List.mem_map_of_mem hm))
      obtain ⟨e, he, rfl⟩ := List.mem_map.mp hy
      have hstr : e.1 = .str m.1 := eq_str_of_equals (hk e he) hkey
      refine List.mem_map.mpr ⟨e, List.mem_filter.mpr ⟨he, ?_⟩, ?_⟩
      · rw [hstr]
        rfl
      · rw [hstr]
        rfl
    have hcount := (List.subperm_of_subset (Json.nodup_settleEntries _) hsub).length_le
    simp only [texts, List.length_map] at hlen hcount
    have hfull : (entries.filter fun e => e.1.text?.isSome).length = entries.length :=
      Nat.le_antisymm (List.length_filter_le _ _) (hlen ▸ hcount)
    intro e he
    exact exists_str (hk e he) (List.length_filter_eq_length_iff.mp hfull e he)
  · intro hall
    have hself : ∀ e ∈ entries, (e.1 == e.1) = true := by
      intro e he
      obtain ⟨t, ht⟩ := hall e he
      rw [ht]
      exact Value.str_beq_iff.mpr rfl
    rw [texts_settled hu hall]
    exact beq_counts_self hself

/-- Keys of a type that reads them from their texts are written apart, and read back. -/
theorem exists_text_of_keys (hK : KeyType Γ K) (hu : Json.Unrepeated entries)
    (h : ∀ e ∈ entries, Inhabits Γ K e.1) (hw : ∀ e ∈ entries, Number.writable e.2 = true)
    (s : Descriptors) (spelling : Spelling) :
    ∃ text, Written Γ entries text (shown entries) ∧ (entries.map (·.1.text)).Nodup ∧
      (decode Γ s (some text) (.type (.dict spelling K (.primitive .int)))).1.result =
        .ok (.counts entries) := by
  have hk : ∀ e ∈ entries, KeyOf Γ K e.1 := fun e he => hK.keyOf (h e he)
  have hn : (entries.map (·.1.text)).Nodup :=
    nodup_texts_of_gives hu (fun e he => (hk e he).beq_self) fun e he => (hk e he).gives
  have hsettled : Json.settleEntries (shown entries) = shown entries := by
    refine Json.settleEntries_eq_self (Json.unrepeated_of_nodup ?_)
    rw [names_shown]
    exact hn
  refine ⟨_, written_of_names (fun e he => (hk e he).nameOf_eq) hw hsettled, hn,
    decode_counts hK.checkable hu hw s spelling ?_⟩
  rintro U (rfl | hU)
  · exact ⟨hK.quiet, fun e he => (hk e he).gives⟩
  · exact ⟨hK.quiet_of_equals hU, fun e he => ((hk e he).of_equals hU).gives⟩

/-- Integers and texts are written under their texts, and read back as texts. -/
theorem exists_text_of_either (hk : ∀ e ∈ entries, Key .int e.1 ∨ Key .str e.1)
    (hw : ∀ e ∈ entries, Number.writable e.2 = true) (s : Descriptors)
    (spelling either : Spelling) :
    ∃ text, Written Γ entries text (Json.settleEntries (shown entries)) ∧
      (decode Γ s (some text)
        (.type (.dict spelling (intOrStr either) (.primitive .int)))).1.result =
          .ok (.counts (texts (Json.settleEntries (shown entries)))) := by
  have hnames : ∀ e ∈ entries, nameOf e.1 = .ok e.1.text := by
    intro e he
    rcases hk e he with h | h
    · exact nameOf_key h
    · exact nameOf_key h
  have hread : ∀ U, U = intOrStr either ∨ U.equals (intOrStr either) = true →
      U.Quiet Γ ∧ ∀ e ∈ texts (Json.settleEntries (shown entries)),
        Gives (Validation.answer Γ .data (.str e.1.text) U) e.1 := by
    refine fun U hU => ⟨quiet_either hU, fun e he => ?_⟩
    obtain ⟨m, -, rfl⟩ := List.mem_map.mp he
    exact gives_text hU m.1
  have hws : ∀ e ∈ texts (Json.settleEntries (shown entries)), Number.writable e.2 = true := by
    intro e he
    obtain ⟨m, hm, rfl⟩ := List.mem_map.mp he
    exact writable_settled hw m hm
  have hdecode := decode_counts (K := intOrStr either) rfl
    (unrepeated_texts (Json.nodup_settleEntries _)) hws s spelling hread
  rw [shown_texts] at hdecode
  exact ⟨_, written_of_names hnames hw rfl, hdecode⟩

/-- A member of an enumeration, but for one of integers, is shown by the names of the class and of
the member. -/
theorem shown_member {cls : String} {mixin : Mixin} {members : List (String × Value)}
    (hb : Γ.body? cls = some (.enumeration mixin members)) (hm : mixin ≠ .integer)
    (h : Inhabits Γ (.named cls) k) :
    nameOf k = .ok k.text ∧ ∃ name value, k = .member mixin cls name value ∧
      k.text = cls ++ "." ++ name := by
  cases h with
  | @member mixin' cls name members' value hb' hd hmem =>
    cases hb.symm.trans hb'
    have htext : (Value.member mixin cls name value).text = cls ++ "." ++ name := by
      cases mixin with
      | integer => exact absurd rfl hm
      | _ => rfl
    refine ⟨if_pos ?_, name, value, rfl, htext⟩
    rw [Value.writable]
    cases hd with
    | texts hmix hn =>
      obtain ⟨m, -, heq⟩ := List.mem_map.mp hmem
      cases heq
      rfl
    | integers hmix hn hw =>
      obtain ⟨m, hm, heq⟩ := List.mem_map.mp hmem
      cases heq
      exact hw m hm
  | record hr =>
    rw [hb] at hr
    cases hr
  | namedTuple hb' => cases hb.symm.trans hb'

theorem refused_member {cls : String} {mixin : Mixin} {members : List (String × Value)}
    (hb : Γ.body? cls = some (.enumeration mixin members)) (hm : mixin ≠ .integer) {t : String}
    (h : ∀ m ∈ members, (Value.str t == m.2) = false) :
    Validation.Refused (Validation.answer Γ .data (.str t) (.named cls)) := by
  have hfind : members.find? (fun d => Value.str t == d.2) = none :=
    List.find?_eq_none.mpr fun m hmem => by simp [h m hmem]
  change Validation.Refused (Validation.checkNamed Γ .data { value := .str t } cls)
  unfold Validation.checkNamed
  rw [hb]
  cases mixin with
  | integer => exact absurd rfl hm
  | plain =>
    refine ⟨[⟨.enumeration, []⟩], ?_⟩
    simp [Validation.checkMember, hfind, Validation.fault]
  | text =>
    refine ⟨[⟨.enumeration, []⟩], ?_⟩
    simp [Validation.checkMember, Validation.checkStr, hfind, Validation.fault]

/-- A mapping is refused if one of its keys is. -/
theorem refused_counts {spelling : Spelling} {m : String × Int} (hm : m ∈ members)
    (h : Validation.Refused (Validation.answer Γ .data (.str m.1) K)) :
    Validation.Refused (Validation.answer Γ .data (.ofJson (.counts members))
      (.dict spelling K (.primitive .int))) := by
  obtain ⟨fs, hfs⟩ := h
  change Validation.Refused (Validation.checkDict (objectSubject Γ _) K (.primitive .int))
  have hkey : Validation.Refused (Validation.checkEntry K (.primitive .int) (.str m.1,
      Validation.answer Γ .data (.str m.1), Validation.answer Γ .data (.ofJson (.int m.2)))) := by
    refine Validation.both_refused ?_ _
    dsimp only
    rw [hfs]
    exact ⟨_, rfl⟩
  have hmem : Validation.checkEntry K (.primitive .int) (.str m.1,
      Validation.answer Γ .data (.str m.1), Validation.answer Γ .data (.ofJson (.int m.2))) ∈
      (objectSubject Γ (members.map fun m => (m.1, .int m.2))).entries.map
        (Validation.checkEntry K (.primitive .int)) := by
    rw [objectSubject_entries, List.map_map, List.map_map]
    exact List.mem_map_of_mem hm
  obtain ⟨gs, hgs⟩ := Validation.collect_refused hmem hkey
  refine ⟨gs, ?_⟩
  unfold Validation.checkDict
  rw [hgs]
  rfl

/-- A text is not decoded to anything if every type equal to the target refuses its data. -/
theorem decode_of_refused {j : Json} {T : TypeExpr} (hT : T.checkable Γ = true) (hTany : T ≠ .any)
    (hl : Json.Legible j)
    (hr : ∀ U, U = T ∨ U.equals T = true →
      Validation.Refused (Validation.answer Γ .data (.ofJson j) U)) (s : Descriptors) :
    (decode Γ s (some (String.ofList (j.chars Json.compact))) (.type T)).1.result.isOk = false := by
  obtain ⟨d, s', hd, hequal⟩ := Descriptors.exists_of? hT hTany s
  obtain ⟨fs, hfs⟩ := hr d.type hequal
  have hnone : ∀ w, decodeAs Γ d.type (String.ofList (j.chars Json.compact)) ≠ .ok w := by
    intro w hw
    rw [decodeAs, Json.read_chars_some hl] at hw
    split at hw
    · cases hw
    · rename_i i hi
      split at hi <;> cases hi
      rw [Validation.examine, Validation.validate, hfs] at hw
      split at hw <;> cases hw
  rw [decode, present?_chars hl, hd]
  change (decodeText Γ d _).result.isOk = false
  unfold decodeText
  split
  · rename_i w hw
    exact absurd hw (hnone w)
  · rfl
  · rfl

/-- Members of an enumeration of texts are written under the names that show them, and read back
only from the names of values. -/
theorem exists_text_of_members {cls : String} {mixin : Mixin} {values : List (String × Value)}
    (hb : Γ.body? cls = some (.enumeration mixin values)) (hm : mixin ≠ .integer)
    (h : ∀ e ∈ entries, Inhabits Γ (.named cls) e.1)
    (hw : ∀ e ∈ entries, Number.writable e.2 = true) (s : Descriptors) (spelling : Spelling) :
    ∃ text members, Written Γ entries text members ∧
      ((∃ e ∈ entries, ∀ m ∈ values, (Value.str e.1.text == m.2) = false) →
        (decode Γ s (some text)
          (.type (.dict spelling (.named cls) (.primitive .int)))).1.result.isOk = false) := by
  refine ⟨_, _, written_of_names (fun e he => (shown_member hb hm (h e he)).1) hw rfl, ?_⟩
  rintro ⟨e, he, hlost⟩
  refine decode_of_refused ?_ TypeExpr.noConfusion (legible_counts (writable_settled hw)) ?_ s
  · change (Γ.checkable cls && true) = true
    rw [Classes.checkable, hb]
    rfl
  · intro U hU
    have hUeq : U = .dict spelling (.named cls) (.primitive .int) := by
      rcases hU with rfl | hU
      · rfl
      · exact TypeExpr.eq_of_equals U _ hU rfl
    obtain ⟨m, hmem, hname⟩ : ∃ m ∈ Json.settleEntries (shown entries), m.1 = e.1.text := by
      have hnames := Json.names_settleEntries (shown entries)
      have htext : e.1.text ∈ (Json.settleEntries (shown entries)).map (·.1) := by
        rw [hnames, names_shown, List.mem_eraseDups]
        exact List.mem_map_of_mem he
      exact List.mem_map.mp htext
    rw [hUeq]
    refine refused_counts hmem ?_
    rw [hname]
    exact refused_member hb hm hlost

/-- Both priorities, the higher one first. -/
def priorities : List (Value × Int) :=
  [(.member .integer "Priority" "HIGH" (.int 2), 7),
    (.member .integer "Priority" "LOW" (.int 1), -7)]

/-- An integer, and the text that shows it. -/
def doubled : List (Value × Int) := [(.int 1, 10), (.str "1", 20)]

theorem unrepeated_doubled : Json.Unrepeated doubled := by
  unfold Json.Unrepeated
  decide +kernel

theorem writable_doubled : ∀ e ∈ doubled, Number.writable e.2 = true := by
  decide +kernel

theorem key_doubled : ∀ e ∈ doubled, Key .int e.1 ∨ Key .str e.1 := by
  intro e he
  rcases List.mem_cons.mp he with rfl | he
  · exact .inl (.int (by decide +kernel))
  · cases List.mem_singleton.mp he
    exact .inr (.str "1")

theorem inhabits_priorities :
    ∀ e ∈ priorities, Inhabits Samples.Orders.catalog (.named "Priority") e.1 := by
  have hd : Distinct .integer [("LOW", Value.int 1), ("HIGH", Value.int 2)] :=
    @Distinct.integers .integer [("LOW", 1), ("HIGH", 2)] (by decide) (by decide)
      (by decide +kernel)
  intro e he
  rcases List.mem_cons.mp he with rfl | he
  · exact .member rfl hd (by simp)
  · cases List.mem_singleton.mp he
    exact .member rfl hd (by simp)

/-- The least integer above zero that cannot be written. -/
def tooLong : Int := (Nat.pow 10 Number.digitLimit : Nat)

theorem writable_tooLong : Number.writable tooLong = false := by
  unfold Number.writable tooLong
  rw [Int.natAbs_natCast]
  exact decide_eq_false (Nat.lt_irrefl _)

theorem encode_key_fails {n : Int} (h : Number.writable n = false) :
    (encode Γ (.counts [(.int n, 0)])).isOk = false := by
  have hn : nameOf (.int n) = .error .integerTooLong := if_neg (by simp [Value.writable, h])
  have hj : jsonable Γ (.counts [(.int n, 0)]) = .error .integerTooLong := by
    simp [Value.counts, jsonable, jsonableEntries, hn, Except.map]
  rw [encode_eq_dumps Value.noConfusion, dumps, hj]
  rfl

theorem encode_value_fails {n : Int} (h : Number.writable n = false) :
    (encode Γ (.counts [(.str "", n)])).isOk = false := by
  have hj : jsonable Γ (.counts [(.str "", n)]) = .ok (.counts [(.str "", n)]) := rfl
  have hd : dataOf (.counts [(.str "", n)]) = .error .integerTooLong := by
    have hn : dataOfInt n = .error .integerTooLong := if_neg (by simp [h])
    rw [Value.counts, List.map_cons, dataOf, dataOfEntries, keyName, dataOf, hn]
    rfl
  rw [encode_eq_dumps Value.noConfusion, dumps, hj, Except.bind, hd]
  rfl

/-- A status, which is a text itself but is shown by its name in its class. -/
def newStatus : Value := .member .text "OrderStatus" "NEW" (.str "NEW")

theorem inhabits_newStatus : Inhabits Samples.Orders.catalog (.named "OrderStatus") newStatus := by
  have hd : Distinct .text Samples.Orders.orderStatus :=
    @Distinct.texts .text [("NEW", "NEW"), ("PAID", "PAID"), ("SHIPPED", "SHIPPED")] (by decide)
      (by decide)
  exact .member rfl hd (by simp [Samples.Orders.orderStatus])

theorem written_newStatus : Written Samples.Orders.catalog [(newStatus, 1)]
    (String.ofList ((Json.counts [("OrderStatus.NEW", 1)]).chars Json.compact))
    [("OrderStatus.NEW", 1)] :=
  written_of_names (List.forall_mem_singleton.mpr rfl)
    (List.forall_mem_singleton.mpr (by decide +kernel)) rfl

end Payload
end WorkflowClient
