import WorkflowClient.Payload.Jsonable
import WorkflowClient.Proofs.Json.RoundTrip
import WorkflowClient.Proofs.Number.Decimal
import WorkflowClient.Proofs.Payload.Inhabits
import WorkflowClient.Proofs.Validation.Exactness
import WorkflowClient.Proofs.Value.Uuid

/-! Plain data that is read as a value of a type, for values without parts. -/
namespace WorkflowClient

namespace Value

mutual

/-- How deep containers and records that hold something nest in the value. -/
def nesting : Value → Nat
  | .sequence _ items => nestingItems items
  | .dict entries => nestingEntries entries
  | .record _ _ fields => nestingFields fields
  | _ => 0

def nestingItems : List Value → Nat
  | [] => 0
  | v :: rest => max (v.nesting + 1) (nestingItems rest)

def nestingEntries : List (Value × Value) → Nat
  | [] => 0
  | (_, v) :: rest => max (v.nesting + 1) (nestingEntries rest)

def nestingFields : List (String × Value) → Nat
  | [] => 0
  | (_, v) :: rest => max (v.nesting + 1) (nestingFields rest)

end

end Value

namespace Payload
open Validation (Gives)

/-- The data has a text, nests as deep as the value, is read as the value, and looks like it from
outside. -/
structure Reads (Γ : Catalog) (T : TypeExpr) (v : Value) (j : Json) : Prop where
  legible : Json.Legible j
  nesting : j.nesting = v.nesting
  gives : Gives (Validation.answer Γ .data (.ofJson j) T) v
  alike : v.Alike (.ofJson j)

variable {Γ : Catalog} {T : TypeExpr} {v : Value} {j : Json}

theorem Reads.null_type : Reads Γ TypeExpr.noneType .none .null :=
  ⟨.null, rfl, ⟨_, rfl⟩, .of_outline rfl nofun⟩

theorem Reads.int {n : Int} (h : Number.writable n = true) :
    Reads Γ (.primitive .int) (.int n) (.int n) :=
  ⟨.int h, rfl, ⟨_, rfl⟩, .of_outline rfl nofun⟩

theorem Reads.bool (b : Bool) : Reads Γ (.primitive .bool) (.bool b) (.bool b) :=
  ⟨.bool b, rfl, ⟨_, rfl⟩, .of_outline rfl nofun⟩

theorem Reads.str (s : String) : Reads Γ (.primitive .str) (.str s) (.str s) :=
  ⟨.str s, rfl, ⟨_, rfl⟩, .of_outline rfl nofun⟩

theorem Reads.float {x : Number.Double} (h : x.isFinite = true) :
    Reads Γ (.primitive .float) (.float x) (.float x) :=
  ⟨.float h, rfl, ⟨_, rfl⟩, .of_outline rfl nofun⟩

theorem Reads.uuid (u : Uuid) : Reads Γ (.primitive .uuid) (.uuid u) (.str u.text) := by
  refine ⟨.str _, rfl, ⟨.exact, ?_⟩, .of_outline rfl nofun⟩
  have hread : Uuid.ofChars? u.text.toList = some u := by
    rw [Uuid.text, String.toList_ofList, u.ofChars?_chars]
  change Validation.ofScalar .uuid (Validation.checkUuid .data (.str u.text)) = _
  simp only [Validation.checkUuid, Validation.chars?, Value.text?, hread]
  rfl

theorem Reads.decimal {d : Number.Decimal} (h : d.isFinite = true) :
    Reads Γ (.primitive .decimal) (.decimal d) (.str d.text) := by
  refine ⟨.str _, rfl, ⟨⟨.strict, none⟩, ?_⟩, .of_outline rfl nofun⟩
  have hread : Number.Decimal.ofChars? d.text.toList = some d := by
    rw [Number.Decimal.text, String.toList_ofList]
    cases d with
    | finite s c e => exact Number.Decimal.ofChars?_chars s c e
    | infinite s => cases h
    | nan s q p => cases h
  change Validation.ofScalar .decimal (Validation.checkDecimal .data (.str d.text)) = _
  simp only [Validation.checkDecimal, Value.text?, Validation.decimalOfChars, hread,
    Validation.finiteDecimal, h]
  rfl

theorem Reads.date (d : Calendar.Date) :
    Reads Γ (.primitive .date) (.date d) (.str (String.ofList d.chars)) := by
  refine ⟨.str _, rfl, ⟨⟨.strict, none⟩, ?_⟩, .of_outline rfl nofun⟩
  change Validation.ofScalar .date (Validation.checkDate .data (.str (String.ofList d.chars))) = _
  simp only [Validation.checkDate, Validation.dateOf, Validation.chars?, Value.text?,
    String.toList_ofList, d.ofChars?_chars]
  rfl

theorem Reads.clock {c : Calendar.Clock} {cs : List Char}
    (h : Calendar.Clock.read? false cs = some c) :
    Reads Γ (.primitive .clock) (.clock c) (.str (String.ofList cs)) := by
  refine ⟨.str _, rfl, ⟨⟨.strict, none⟩, ?_⟩, .of_outline rfl nofun⟩
  change Validation.ofScalar .clock (Validation.checkClock .data (.str (String.ofList cs))) = _
  simp only [Validation.checkClock, Validation.chars?, Value.text?, String.toList_ofList, h]
  rfl

theorem Reads.instant {t : Calendar.Instant} {cs : List Char}
    (h : Calendar.Instant.read? false cs = some t) :
    Reads Γ (.primitive .instant) (.instant t) (.str (String.ofList cs)) := by
  refine ⟨.str _, rfl, ⟨⟨.strict, none⟩, ?_⟩, .of_outline rfl nofun⟩
  change Validation.ofScalar .instant (Validation.checkInstant .data (.str (String.ofList cs))) = _
  simp only [Validation.checkInstant, Validation.instantOf, Validation.chars?, Value.text?,
    String.toList_ofList, h]
  rfl

theorem intOfChars_intText {n : Int} (h : Number.writable n = true) :
    Validation.intOfChars (Number.intText n) = .ok n := by
  have hpart : ∀ c ∈ Number.intText n, Number.Decimal.isPart c = true := by
    intro c hc
    unfold Number.intText at hc
    split at hc
    · rcases List.mem_cons.mp hc with rfl | hmem
      · decide
      · exact Number.Decimal.isPart_of_isDigit (Number.isDigit_of_mem_natText hmem)
    · exact Number.Decimal.isPart_of_isDigit (Number.isDigit_of_mem_natText hc)
  have hspace : ∀ c ∈ Number.intText n, Text.isWhiteSpace c = false := by
    intro c hc
    by_contra h
    have hblank := Text.isBlank_of_isWhiteSpace (by simpa using h)
    rw [(Number.Decimal.plain_of_isPart (hpart c hc)).1] at hblank
    cases hblank
  rw [Validation.intOfChars, Number.trim_eq_self hspace, Number.integer_intText h]

/-- A key is read from the text that shows it. -/
theorem gives_key {K : Primitive} {k : Value} (h : Key K k) :
    Gives (Validation.answer Γ .data (.str k.text) (.primitive K)) k := by
  cases h with
  | str s => exact ⟨.exact, rfl⟩
  | @int n h =>
    have hread : Validation.intOfChars (Value.int n).text.toList = .ok n := by
      change Validation.intOfChars (String.ofList (Number.intText n)).toList = _
      rw [String.toList_ofList]
      exact intOfChars_intText h
    refine ⟨⟨.lax, none⟩, ?_⟩
    change Validation.ofScalar .int (Validation.checkInt .data (.str (Value.int n).text)) = _
    simp only [Validation.checkInt, Validation.chars?, Value.text?, hread]
    rfl
  | uuid u => exact (Reads.uuid u).gives
  | date d => exact (Reads.date d).gives
  | decimal h => exact (Reads.decimal h).gives

theorem beq_key {K : Primitive} {k : Value} (h : Key K k) : (k == k) = true := by
  cases h with
  | str s => exact Value.str_beq_iff.mpr rfl
  | @int n h => exact Value.int_beq_iff.mpr rfl
  | uuid u => exact beq_self_eq_true u
  | date d => exact beq_self_eq_true d
  | @decimal d h =>
    cases d with
    | finite s c e =>
      change decide (Value.Quantity.exact (.normal s c e) = .exact (.normal s c e)) = true
      simp
    | infinite s => cases h
    | nan s q p => cases h

/-- Keys that differ are shown by different texts, if a type reads each from its text. -/
theorem nodup_texts_of_gives {β : Type} {entries : List (Value × β)}
    (hu : Json.Unrepeated entries) (hself : ∀ e ∈ entries, (e.1 == e.1) = true)
    (hg : ∀ e ∈ entries, Gives (Validation.answer Γ .data (.str e.1.text) T) e.1) :
    (entries.map (·.1.text)).Nodup := by
  rw [List.Nodup, List.pairwise_map]
  refine List.Pairwise.imp_of_mem ?_ hu
  intro a b ha hb hne heq
  have hga := hg a ha
  rw [heq] at hga
  rw [hga.unique (hg b hb), hself b hb] at hne
  cases hne

theorem nodup_texts {K : Primitive} {entries : List (Value × Value)} (hu : Json.Unrepeated entries)
    (hk : ∀ e ∈ entries, Key K e.1) : (entries.map (·.1.text)).Nodup :=
  nodup_texts_of_gives (Γ := .empty) hu (fun e he => beq_key (hk e he))
    fun e he => gives_key (hk e he)

end Payload
end WorkflowClient
