import WorkflowClient.Proofs.Payload.RoundTrip

/-! Values that are written as one text each: identifiers, decimals, dates and times. -/
namespace WorkflowClient
open Calendar Payload

/-- A scalar whose data is a text. A time of day has no offset from universal time; an instant has
none, or one in whole minutes, but does not stand where a zone changes its offset. -/
inductive Printed : Primitive → Value → Prop
  | uuid (u : Uuid) : Printed .uuid (.uuid u)
  | decimal (s : Bool) (c : Nat) (e : Int) : Printed .decimal (.decimal (.finite s c e))
  | date (d : Date) : Printed .date (.date d)
  | clock {c : Clock} (h : c.offset = none) : Printed .clock (.clock c)
  | naive {t : Instant} (h : t.clock.offset = none) (hz : t.zone = none) :
      Printed .instant (.instant t)
  | aware {t : Instant} {o : Offset} (h : t.clock.offset = some o) (hw : o.seconds % 60 = 0)
      (hz : t.zone = none) : Printed .instant (.instant t)

variable {Γ : Catalog} {p : Primitive} {v : Value} {c : Clock}

theorem Calendar.Clock.readable_of_naive (h : c.offset = none) : c.Readable := by
  intro o ho
  rw [h] at ho
  cases ho

theorem Calendar.Clock.readable_of_aware {o : Offset} (h : c.offset = some o) (hw : o.Whole) :
    c.Readable := by
  intro q hq
  rw [h] at hq
  cases hq
  exact hw

namespace Printed

theorem plain (h : Printed p v) : Plain p v := by
  cases h with
  | uuid u => exact .uuid u
  | decimal s c e => exact .decimal rfl
  | date d => exact .date d
  | clock h => exact .clock (Clock.readable_of_naive h)
  | naive h hz => exact .instant ⟨Clock.readable_of_naive h, hz⟩
  | aware h hw hz => exact .instant ⟨Clock.readable_of_aware h hw, hz⟩

theorem checkable (h : Printed p v) : (TypeExpr.primitive p).checkable Γ = true := by
  cases h <;> rfl

theorem nesting (h : Printed p v) : v.nesting = 0 := by
  cases h <;> rfl

theorem ne_none (h : Printed p v) : v ≠ .none := by
  cases h <;> exact Value.noConfusion

theorem beq_self (h : Printed p v) : (v == v) = true := by
  cases h with
  | uuid u => exact beq_self_eq_true u
  | decimal s c e => exact beq_key (.decimal rfl)
  | date d => exact beq_self_eq_true d
  | @clock c h =>
    have hnone : c.universal? = none := by rw [Clock.universal?, h]; rfl
    change c.equals c = true
    rw [Clock.equals, hnone]
    exact beq_self_eq_true c.microseconds
  | @naive t h =>
    change t.equals t = true
    rw [Instant.equals, h]
    exact beq_self_eq_true t.shown
  | @aware t o h =>
    change t.equals t = true
    rw [Instant.equals, h]
    exact beq_self_eq_true (t.moment o)

end Printed

namespace Payload

/-- Every such scalar has a payload, and by its own type it is read from it as it was, whatever
descriptors are kept. -/
theorem decode_encode_printed (h : Printed p v) (s : Descriptors) :
    ∃ text, encode Γ v = .ok (some text) ∧
      (decode Γ s (some text) (.type (.primitive p))).1.result = .ok v ∧ (v == v) = true := by
  obtain ⟨j, hj, hr⟩ := (Carried.plain (Γ := Γ) h.plain).alone
  obtain ⟨hraw, -⟩ := encode_of_jsonable h.ne_none hj hr.legible
  have hdepth : j.nesting ≤ depthLimit := by
    rw [hr.nesting, h.nesting]
    exact Nat.zero_le _
  refine ⟨_, hraw, decode_of_gives h.checkable (by simp) hr.legible hdepth ?_ s, h.beq_self⟩
  rintro U (rfl | heq)
  · exact ⟨rfl, hr.gives⟩
  · rw [TypeExpr.eq_of_equals U _ heq rfl]
    exact ⟨rfl, hr.gives⟩

/-- The second microsecond of the first year, almost an hour west of universal time. -/
def dawn : Instant where
  date := ⟨1, 1, 1, by decide⟩
  clock := ⟨0, 0, 0, 1, some ⟨-3540, by decide⟩, by decide⟩
  zone := none

theorem decode_encode_dawn :
    ∃ text, encode Samples.Orders.catalog (.instant dawn) = .ok (some text) ∧
      (decode Samples.Orders.catalog {} (some text) (.type (.primitive .instant))).1.result =
        .ok (.instant dawn) ∧ (Value.instant dawn == .instant dawn) = true :=
  decode_encode_printed (.aware rfl (by decide) rfl) {}

/-- Half past two in Berlin, for the first time on the day when the clocks are put back. -/
def repeatedHour : Instant where
  date := ⟨2021, 10, 31, by decide⟩
  clock := ⟨2, 30, 0, 0, some ⟨7200, by decide⟩, by decide⟩
  zone := some "Europe/Berlin"

/-- The text of an instant does not say that it stands where a zone changes its offset: it is read as
one that is not equal to it. Taken for the day that it is on, it is not read at all. -/
theorem decode_encode_differs :
    ∃ text, encode Samples.Orders.catalog (.instant repeatedHour) = .ok (some text) ∧
      (∃ w, (decode Samples.Orders.catalog {} (some text) (.type (.primitive .instant))).1.result =
        .ok w ∧ (w == .instant repeatedHour) = false) ∧
      (decode Samples.Orders.catalog {} (some text) (.type (.primitive .date))).1.result.isOk =
        false := by
  have hencode : encode Samples.Orders.catalog (.instant repeatedHour) =
      .ok (some "\"2021-10-31T02:30:00+02:00\"") := by decide +kernel
  obtain ⟨text, hplain, hdecode, -⟩ := decode_encode_printed (Γ := Samples.Orders.catalog)
    (v := .instant { repeatedHour with zone := none }) (.aware rfl (by decide) rfl) {}
  have hsame : encode Samples.Orders.catalog (.instant repeatedHour) =
      encode Samples.Orders.catalog (.instant { repeatedHour with zone := none }) := rfl
  rw [hsame, hplain] at hencode
  cases hencode
  exact ⟨_, hsame.trans hplain, ⟨_, hdecode, by decide⟩, by decide +kernel⟩

end Payload
end WorkflowClient
