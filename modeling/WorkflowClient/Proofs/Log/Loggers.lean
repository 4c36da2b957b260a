import Mathlib.Data.List.Basic
import WorkflowClient.Log.Loggers

/-! Loggers keep the level that was the default when they were first asked for, and write with their
own handler alone. -/
namespace WorkflowClient.Log.Loggers

/-- What is done with loggers. The message of an entry is complete. -/
inductive Event
  | setDefault (level : Int)
  | get (component : String)
  | log (component : String) (level : Int) (message : String)
deriving DecidableEq

namespace Event

/-- Writing an entry leaves the loggers as they are. -/
def apply (s : Loggers) : Event → Loggers
  | setDefault level => s.setDefault level
  | get component => (s.get component).2
  | log .. => s

def default? : Event → Option Int
  | setDefault level => some level
  | _ => none

end Event

/-- The loggers after a history that begins with none. -/
def after (h : List Event) : Loggers := h.foldl Event.apply {}

/-- The default that was set last, or else the usual one. -/
def defaultAfter (h : List Event) : Int := (h.filterMap Event.default?).getLastD info

/-- A component's logger as it is handed out: with one handler, of its own level, and with nothing
passed on to the loggers above. -/
def fittedAt (level : Int) (component : String) : Logger :=
  { component, level, handlers := [⟨level⟩], propagates := false }

variable {s : Loggers} {l : Logger} {c d : String} {n : Int}

theorem find?_put (s : Loggers) (l : Logger) (c : String) :
    (s.put l).find? c = if l.component = c then some l else s.find? c := by
  have hothers : (s.made.filter (·.component != l.component)).find? (·.component == c) =
      if l.component = c then none else s.find? c := by
    rw [List.find?_filter]
    split
    · rename_i hc
      simp [hc]
    · rename_i hc
      refine congrArg (fun p => s.made.find? p) (funext fun m => ?_)
      by_cases hm : m.component = c
      · simp [hm, Ne.symm hc]
      · simp [hm]
  rw [put, find?, List.find?_append, hothers]
  split
  · rename_i hc
    simp [hc]
  · rename_i hc
    simp [hc]

theorem get_of_find? (h : s.find? c = some l) (hl : l.handlers ≠ []) : s.get c = (l, s) := by
  simp [get, h, hl]

theorem get_of_absent (h : s.find? c = none) :
    s.get c = (fittedAt s.defaultLevel c, s.put (fittedAt s.defaultLevel c)) := by
  simp [get, h, Logger.fitted, fittedAt]

/-- Asking for a logger gives another component's neither a handler nor a level. -/
theorem find?_get_of_ne (hcd : c ≠ d) (s : Loggers) : (s.get d).2.find? c = s.find? c := by
  have hcomponent : ((s.find? d).getD { component := d }).component = d := by
    cases h : s.find? d with
    | none => rfl
    | some l => simpa using List.find?_some h
  simp only [get]
  split
  · rw [find?_put, if_neg]
    rw [Logger.fitted, hcomponent]
    exact fun h => hcd h.symm
  · rfl

theorem defaultLevel_get (s : Loggers) (c : String) :
    (s.get c).2.defaultLevel = s.defaultLevel := by
  simp only [get]
  split <;> rfl

/-- No event changes a logger that has a handler. -/
theorem find?_apply (h : s.find? c = some l) (hl : l.handlers ≠ []) (e : Event) :
    (e.apply s).find? c = some l := by
  cases e with
  | setDefault level => exact h
  | get d =>
    by_cases hcd : c = d
    · subst hcd
      rw [Event.apply, get_of_find? h hl]
      exact h
    · rw [Event.apply, find?_get_of_ne hcd]
      exact h
  | log _ _ _ => exact h

theorem find?_foldl (h : s.find? c = some l) (hl : l.handlers ≠ []) (events : List Event) :
    (events.foldl Event.apply s).find? c = some l := by
  induction events generalizing s with
  | nil => exact h
  | cons e rest ih => exact ih (find?_apply h hl e)

/-- A logger is made by being asked for, and by nothing else. -/
theorem absent_foldl {events : List Event} (hc : Event.get c ∉ events) (h : s.find? c = none) :
    (events.foldl Event.apply s).find? c = none := by
  induction events generalizing s with
  | nil => exact h
  | cons e rest ih =>
    rw [List.mem_cons, not_or] at hc
    refine ih hc.2 ?_
    cases e with
    | setDefault level => exact h
    | get d =>
      have hcd : c ≠ d := fun heq => hc.1 (heq ▸ rfl)
      rw [Event.apply, find?_get_of_ne hcd]
      exact h
    | log _ _ _ => exact h

theorem defaultLevel_foldl (events : List Event) (s : Loggers) :
    (events.foldl Event.apply s).defaultLevel =
      (events.filterMap Event.default?).getLastD s.defaultLevel := by
  induction events generalizing s with
  | nil => rfl
  | cons e rest ih =>
    rw [List.foldl_cons, ih]
    cases e with
    | setDefault level => simp only [Event.apply, Event.default?, setDefault, List.filterMap_cons,
        List.getLastD_cons]
    | get d => simp only [Event.apply, Event.default?, defaultLevel_get, List.filterMap_cons]
    | log _ _ _ => simp only [Event.apply, Event.default?, List.filterMap_cons]

theorem default?_eq_some {e : Event} : e.default? = some n ↔ e = .setDefault n := by
  cases e <;> simp [Event.default?]

theorem defaultAfter_pos {events : List Event} (h : ∀ n, Event.setDefault n ∈ events → 0 < n) :
    0 < defaultAfter events := by
  unfold defaultAfter
  cases hlast : (events.filterMap Event.default?).getLast? with
  | none => simp [List.getLastD_eq_getLast?, hlast, info]
  | some n =>
    obtain ⟨e, he, hen⟩ := List.mem_filterMap.mp (List.mem_of_getLast? hlast)
    rw [List.getLastD_eq_getLast?, hlast]
    exact h n (default?_eq_some.mp hen ▸ he)

/-- A logger with a level of its own, and a handler of that level, writes by that handler alone. -/
theorem receivers_fittedAt (hn : 0 < n) (s : Loggers) (c : String) (level : Int) :
    s.receivers (fittedAt n c) level = if n ≤ level then [(fittedAt n c, ⟨n⟩)] else [] := by
  have hlevel : s.effectiveLevel (fittedAt n c) = n := by
    have hne : n ≠ 0 := by omega
    simp [effectiveLevel, lineage, fittedAt, hne]
  have hreached : reached (s.lineage (fittedAt n c)) = [fittedAt n c] := rfl
  have hhandlers : (fittedAt n c).handlers = [⟨n⟩] := rfl
  rw [receivers, hlevel, hreached, List.flatMap_singleton, hhandlers]
  by_cases hle : n ≤ level
  · rw [if_pos ⟨by omega, hle⟩, if_pos hle]
    simp [hle]
  · rw [if_neg (fun h => hle h.2), if_neg hle]

theorem fill_nil (message : String) : fill message [] = .ok message := rfl

/-- A message is written with its values in their places. -/
theorem write_of_fill (s : Loggers) (time c : String) (level : Int) {message text : String}
    {values : List Value} (h : fill message values = .ok text) :
    s.write time c level message values = s.write time c level text := by
  rw [write, write, h, fill_nil]

theorem write_fittedAt (hn : 0 < n) (h : s.find? c = some (fittedAt n c)) (time : String)
    (level : Int) (message : String) : s.write time c level message =
      if n ≤ level then Entry.line time ⟨(fittedAt n c).name, level, message, none⟩ ++ "\n" else "" := by
  rw [write, h, fill_nil]
  dsimp only
  rw [receivers_fittedAt hn]
  split
  · simp [String.join]
  · simp [String.join]

/-- A component's logger at any time after it was first asked for. It is the one that was handed out
then, and has one handler; the level of both is the default of that time, whatever came later. An
entry is written once, by that handler, if its level is at least that one, and else not at all; its
message stands there with the values that it was given. -/
theorem logger_after {before : List Event} (hdefaults : ∀ n, Event.setDefault n ∈ before → 0 < n)
    {c : String} (hfirst : Event.get c ∉ before) (later : List Event) :
    let n := defaultAfter before
    let s := after (before ++ .get c :: later)
    ∃ l : Logger, ((after before).get c).1 = l ∧ s.get c = (l, s) ∧
      l.component = c ∧ l.handlers = [⟨n⟩] ∧ l.level = n ∧
      ∀ level,
        s.receivers l level = (if n ≤ level then [(l, ⟨n⟩)] else []) ∧
        ∀ time message, (s.write time c level message =
          if n ≤ level then Entry.line time ⟨l.name, level, message, none⟩ ++ "\n" else "") ∧
          ∀ values text, fill message values = .ok text →
            s.write time c level message values = s.write time c level text := by
  intro n s
  have hn : 0 < n := defaultAfter_pos hdefaults
  have hlevel : (after before).defaultLevel = n := defaultLevel_foldl before {}
  have habsent : (after before).find? c = none := absent_foldl hfirst rfl
  have hget : (after before).get c = (fittedAt n c, (after before).put (fittedAt n c)) := by
    rw [get_of_absent habsent, hlevel]
  have hfind : s.find? c = some (fittedAt n c) := by
    have hs : s = later.foldl Event.apply ((after before).put (fittedAt n c)) := by
      simp only [s, after, List.foldl_append, List.foldl_cons, Event.apply]
      rw [← after, hget]
    rw [hs]
    exact find?_foldl ((find?_put _ _ c).trans (if_pos rfl)) (by simp [fittedAt]) later
  have hsame : s.get c = (fittedAt n c, s) := get_of_find? hfind (by simp [fittedAt])
  refine ⟨fittedAt n c, congrArg Prod.fst hget, hsame, rfl, rfl, rfl, fun level => ⟨?_, ?_⟩⟩
  · exact receivers_fittedAt hn s c level
  · exact fun time message => ⟨write_fittedAt hn hfind time level message,
      fun values text => write_of_fill s time c level⟩

/-- A logger below another one, with defaults that change before and after it is made. -/
theorem logger_after_nested :
    (∀ n, Event.setDefault n ∈ [.setDefault 30, .get "depot", .setDefault 10] → 0 < n) ∧
      Event.get "depot.gate" ∉ [.setDefault 30, .get "depot", .setDefault 10] ∧
      let s := after ([.setDefault 30, .get "depot", .setDefault 10] ++ .get "depot.gate" ::
        [.setDefault 50, .log "depot" 40 "full", .get "depot.gate", .get "depot"])
      ∃ l : Logger, s.get "depot.gate" = (l, s) ∧ l.handlers = [⟨10⟩] ∧
        s.receivers l 20 = [(l, ⟨10⟩)] ∧ s.receivers l 5 = [] := by
  have hdefaults : ∀ n, Event.setDefault n ∈ [.setDefault 30, .get "depot", .setDefault 10] →
      0 < n := by
    intro n hn
    have : n = 30 ∨ n = 10 := by simpa using hn
    omega
  have hfirst : Event.get "depot.gate" ∉ [.setDefault 30, .get "depot", .setDefault 10] := by
    decide
  obtain ⟨l, -, hsame, -, hhandlers, -, hlevels⟩ := logger_after hdefaults hfirst
    [.setDefault 50, .log "depot" 40 "full", .get "depot.gate", .get "depot"]
  exact ⟨hdefaults, hfirst, l, hsame, hhandlers, (hlevels 20).1, (hlevels 5).1⟩

end WorkflowClient.Log.Loggers
