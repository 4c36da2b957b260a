import Mathlib.Data.List.Forall2
import WorkflowClient.Diagnostic.Causes
import WorkflowClient.Diagnostic.Render
import WorkflowClient.Proofs.Number.Digits

/-! Colours are decoration: without its colour sequences a coloured text is the plain one. -/
namespace WorkflowClient.Diagnostic

/-- The character that every colour sequence begins with. -/
def escape : Char := '\x1b'

/-- What stands between the bracket and the end of a colour sequence. -/
def isParameter (c : Char) : Bool := c.isDigit || c = ';'

/-- The text after the colour sequence that a text begins with. -/
def afterSequence? : List Char → Option (List Char)
  | '\x1b' :: '[' :: rest => match rest.dropWhile isParameter with
    | 'm' :: rest => some rest
    | _ => none
  | _ => none

theorem length_of_afterSequence? {cs rest : List Char} (h : afterSequence? cs = some rest) :
    rest.length < cs.length := by
  unfold afterSequence? at h
  split at h
  · rename_i tail
    split at h
    · rename_i more hdrop
      have hle := (List.dropWhile_suffix isParameter (l := tail)).length_le
      cases h
      rw [hdrop] at hle
      simp only [List.length_cons] at hle ⊢
      omega
    · cases h
  · cases h

/-- The text with every colour sequence deleted. -/
def decolored : List Char → List Char
  | [] => []
  | c :: rest => match _h : afterSequence? (c :: rest) with
    | some after => decolored after
    | none => c :: decolored rest
termination_by cs => cs.length
decreasing_by
  · exact length_of_afterSequence? ‹_›
  · exact Nat.lt_succ_self _

/-- The second text is the first one with colour sequences put into it. -/
inductive Decorates : List Char → List Char → Prop
  | nil : Decorates [] []
  | char {c : Char} {p q : List Char} : c ≠ escape → Decorates p q → Decorates (c :: p) (c :: q)
  | sequence {ps p q : List Char} : (∀ c ∈ ps, isParameter c = true) → Decorates p q →
    Decorates p (escape :: '[' :: (ps ++ 'm' :: q))

namespace Decorates
variable {p q p' q' : List Char}

theorem refl (h : escape ∉ p) : Decorates p p := by
  induction p with
  | nil => exact .nil
  | cons c rest ih =>
    rw [List.mem_cons, not_or] at h
    exact .char (Ne.symm h.1) (ih h.2)

theorem append (h : Decorates p q) (h' : Decorates p' q') : Decorates (p ++ p') (q ++ q') := by
  induction h with
  | nil => exact h'
  | char hc _ ih => exact .char hc ih
  | sequence hps _ ih => simpa using Decorates.sequence hps ih

theorem escape_not_mem (h : Decorates p q) : escape ∉ p := by
  induction h with
  | nil => exact List.not_mem_nil
  | char hc _ ih => exact fun hm => (List.mem_cons.mp hm).elim (fun he => hc he.symm) ih
  | sequence _ _ ih => exact ih

theorem afterSequence?_of_ne {c : Char} (hc : c ≠ escape) (cs : List Char) :
    afterSequence? (c :: cs) = none := by
  unfold afterSequence?
  split
  · rename_i h
    cases h
    exact absurd rfl hc
  · rfl

theorem afterSequence?_sequence {ps : List Char} (h : ∀ c ∈ ps, isParameter c = true)
    (cs : List Char) : afterSequence? (escape :: '[' :: (ps ++ 'm' :: cs)) = some cs := by
  have hdrop : (ps ++ 'm' :: cs).dropWhile isParameter = 'm' :: cs := by
    rw [List.dropWhile_append_of_pos h]
    rfl
  simp [afterSequence?, escape, hdrop]

/-- Deleting the sequences gives back the text that they were put into. -/
theorem decolored_eq (h : Decorates p q) : decolored q = p := by
  induction h with
  | nil => simp [decolored]
  | char hc _ ih =>
    rw [decolored]
    split
    · rename_i hafter
      rw [afterSequence?_of_ne hc] at hafter
      cases hafter
    · rw [ih]
  | sequence hps _ ih =>
    rw [decolored]
    split
    · rename_i hafter
      rw [afterSequence?_sequence hps] at hafter
      cases hafter
      exact ih
    · rename_i hafter
      rw [afterSequence?_sequence hps] at hafter
      cases hafter

end Decorates

/-- A text that no colour sequence begins in. -/
def Clean (s : String) : Prop := escape ∉ s.toList

instance (s : String) : Decidable (Clean s) := inferInstanceAs (Decidable (escape ∉ s.toList))

theorem clean_ofList {cs : List Char} : Clean (String.ofList cs) ↔ escape ∉ cs := by
  rw [Clean, String.toList_ofList]

theorem Clean.append {s t : String} (hs : Clean s) (ht : Clean t) : Clean (s ++ t) := by
  rw [Clean, String.toList_append, List.mem_append, not_or]
  exact ⟨hs, ht⟩

theorem clean_replicate {c : Char} (hc : escape ≠ c) (n : Nat) :
    Clean (String.ofList (List.replicate n c)) :=
  clean_ofList.mpr fun h => hc (List.eq_of_mem_replicate h)

theorem clean_blanks (n : Nat) : Clean (blanks n) := clean_replicate (by decide) n

theorem clean_toString_nat (n : Nat) : Clean (toString n) := by
  rw [show toString n = String.ofList (Number.natText n) from Nat.repr_eq_ofList_toDigits,
    clean_ofList]
  intro h
  exact absurd (Number.isDigit_of_mem_natText h) (by decide)

theorem clean_toString (n : Int) : Clean (toString n) := by
  have hdigits := clean_ofList.mp (clean_toString_nat n.natAbs)
  rw [Number.toString_eq_intText, clean_ofList, Number.intText]
  split
  · exact List.not_mem_cons_of_ne_of_not_mem (by decide) hdigits
  · exact hdigits

/-- The parts of a text are made of its characters. -/
theorem mem_of_mem_splitOn {sep c : Char} {cs part : List Char} (hp : part ∈ Text.splitOn sep cs)
    (hc : c ∈ part) : c ∈ cs := by
  induction cs generalizing part with
  | nil =>
    rw [Text.splitOn, List.mem_singleton] at hp
    exact hp ▸ hc
  | cons d rest ih =>
    rw [Text.splitOn] at hp
    split at hp
    · rcases List.mem_cons.mp hp with rfl | hp
      · cases hc
      · exact List.mem_cons_of_mem _ (ih hp hc)
    · split at hp
      · rename_i hsplit
        exact absurd hsplit (Text.splitOn_ne_nil _ _)
      · rename_i first more hsplit
        rcases List.mem_cons.mp hp with rfl | hp
        · rcases List.mem_cons.mp hc with rfl | hc
          · exact List.mem_cons_self
          · exact List.mem_cons_of_mem _ (ih (hsplit ▸ List.mem_cons_self) hc)
        · exact List.mem_cons_of_mem _ (ih (hsplit ▸ List.mem_cons_of_mem _ hp) hc)

theorem Clean.splitLines {s : String} (h : Clean s) : ∀ line ∈ splitLines s, Clean line := by
  intro line hline
  obtain ⟨part, hpart, rfl⟩ := List.mem_map.mp hline
  exact clean_ofList.mpr fun hc => h (mem_of_mem_splitOn hpart hc)

theorem clean_code (c : Code) : Clean c.text := by
  cases c <;> decide

theorem clean_codeText (c? : Option Code) : Clean (codeText c?) := by
  cases c? with
  | none => decide
  | some c => exact (Clean.append (by decide) (clean_code c)).append (by decide)

def Decorated (s t : String) : Prop := Decorates s.toList t.toList

namespace Decorated
variable {s t s' t' : String} {ss ts : List String}

theorem refl (h : Clean s) : Decorated s s := Decorates.refl h

theorem literal (s : String) (h : Clean s := by decide) : Decorated s s := refl h

theorem append (h : Decorated s t) (h' : Decorated s' t') : Decorated (s ++ s') (t ++ t') := by
  rw [Decorated, String.toList_append, String.toList_append]
  exact Decorates.append h h'

/-- A colour sequence in the place of nothing. -/
theorem of_sequence (ps : List Char) (h : ps.all isParameter = true) :
    Decorated "" (String.ofList (escape :: '[' :: (ps ++ ['m']))) := by
  simpa [Decorated] using Decorates.sequence (List.all_eq_true.mp h) .nil

theorem intercalate {sep : String} (hsep : Clean sep) (h : List.Forall₂ Decorated ss ts) :
    Decorated (String.intercalate sep ss) (String.intercalate sep ts) := by
  induction h with
  | nil => exact refl (by simp [Clean])
  | cons h hrest ih =>
    cases hrest with
    | nil => simpa using h
    | cons => simpa only [String.intercalate_cons_cons] using (h.append (refl hsep)).append ih

end Decorated

/-- The colours of one palette are colour sequences where those of the other are empty. -/
structure Palette.Decorated (p q : Palette) : Prop where
  reset : Diagnostic.Decorated p.reset q.reset
  bold : Diagnostic.Decorated p.bold q.bold
  red : Diagnostic.Decorated p.red q.red
  blue : Diagnostic.Decorated p.blue q.blue
  cyan : Diagnostic.Decorated p.cyan q.cyan
  green : Diagnostic.Decorated p.green q.green

theorem Palette.plain_colored : Palette.Decorated .plain .colored where
  reset := Decorated.of_sequence ['0'] (by decide)
  bold := Decorated.of_sequence ['1'] (by decide)
  red := Decorated.of_sequence ['9', '1'] (by decide)
  blue := Decorated.of_sequence ['9', '4'] (by decide)
  cyan := Decorated.of_sequence ['9', '6'] (by decide)
  green := Decorated.of_sequence ['9', '2'] (by decide)

/-- Nothing that a header shows holds an escape. -/
structure CleanHeader (files : Files) (h : Header) : Prop where
  message : Clean h.message
  notes : ∀ note ∈ h.notes, Clean note
  help : ∀ help ∈ h.help, Clean help
  file : ∀ l ∈ h.location, Clean l.file
  source : ∀ l ∈ h.location, ∀ line ∈ sourceLine? files l, Clean line

/-- Nothing that is shown of an error holds an escape. -/
inductive Shown (files : Files) : Diagnostic → Prop
  | single {k : Kind} {h : Header} : CleanHeader files h → Shown files (.single k h)
  | multiple {h : Header} {phase : String} {errors : List Diagnostic} : Clean phase →
    (∀ d ∈ errors, Shown files d) → Shown files (.multiple h phase errors)

section
open Decorated (literal)

variable {p q : Palette} {files : Files} {s : String}

theorem snippet_decorated (hpq : p.Decorated q) (l : Location) {line : String} (h : Clean line) :
    List.Forall₂ Decorated (snippet p l line) (snippet q l line) := by
  have hnumber := Decorated.refl (clean_toString l.line)
  have hpadding := Decorated.refl (clean_blanks (toString l.line).length)
  have hunderline := Decorated.refl ((clean_blanks
    (line.length - (line.toList.dropWhile Text.isBlank).length)).append
      (clean_replicate (c := '^') (by decide) (line.toList.dropWhile Text.isBlank).length))
  refine .cons ?_ (.cons ?_ (.cons ?_ .nil))
  · exact literal "   " |>.append hpq.blue |>.append hpadding |>.append (literal "|")
      |>.append hpq.reset
  · exact literal "   " |>.append hpq.blue |>.append hnumber |>.append (literal "|")
      |>.append hpq.reset |>.append (literal " ") |>.append (.refl h)
  · exact literal "   " |>.append hpq.blue |>.append hpadding |>.append (literal "|")
      |>.append hpq.reset |>.append (literal " ") |>.append hpq.red |>.append hunderline
      |>.append hpq.reset

theorem locationLines_decorated (hpq : p.Decorated q) {l? : Option Location}
    (hfile : ∀ l ∈ l?, Clean l.file) (hline : ∀ l ∈ l?, ∀ line ∈ sourceLine? files l, Clean line) :
    List.Forall₂ Decorated (locationLines p files l?) (locationLines q files l?) := by
  cases l? with
  | none => exact .nil
  | some l =>
    have hshort : Clean l.short :=
      ((hfile l rfl).append (by decide)).append (clean_toString l.line)
    refine .cons ?_ ?_
    · exact literal "  " |>.append hpq.blue |>.append (literal "-->") |>.append hpq.reset
        |>.append (literal " ") |>.append hpq.cyan |>.append (.refl hshort) |>.append hpq.reset
    · cases hsource : sourceLine? files l with
      | none => exact .nil
      | some line =>
        cases hempty : line.isEmpty with
        | true => simp [hempty]
        | false => simpa [hempty] using snippet_decorated hpq l (hline l rfl line hsource)

/-- Lines of clean text under an indentation are the same in all palettes. -/
theorem indented_decorated {indent : String} (hindent : Clean indent) {lines : List String}
    (h : ∀ line ∈ lines, Clean line) :
    List.Forall₂ Decorated (lines.map (indent ++ ·)) (lines.map (indent ++ ·)) := by
  refine List.forall₂_same.mpr fun line hline => ?_
  obtain ⟨text, htext, rfl⟩ := List.mem_map.mp hline
  exact .refl (hindent.append (h text htext))

theorem noteLines_decorated (hpq : p.Decorated q) {note : String} (h : Clean note) :
    List.Forall₂ Decorated (noteLines p note) (noteLines q note) := by
  have hlines := h.splitLines
  unfold noteLines
  generalize splitLines note = lines at hlines ⊢
  cases lines with
  | nil => exact .nil
  | cons first rest =>
    rw [List.forall_mem_cons] at hlines
    refine .cons ?_ (indented_decorated (by decide) hlines.2)
    exact literal "   " |>.append hpq.blue |>.append (literal "=") |>.append hpq.reset
      |>.append (literal " ") |>.append hpq.bold |>.append hpq.blue |>.append (literal "note")
      |>.append hpq.reset |>.append (literal ": ") |>.append (.refl hlines.1)

theorem helpLines_decorated (hpq : p.Decorated q) {help : Option String}
    (h : ∀ text ∈ help, Clean text) :
    List.Forall₂ Decorated (helpLines p help) (helpLines q help) := by
  cases help with
  | none => exact .nil
  | some text =>
    unfold helpLines
    dsimp only
    split
    · exact .nil
    · refine .cons (literal "")
        (.cons ?_ (indented_decorated (by decide) (h text rfl).splitLines))
      exact literal "   " |>.append hpq.blue |>.append (literal "=") |>.append hpq.reset
        |>.append (literal " ") |>.append hpq.bold |>.append hpq.green |>.append (literal "help")
        |>.append hpq.reset |>.append (literal ":")

theorem headerText_decorated (hpq : p.Decorated q) {h : Header} (hh : CleanHeader files h) :
    Decorated (headerText p files h) (headerText q files h) := by
  have hnotes : List.Forall₂ Decorated (h.notes.flatMap (noteLines p))
      (h.notes.flatMap (noteLines q)) := by
    rw [List.flatMap_def, List.flatMap_def]
    refine List.rel_flatten ?_
    rw [List.forall₂_map_left_iff, List.forall₂_map_right_iff]
    exact List.forall₂_same.mpr fun note hnote => noteLines_decorated hpq (hh.notes note hnote)
  refine Decorated.intercalate (by decide) (.cons (literal "") (.cons ?_ ?_))
  · exact hpq.bold.append hpq.red |>.append (literal "error")
      |>.append (.refl (clean_codeText h.code))
      |>.append (literal ":") |>.append hpq.reset |>.append (literal " ")
      |>.append (.refl hh.message)
  · exact List.rel_append (List.rel_append (locationLines_decorated hpq hh.file hh.source) hnotes)
      (helpLines_decorated hpq hh.help)

theorem renderAll_eq_map (ds : List Diagnostic) : renderAll p files ds = ds.map (render p files) := by
  induction ds with
  | nil => rfl
  | cons d rest ih => rw [renderAll, ih, List.map_cons]

/-- An error reads the same in both palettes but for colour sequences in the second: line by line if
it is a single one, error by error if it is a report. -/
theorem render_decorated (hpq : p.Decorated q) {d : Diagnostic} (h : Shown files d) :
    Decorated (render p files d) (render q files d) := by
  induction h with
  | single hh =>
    rw [render, render]
    exact headerText_decorated hpq hh
  | @multiple _ phase errors hphase _ ih =>
    have herrors : List.Forall₂ Decorated (renderAll p files errors) (renderAll q files errors) := by
      rw [renderAll_eq_map, renderAll_eq_map, List.forall₂_map_left_iff, List.forall₂_map_right_iff]
      exact List.forall₂_same.mpr ih
    have hcount := Decorated.refl (clean_toString_nat errors.length)
    rw [render, render]
    refine Decorated.intercalate (by decide) (List.rel_append herrors (.cons ?_ .nil))
    exact literal "\n" |>.append hpq.bold |>.append hpq.red |>.append (literal "error")
      |>.append hpq.reset |>.append (literal ": aborting ") |>.append (.refl hphase)
      |>.append (literal " due to ") |>.append hcount |>.append (literal " previous errors")

end

/-- Colours are decoration: a coloured text without its colour sequences is the plain one, which is
what an error is as a text, and holds no escape. -/
theorem decolored_render {files : Files} {d : Diagnostic} (h : Shown files d) :
    decolored (render .colored files d).toList = (render .plain files d).toList ∧
      escape ∉ (render .plain files d).toList ∧ d.text files = render .plain files d := by
  have hd := render_decorated Palette.plain_colored h
  exact ⟨Decorates.decolored_eq hd, Decorates.escape_not_mem hd, rfl⟩

/-- A declaration with two mistakes, one of which has a place in a file. -/
def misdeclared : Diagnostic :=
  .multiple { message := abortingMessage 2 } "workflow definition"
    [.noName, .single .definition
      { message := "duplicate state id 'ship'"
        code := some .duplicateState
        notes := ["workflow type: 'Order'\ndeclared twice"]
        help := some "each state id must be unique\nwithin a workflow type"
        location := some ⟨"orders.txt", 2⟩ }]

def orders : Files := [("orders.txt", "order\n  ship ship\n")]

theorem shown_misdeclared : Shown orders misdeclared := by
  refine .multiple (by decide) ?_
  rw [List.forall_mem_cons, List.forall_mem_singleton]
  constructor
  · exact .single ⟨by decide, by decide, by decide, by decide, by decide +kernel⟩
  · exact .single ⟨by decide, by decide, by decide, by decide, by decide +kernel⟩

theorem decolored_render_misdeclared : Shown orders misdeclared ∧
    decolored (render .colored orders misdeclared).toList =
      (render .plain orders misdeclared).toList :=
  ⟨shown_misdeclared, (decolored_render shown_misdeclared).1⟩

end WorkflowClient.Diagnostic
