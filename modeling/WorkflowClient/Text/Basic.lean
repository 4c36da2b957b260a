/-! Texts: blank characters and the trimming of texts at them, and the parts of a text. -/
namespace WorkflowClient.Text

/-- The characters with the Unicode property `White_Space`. -/
def isWhiteSpace (c : Char) : Bool :=
  let n := c.toNat
  (9 ≤ n && n ≤ 13) || n = 0x20 || n = 0x85 || n = 0xA0 || n = 0x1680 ||
    (0x2000 ≤ n && n ≤ 0x200A) || n = 0x2028 || n = 0x2029 || n = 0x202F || n = 0x205F ||
    n = 0x3000

/-- White space and the four information separators, which are white space by their
bidirectional class only. -/
def isBlank (c : Char) : Bool :=
  isWhiteSpace c || (0x1C ≤ c.toNat && c.toNat ≤ 0x1F)

/-- The text without the characters of `p` at either end. -/
def trim (p : Char → Bool) (cs : List Char) : List Char :=
  ((cs.dropWhile p).reverse.dropWhile p).reverse

theorem isBlank_of_isWhiteSpace {c : Char} (h : isWhiteSpace c = true) : isBlank c = true := by
  simp [isBlank, h]

/-- ASCII letters in lower case; no other letter has an ASCII word as its lower case that
the words compared with here contain. -/
def lower (s : String) : String := String.ofList (s.toList.map Char.toLower)

/-- The parts of a text between the occurrences of `separator`; never empty. -/
def splitOn (separator : Char) : List Char → List (List Char)
  | [] => [[]]
  | c :: rest =>
    if c = separator then [] :: splitOn separator rest
    else match splitOn separator rest with
      | [] => [[c]]
      | part :: parts => (c :: part) :: parts

theorem splitOn_ne_nil (separator : Char) (cs : List Char) : splitOn separator cs ≠ [] := by
  cases cs with
  | nil => simp [splitOn]
  | cons c rest =>
    simp only [splitOn]
    split
    · simp
    · split <;> simp

/-- `s` followed by blanks up to `width` characters. -/
def padRight (width : Nat) (s : String) : String :=
  s ++ String.ofList (List.replicate (width - s.length) ' ')

/-! Source files as numbered lines. -/

/-- The lines of a text, ended by a line feed, a carriage return or both in that order. The last
line may lack its end; `current` is the line so far, reversed. -/
def linesFrom (current : List Char) : List Char → List (List Char)
  | [] => if current.isEmpty then [] else [current.reverse]
  | '\r' :: '\n' :: rest => current.reverse :: linesFrom [] rest
  | c :: rest =>
    if c = '\n' || c = '\r' then current.reverse :: linesFrom [] rest
    else linesFrom (c :: current) rest

/-- The lines of a file; a byte order mark at its start is no part of them. -/
def lines (text : String) : List String :=
  let cs := match text.toList with
    | '\uFEFF' :: rest => rest
    | cs => cs
  (linesFrom [] cs).map String.ofList

/-- Line `number`, counted from one. -/
def line? (number : Int) (text : String) : Option String :=
  if number ≤ 0 then none else (lines text)[(number - 1).toNat]?

/-! Names that occur more than once. -/

/-- The names that occur more than once, each once, in the order of their first occurrence. -/
def repeated (names : List String) : List String :=
  names.eraseDups.filter fun n => 1 < names.count n

theorem mem_repeated {names : List String} {n : String} :
    n ∈ repeated names ↔ 1 < names.count n := by
  simp only [repeated, List.mem_filter, List.mem_eraseDups, decide_eq_true_eq,
    and_iff_right_iff_imp]
  intro h
  exact List.count_pos_iff.mp (Nat.lt_of_succ_lt h)

theorem repeated_eq_nil_iff {names : List String} : repeated names = [] ↔ names.Nodup := by
  rw [List.eq_nil_iff_forall_not_mem, List.nodup_iff_count]
  exact forall_congr' fun n => by rw [mem_repeated]; omega

end WorkflowClient.Text
