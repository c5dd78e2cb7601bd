/-!
Blank characters: the 25 characters with the Unicode property White_Space, and the trimming and
blankness of texts that go by them. `isBlankText_iff_trim` ties the two together.
-/
namespace AgentDesk.Text

/-- First and last code points of the runs of White_Space characters. -/
def blankRanges : List (Nat × Nat) :=
  [(0x9, 0xD), (0x20, 0x20), (0x85, 0x85), (0xA0, 0xA0), (0x1680, 0x1680), (0x2000, 0x200A),
   (0x2028, 0x2029), (0x202F, 0x202F), (0x205F, 0x205F), (0x3000, 0x3000)]

def isBlank (c : Char) : Bool :=
  blankRanges.any fun r => r.1 ≤ c.toNat && c.toNat ≤ r.2

/-- What is left after the blanks at both ends are gone. -/
def trimChars (cs : List Char) : List Char :=
  ((cs.dropWhile isBlank).reverse.dropWhile isBlank).reverse

def trim (s : String) : String := String.ofList (trimChars s.toList)

/-- A text with no character that would show. -/
def isBlankText (s : String) : Bool := s.toList.all isBlank

theorem dropWhile_isBlank_eq_nil_iff (cs : List Char) :
    cs.dropWhile isBlank = [] ↔ ∀ c ∈ cs, isBlank c = true := by
  induction cs with
  | nil => simp
  | cons c r ih => by_cases h : isBlank c = true <;> simp [h, ih]

theorem trimChars_eq_nil_iff (cs : List Char) : trimChars cs = [] ↔ ∀ c ∈ cs, isBlank c = true := by
  unfold trimChars
  rw [List.reverse_eq_nil_iff, dropWhile_isBlank_eq_nil_iff]
  induction cs with
  | nil => simp
  | cons c r ih => by_cases h : isBlank c = true <;> simp_all

/-- A text is blank exactly when trimming leaves nothing. -/
theorem isBlankText_iff_trim (s : String) : isBlankText s = true ↔ trim s = "" := by
  have h := trimChars_eq_nil_iff s.toList
  unfold isBlankText trim
  rw [List.all_eq_true, ← h]
  constructor
  · intro e; simp [e]
  · intro e
    have := congrArg String.toList e
    simpa using this

/-- A text that shows has a character that does. -/
theorem isBlankText_eq_false_iff {s : String} : isBlankText s = false ↔ ∃ c ∈ s.toList, isBlank c = false := by
  simp [isBlankText]

end AgentDesk.Text
