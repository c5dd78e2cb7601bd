/-!
Letter case of ASCII letters only: every other character, the Kelvin sign included, is left as it is.
-/
namespace AgentDesk.Text

/-- Maps `A`–`Z` to `a`–`z` and nothing else. -/
def lowerChar (c : Char) : Char :=
  if 'A' ≤ c ∧ c ≤ 'Z' then Char.ofNat (c.toNat + 32) else c

def lower (s : String) : String := String.ofList (s.toList.map lowerChar)

/-- Equality of two texts up to the case of ASCII letters. -/
def sameLetters (a b : String) : Bool := lower a == lower b

@[simp] theorem toList_lower (s : String) : (lower s).toList = s.toList.map lowerChar := by
  simp [lower]

theorem sameLetters_iff (a b : String) :
    sameLetters a b = true ↔ a.toList.map lowerChar = b.toList.map lowerChar := by
  unfold sameLetters
  rw [beq_iff_eq]
  constructor
  · intro h; simpa using congrArg String.toList h
  · intro h; simp [lower, h]

end AgentDesk.Text
