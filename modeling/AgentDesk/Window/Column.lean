/-!
A column of rows that may be too long for its opening. Lengths are in points. A column has one of its ends at an
end of the opening, and a row is placed by the distance at which it starts from there; what starts beyond the
opening and its margin is not painted. Main statement: placing keeps the rows and their order.
-/
namespace AgentDesk.Window

/-- The height of a line of text. -/
def lineHeight : Nat := 14

/-- The least height of a row. -/
def rowHeight : Nat := 18

/-- The space between two rows. -/
def rowGap : Nat := 3

def textHeight (s : String) : Nat := lineHeight * (s.toList.count '\n' + 1)

/-- The rows, each with the distance at which it starts, the first of them at `start`. -/
def place {α : Type} (height : α → Nat) : Nat → List α → List (α × Nat)
  | _, [] => []
  | start, a :: rest => (a, start) :: place height (start + height a + rowGap) rest

@[simp] theorem map_fst_place {α : Type} (height : α → Nat) (start : Nat) (rows : List α) :
    (place height start rows).map Prod.fst = rows := by
  induction rows generalizing start with
  | nil => rfl
  | cons a rest ih => simp [place, ih]

@[simp] theorem length_place {α : Type} (height : α → Nat) (start : Nat) (rows : List α) :
    (place height start rows).length = rows.length := by
  induction rows generalizing start with
  | nil => rfl
  | cons a rest ih => simp [place, ih]

/-- What a column is seen through. -/
structure Opening where
  length : Nat
  margin : Nat := 3
  deriving DecidableEq, Repr

/-- Whether what starts at a distance can be seen. -/
def Opening.reaches (o : Opening) (start : Nat) : Bool := start ≤ o.length + o.margin

end AgentDesk.Window
