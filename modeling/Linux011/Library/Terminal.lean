import Mathlib.Tactic.Common

/-! A plain character terminal: a grid of cells with a cursor. A cell put in the
last column leaves the cursor behind it, and the line is only wrapped when the
next cell comes. A line feed in the bottom row drops the first row and appends a
blank one. -/

/-- The cells of a screen and the place of the cursor. -/
structure Terminal (α : Type) where
  grid : Nat → Nat → α
  x : Nat
  y : Nat

namespace Terminal

/-- What a character makes a terminal do. -/
inductive Action (α : Type) where
  | put (cell : α)
  | lineFeed
  | carriageReturn
  | backspace
  | rubout
  deriving DecidableEq, Repr

section Steps

variable {α : Type} (lines columns : Nat) (blank : α) (t : Terminal α)

/-- Down one row; from the last one the rows move up, and a blank one comes in. -/
def lineFeed : Terminal α :=
  if t.y + 1 < lines then { t with y := t.y + 1 }
  else { t with grid := fun r c => if r + 1 < lines then t.grid (r + 1) c else blank }

/-- `cell` under the cursor. -/
def setCell (cell : α) : Terminal α :=
  { t with grid := fun r c => if r = t.y ∧ c = t.x then cell else t.grid r c }

/-- The wrap that a full line has pending. -/
def wrap : Terminal α :=
  if columns ≤ t.x then lineFeed lines blank { t with x := 0 } else t

/-- A cell at the cursor, which moves on. -/
def put (cell : α) : Terminal α :=
  let t := t.wrap lines columns blank
  { t.setCell cell with x := t.x + 1 }

def left : Terminal α := { t with x := t.x - 1 }

/-- To the next of the stops, which are `stops` columns apart; one past the right edge is taken on the
next line. -/
def tab (stops : Nat) : Terminal α :=
  let x := t.x + (stops - t.x % stops)
  if columns < x then lineFeed lines blank { t with x := x - columns } else { t with x := x }

/-- The cell to the left is blanked, and the cursor goes there. -/
def rubout : Terminal α := if t.x = 0 then t else t.left.setCell blank

def step (action : Action α) : Terminal α :=
  match action with
  | .put cell => t.put lines columns blank cell
  | .lineFeed => t.lineFeed lines blank
  | .carriageReturn => { t with x := 0 }
  | .backspace => t.left
  | .rubout => t.rubout blank

/-- The actions, one after another. -/
def run (actions : List (Action α)) : Terminal α :=
  actions.foldl (step lines columns blank) t

theorem run_append (actions actions' : List (Action α)) :
    t.run lines columns blank (actions ++ actions') =
      (t.run lines columns blank actions).run lines columns blank actions' :=
  List.foldl_append

end Steps

end Terminal
