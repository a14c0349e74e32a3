/-!
# The history of a console

The latest lines that a console has shown for its rolls, the latest first, and never more than a
number fixed in advance.  `History.push` adds a line and forgets the oldest where there is no room
for it.

Room for all of them is set aside at the start, 24 bytes for each line besides its text.  Whether it
can be is a question to a `Memory`, of which nothing is assumed but that it never refuses a block
without bytes.
-/

set_option autoImplicit false

namespace Dicebag

/-- The latest lines, the latest first. -/
structure History where
  /-- The greatest number of lines. -/
  cap : Nat
  /-- The lines. -/
  entries : List String
  /-- There are no more lines than there may be. -/
  length_le : entries.length ≤ cap := by simp

namespace History

/-- A history without lines. -/
def empty (cap : Nat) : History := ⟨cap, [], by simp⟩

/-- Adds a line and forgets what is too much. -/
def push (h : History) (entry : String) : History :=
  ⟨h.cap, (entry :: h.entries).take h.cap, List.length_take_le _ _⟩

/-- A number in at least three places. -/
def numbered (n : Nat) : String :=
  let digits := toString n
  String.ofList (List.replicate (3 - digits.length) ' ') ++ digits

/-- The listing: each line with its number, counted from one. -/
def listing (h : History) : List String :=
  h.entries.zipIdx.map fun (entry, i) => numbered (i + 1) ++ ". " ++ entry

end History

/-! ## Room for the lines -/

/-- A memory, in which blocks can be set aside.  It may refuse to, and what is seen of a program that
it refuses a block is some `ρ`: that is for the memory to say. -/
structure Memory (ρ : Type) where
  /-- Sets aside a block of so many bytes, or refuses to. -/
  setAside : Nat → Except ρ Unit
  /-- A block without bytes takes no memory. -/
  setAside_zero : setAside 0 = .ok ()

/-- A memory of so many bytes, all of them free.  It refuses every larger block, whose size it
reports. -/
def Memory.ofSize (size : Nat) : Memory Nat where
  setAside bytes := if bytes ≤ size then .ok () else .error bytes
  setAside_zero := if_pos (Nat.zero_le size)

/-- The bytes that are set aside for one line of a history, besides its text. -/
def History.bytesPerEntry : Nat := 24

/-- Sets aside the room for a history of so many lines, or refuses to. -/
def Memory.roomFor {ρ : Type} (memory : Memory ρ) (cap : Nat) : Except ρ Unit :=
  memory.setAside (History.bytesPerEntry * cap)

end Dicebag
