import Dicebag.Text.Quoted

/-!
# Places in a text

Positions count UTF-8 bytes from the start of the text.  A `Span` is a stretch between two such
positions, and an `Excerpt` is a span together with the text found there, which is what an error
needs to show where it arose.

`Excerpt.of` cuts the text out.  A span that is reversed, leaves the text, or starts or ends inside
a character covers nothing, and its excerpt is empty.
-/

set_option autoImplicit false

namespace Dicebag
namespace Text

/-- The number of UTF-8 bytes of some characters. -/
def byteLength : List Char → Nat
  | [] => 0
  | c :: cs => c.utf8Size + byteLength cs

/-- Cuts off the characters that fill the first `n` bytes: those characters and the rest.  There is
no answer when the cut falls inside a character or after the end. -/
def splitBytes? (n : Nat) (cs : List Char) : Option (List Char × List Char) :=
  match cs with
  | [] => if n = 0 then some ([], []) else none
  | c :: rest =>
    if n = 0 then some ([], cs)
    else if n < c.utf8Size then none
    else (splitBytes? (n - c.utf8Size) rest).map fun (front, back) => (c :: front, back)

/-- The characters between two byte positions, where both lie between characters. -/
def slice? (start stop : Nat) (cs : List Char) : Option (List Char) :=
  if start ≤ stop then do
    let (_, back) ← splitBytes? start cs
    let (front, _) ← splitBytes? (stop - start) back
    pure front
  else none

/-! ## Cutting by bytes -/

theorem byteLength_append (cs ds : List Char) :
    byteLength (cs ++ ds) = byteLength cs + byteLength ds := by
  induction cs with
  | nil => simp [byteLength]
  | cons c cs ih => simp [byteLength, ih, Nat.add_assoc]

theorem byteLength_eq_zero_iff {cs : List Char} : byteLength cs = 0 ↔ cs = [] := by
  cases cs with
  | nil => simp [byteLength]
  | cons c cs =>
    have := Char.utf8Size_pos c
    simp only [byteLength, reduceCtorEq, iff_false]
    omega

theorem utf8ByteSize_eq (text : String) : text.utf8ByteSize = byteLength text.toList := by
  generalize hcs : text.toList = cs
  obtain rfl : text = String.ofList cs := by rw [← hcs, String.ofList_toList]
  clear hcs
  induction cs with
  | nil => rfl
  | cons c cs ih =>
    rw [String.ofList_cons, String.utf8ByteSize_append, ih, byteLength,
      String.utf8ByteSize_singleton]

/-- **A cut by bytes is a cut between characters**, the front having as many bytes as was asked. -/
theorem splitBytes?_eq_some_iff {n : Nat} {cs front back : List Char} :
    splitBytes? n cs = some (front, back) ↔ front ++ back = cs ∧ byteLength front = n := by
  induction cs generalizing n front with
  | nil =>
    rw [splitBytes?]
    split
    · next h =>
      subst h
      simp only [Option.some.injEq, Prod.mk.injEq, List.append_eq_nil_iff]
      constructor
      · rintro ⟨rfl, rfl⟩; simp [byteLength]
      · rintro ⟨⟨rfl, rfl⟩, _⟩; simp
    · next h =>
      simp only [reduceCtorEq, List.append_eq_nil_iff, false_iff]
      rintro ⟨⟨rfl, rfl⟩, hn⟩
      exact h hn.symm
  | cons c cs ih =>
    have hc := Char.utf8Size_pos c
    rw [splitBytes?]
    split
    · next h =>
      subst h
      simp only [Option.some.injEq, Prod.mk.injEq, byteLength_eq_zero_iff]
      constructor
      · rintro ⟨rfl, rfl⟩; simp
      · rintro ⟨happ, rfl⟩; exact ⟨rfl, happ.symm⟩
    · next h =>
      cases front with
      | nil =>
        have hn : ¬byteLength [] = n := fun e => h e.symm
        split
        · simp [hn]
        · simp [hn]
      | cons d ds =>
        split
        · next hlt =>
          simp only [reduceCtorEq, false_iff]
          rintro ⟨happ, hlen⟩
          simp only [List.cons_append, List.cons.injEq] at happ
          obtain ⟨rfl, _⟩ := happ
          simp only [byteLength] at hlen
          omega
        · next hge =>
          rw [Option.map_eq_some_iff]
          constructor
          · rintro ⟨⟨a, b⟩, hab, heq⟩
            simp only [Prod.mk.injEq, List.cons.injEq] at heq
            obtain ⟨⟨rfl, rfl⟩, rfl⟩ := heq
            obtain ⟨rfl, hlen⟩ := ih.1 hab
            exact ⟨rfl, by simp only [byteLength]; omega⟩
          · rintro ⟨happ, hlen⟩
            simp only [List.cons_append, List.cons.injEq] at happ
            obtain ⟨rfl, happ⟩ := happ
            simp only [byteLength] at hlen
            exact ⟨(ds, back), ih.2 ⟨happ, by omega⟩, rfl⟩

end Text

/-- A stretch of text, given by its first byte and the byte after its last. -/
structure Span where
  /-- The position of the first byte. -/
  start : Nat
  /-- The position after the last byte. -/
  stop : Nat
deriving DecidableEq, Repr

namespace Span

/-- The number of bytes in a span; a reversed one has none. -/
def length (s : Span) : Nat := s.stop - s.start

/-- The span as two positions with two dots between. -/
def text (s : Span) : String := toString s.start ++ ".." ++ toString s.stop

end Span

/-- A span of a text and what the text says there. -/
structure Excerpt where
  /-- Where the excerpt was taken. -/
  span : Span
  /-- What was found there. -/
  slice : String
deriving DecidableEq, Repr

namespace Excerpt

/-- The excerpt of `source` at `span`, empty if the span covers no whole characters of it. -/
def of (span : Span) (source : String) : Excerpt :=
  ⟨span, String.ofList ((Text.slice? span.start span.stop source.toList).getD [])⟩

/-- The empty excerpt at position `n`. -/
def emptyAt (n : Nat) : Excerpt := ⟨⟨n, n⟩, ""⟩

/-- What was found, quoted, or `end of input` where nothing was. -/
def found (e : Excerpt) : String := if e.slice = "" then "end of input" else Text.quote e.slice

end Excerpt
end Dicebag
