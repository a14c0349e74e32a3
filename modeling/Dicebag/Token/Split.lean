import Dicebag.Token

/-!
# Reading tokens

`tokens` cuts a text into tokens from left to right.  Spaces, tabs, carriage returns and line feeds
separate tokens and are dropped; everywhere else the longest lexeme of any kind is taken, and where
there is none a single character becomes an unknown token.  So `2d6` is one dice token, and `2d`
is the integer `2` followed by an unknown `d`.

* `Kind.split?` takes the longest lexeme of one kind off the front of a text.
* `firstToken` chooses among the kinds.  A dice lexeme is longer than the integer it starts with,
  and no other two kinds share a first character, so trying dice first takes the longest.
* `firstToken_append` says that nothing is lost, and `firstToken_ne_nil` that something is taken,
  which is why `tokensFrom` ends.
-/

set_option autoImplicit false

namespace Dicebag

/-- The characters that may stand between tokens. -/
def isSeparator (c : Char) : Bool := c == ' ' || c == '\t' || c == '\r' || c == '\n'

/-- Takes a digit run off the front of a text. -/
def splitDigits? (cs : List Char) : Option (List Char × List Char) :=
  match cs.takeWhile Char.isDigit with
  | [] => none
  | ds => some (ds, cs.dropWhile Char.isDigit)

/-- Takes a dice lexeme off the front of a text. -/
def splitDice? (cs : List Char) : Option (List Char × List Char) :=
  match cs.dropWhile Char.isDigit with
  | [] => none
  | letter :: after =>
    if isDieLetter letter then
      (splitDigits? after).map fun (sides, rest) =>
        (cs.takeWhile Char.isDigit ++ letter :: sides, rest)
    else none

/-- Takes a keep suffix of the given mode off the front of a text. -/
def splitKeep? (mode : KeepMode) (cs : List Char) : Option (List Char × List Char) :=
  match cs with
  | k :: m :: after =>
    if isKeepLetter k && keepLetterMode? m == some mode then
      (splitDigits? after).map fun (amount, rest) => (k :: m :: amount, rest)
    else none
  | _ => none

/-- Takes the longest lexeme of a kind off the front of a text. -/
def Kind.split? : Kind → List Char → Option (List Char × List Char)
  | .integer, cs => splitDigits? cs
  | .dice, cs => splitDice? cs
  | .keepHighest, cs => splitKeep? .highest cs
  | .keepLowest, cs => splitKeep? .lowest cs
  | .plus, '+' :: rest => some (['+'], rest)
  | .minus, '-' :: rest => some (['-'], rest)
  | _, _ => none

/-- The kinds with lexemes of a shape of their own, in the order in which they are tried. -/
def Kind.known : List Kind := [dice, integer, keepHighest, keepLowest, plus, minus]

/-- The first token of a text that starts with `c`, which is no separator: its kind, its lexeme and
the text after it. -/
def firstToken (c : Char) (after : List Char) : Kind × List Char × List Char :=
  (Kind.known.findSome? fun kind => (kind.split? (c :: after)).map (kind, ·)).getD
    (.unknown, [c], after)

/-! ## Nothing is lost -/

theorem splitDigits?_append {cs ds rest : List Char} (h : splitDigits? cs = some (ds, rest)) :
    ds ++ rest = cs ∧ ds ≠ [] := by
  rw [splitDigits?] at h
  split at h
  · simp at h
  · next hne =>
    simp only [Option.some.injEq, Prod.mk.injEq] at h
    obtain ⟨rfl, rfl⟩ := h
    exact ⟨List.takeWhile_append_dropWhile, hne⟩

theorem splitDice?_append {cs ds rest : List Char} (h : splitDice? cs = some (ds, rest)) :
    ds ++ rest = cs ∧ ds ≠ [] := by
  rw [splitDice?] at h
  split at h
  · simp at h
  · next letter after hdrop =>
    split at h
    · obtain ⟨⟨sides, rest'⟩, hs, heq⟩ := Option.map_eq_some_iff.1 h
      simp only [Prod.mk.injEq] at heq
      obtain ⟨rfl, rfl⟩ := heq
      refine ⟨?_, by simp⟩
      rw [List.append_assoc, List.cons_append, (splitDigits?_append hs).1, ← hdrop,
        List.takeWhile_append_dropWhile]
    · simp at h

theorem splitKeep?_append {mode : KeepMode} {cs ds rest : List Char}
    (h : splitKeep? mode cs = some (ds, rest)) : ds ++ rest = cs ∧ ds ≠ [] := by
  unfold splitKeep? at h
  split at h
  · split at h
    · obtain ⟨⟨amount, rest'⟩, hs, heq⟩ := Option.map_eq_some_iff.1 h
      simp only [Prod.mk.injEq] at heq
      obtain ⟨rfl, rfl⟩ := heq
      simp [(splitDigits?_append hs).1]
    · simp at h
  · simp at h

theorem split?_append {kind : Kind} {cs lexeme rest : List Char}
    (h : kind.split? cs = some (lexeme, rest)) : lexeme ++ rest = cs ∧ lexeme ≠ [] := by
  unfold Kind.split? at h
  split at h
  · exact splitDigits?_append h
  · exact splitDice?_append h
  · exact splitKeep?_append h
  · exact splitKeep?_append h
  · simp only [Option.some.injEq, Prod.mk.injEq] at h
    obtain ⟨rfl, rfl⟩ := h
    simp
  · simp only [Option.some.injEq, Prod.mk.injEq] at h
    obtain ⟨rfl, rfl⟩ := h
    simp
  · simp at h

theorem firstToken_append (c : Char) (after : List Char) :
    (firstToken c after).2.1 ++ (firstToken c after).2.2 = c :: after ∧
      (firstToken c after).2.1 ≠ [] := by
  rw [firstToken]
  cases h : Kind.known.findSome? fun kind => (kind.split? (c :: after)).map (kind, ·) with
  | none => simp
  | some found =>
    obtain ⟨kind, _, hk⟩ := List.exists_of_findSome?_eq_some h
    obtain ⟨⟨lexeme, rest⟩, hs, rfl⟩ := Option.map_eq_some_iff.1 hk
    exact split?_append hs

/-- What follows the first token is shorter than what it was taken from. -/
theorem firstToken_length (c : Char) (after : List Char) :
    (firstToken c after).2.2.length < (c :: after).length := by
  obtain ⟨happ, hne⟩ := firstToken_append c after
  have := List.length_pos_iff.2 hne
  rw [← happ, List.length_append]
  omega

/-! ## All tokens -/

/-- The tokens of a text whose first byte is at position `start`. -/
def tokensFrom (start : Nat) (cs : List Char) : List Token :=
  match cs with
  | [] => []
  | c :: after =>
    if isSeparator c then tokensFrom (start + c.utf8Size) after
    else
      let first := firstToken c after
      ⟨first.1, first.2.1, start⟩ ::
        tokensFrom (start + Text.byteLength first.2.1) first.2.2
termination_by cs.length
decreasing_by
  · simp
  · exact firstToken_length c after

/-- The tokens of a text. -/
def tokens (text : String) : List Token := tokensFrom 0 text.toList

end Dicebag
