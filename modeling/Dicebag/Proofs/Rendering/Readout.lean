import Dicebag.Rendering
import Dicebag.Proofs.Roll.Natural

/-!
# Reading a roll off its line

`Readout.ofText` reads a line in Markdown without knowing what was rolled: the groups, their dice and
which of them are struck out, the modifier, the total, and whether it was a critical or a fumble.
`markdown_reads_back` says that this is what the roll was, so that no two rolls that differ in any of
it are shown on the same line, and that the numbers on a line add up.

* A line is a row of words with a blank between any two.  The words that are a sign on their own cut
  it into terms, and each term opens with a group or is the modifier.  The one sign that is no word
  of its own stands before a subtracted group at the very start.
* `Spells` says which words are read off some characters, whatever comes behind them, and rests on
  one equation, `words_append`, for a word and the blank after it.  `terms_line` says that the terms
  of a row of words are the ones that it was put together from.
* A face, a modifier and a total are numerals, with marks around their digits (`IsNumeral`).  A
  group is read by `parse`, as the whole text that it is.
-/

set_option autoImplicit false

namespace Dicebag

/-! ## What a line says -/

/-- A group and its dice, as a line shows them. -/
structure Readout.Pool where
  /-- The group. -/
  group : Group
  /-- The faces of the dice in order, and whether they are struck out. -/
  dice : List (Nat × Bool)
  /-- The mode that the group was rolled in. -/
  mode : Mode
deriving DecidableEq, Repr

/-- What a line says. -/
structure Readout where
  /-- The groups with their dice, in order. -/
  pools : List Readout.Pool
  /-- The modifier, zero if there is none. -/
  modifier : Int
  /-- The total. -/
  total : Int
  /-- A critical is named. -/
  critical : Bool
  /-- A fumble is named. -/
  fumble : Bool
deriving DecidableEq, Repr

namespace Readout

/-! ## Reading -/

/-- The words of a line. -/
def words (cs : List Char) : List (List Char) := cs.splitOn ' '

/-- The number that a word has digits for. -/
def number (word : List Char) : Nat := Digits.value (word.filter Char.isDigit)

/-- The same, less than zero if there is a minus in the word. -/
def integer (word : List Char) : Int :=
  if '-' ∈ word then -(number word : Int) else number word

/-- The face that a word shows, and whether it is struck out. -/
def die (word : List Char) : Nat × Bool := (number word, decide ('~' ∈ word))

/-- The mode that a word names. -/
def mode? (word : List Char) : Option Mode := Mode.ofLabel? (String.ofList (word.filter Char.isAlpha))

/-- The sign that a word is. -/
def sign? : List Char → Option Sign
  | ['+'] => some .plus
  | ['-'] => some .minus
  | _ => none

/-- Some words and the sign before them. -/
structure Term where
  /-- The sign. -/
  sign : Sign
  /-- The words. -/
  words : List (List Char)

/-- Cuts a row of words at the signs.  The words before the first one have the sign `sign`. -/
def terms (sign : Sign) (ws : List (List Char)) : List Term :=
  List.zipWith Term.mk (sign :: ws.filterMap sign?) (ws.splitOnP fun w => (sign? w).isSome)

/-- The group and the dice of a term, if it opens with a group.  What has digits after that is a
die. -/
def Term.pool? (t : Term) : Option Pool :=
  match t.words with
  | [] => none
  | opening :: others =>
    if 'd' ∈ opening then
      match parse (String.ofList opening) with
      | .error _ => none
      | .ok w => some
        { group := { w.first with sign := t.sign }
          dice := (others.filter fun word => word.any Char.isDigit).map die
          mode := (others.findSome? mode?).getD .normal }
    else none

/-- The number that a term stands for, if it is not a group. -/
def Term.constant (t : Term) : Int :=
  if t.pool?.isSome then 0 else t.sign.apply (number t.words.flatten)

/-- The equals sign as a word. -/
def equals : List Char := ['=']

/-- Reads a line whose first group has the sign `sign`, which is not among the words. -/
def ofWords (sign : Sign) (ws : List (List Char)) : Readout :=
  let ts := terms sign (ws.takeWhile (· ≠ equals))
  let result := (ws.dropWhile (· ≠ equals)).tail
  { pools := ts.filterMap Term.pool?
    modifier := (ts.map Term.constant).sum
    total := (result.head?.map integer).getD 0
    critical := decide ("**Critical!**".toList ∈ result)
    fumble := decide ("**Fumble!**".toList ∈ result) }

/-- Reads a line. -/
def ofText (line : String) : Readout :=
  match line.toList with
  | '-' :: cs => ofWords .minus (words cs)
  | cs => ofWords .plus (words cs)

/-- The sum of the dice that are not struck out. -/
def faceSum (dice : List (Nat × Bool)) : Nat := ((dice.filter fun d => !d.2).map Prod.fst).sum

/-- The sum of the dice that are not struck out, with the signs of their groups. -/
def subtotal (s : Readout) : Int :=
  (s.pools.map fun p => p.group.sign.apply (faceSum p.dice : Nat)).sum

/-- What is read is what was rolled. -/
structure Tells (s : Readout) (f : Formula) (r : Roll) : Prop where
  /-- The groups are those of the formula: their signs, the number of their dice, the sides and
  what is kept. -/
  groups : s.pools.map Pool.group = f.groups
  /-- Each group has its dice, with their faces, and those are struck out that were set aside. -/
  dice : s.pools.map Pool.dice = r.pools.map (List.map fun d => (d.value, d.discarded))
  /-- Each group has the mode that it was rolled in. -/
  modes : s.pools.map Pool.mode = (List.range f.groups.length).map r.groupMode
  /-- The modifier is the one that was applied. -/
  modifier : s.modifier = r.modifier
  /-- The total is that of the roll. -/
  total : s.total = r.total
  /-- A critical is named where there is one. -/
  critical : s.critical = r.critical
  /-- A fumble is named where there is one. -/
  fumble : s.fumble = r.fumble

/-- Two formulas and their rolls, between which a line makes no difference. -/
structure ShownAlike (f : Formula) (r : Roll) (f' : Formula) (r' : Roll) : Prop where
  /-- The groups are the same. -/
  groups : f.groups = f'.groups
  /-- Each group has the same dice, and the same of them were set aside. -/
  dice : r.pools.map (List.map fun d => (d.value, d.discarded)) =
    r'.pools.map (List.map fun d => (d.value, d.discarded))
  /-- Each group was rolled in the same mode. -/
  modes : (List.range f.groups.length).map r.groupMode =
    (List.range f'.groups.length).map r'.groupMode
  /-- The same modifier was applied. -/
  modifier : r.modifier = r'.modifier
  /-- The totals are the same. -/
  total : r.total = r'.total
  /-- Both are criticals, or neither is. -/
  critical : r.critical = r'.critical
  /-- Both are fumbles, or neither is. -/
  fumble : r.fumble = r'.fumble

/-- A line of everything that a line can have. -/
example : ofText "-4d6kh3 (**1**, ~~**1**~~, 2, **6**) + 1d20 (~~7~~, **20**) (advantage) - 3 = `8` **Critical!**" =
    ⟨[⟨⟨.minus, 4, 6, some ⟨.highest, 3⟩⟩, [(1, false), (1, true), (2, false), (6, false)], .normal⟩,
      ⟨⟨.plus, 1, 20, none⟩, [(7, true), (20, false)], .advantage⟩], -3, 8, true, false⟩ := by
  decide +kernel

/-! ## Words -/

/-- Characters that spell words, if a blank comes after them. -/
def Spells (cs : List Char) (ws : List (List Char)) : Prop :=
  ∀ rest, words (cs ++ ' ' :: rest) = ws ++ words rest

/-- A blank ends a word. -/
theorem words_append {word : List Char} (h : ' ' ∉ word) (rest : List Char) :
    words (word ++ ' ' :: rest) = word :: words rest :=
  List.splitOn_append_cons_self_of_not_mem h rest

theorem words_last {word : List Char} (h : ' ' ∉ word) : words word = [word] :=
  List.splitOn_eq_singleton h

theorem spells_word {word : List Char} (h : ' ' ∉ word) : Spells word [word] := words_append h

theorem Spells.append {cs ds : List Char} {ws us : List (List Char)} (h : Spells cs ws)
    (h' : Spells ds us) : Spells (cs ++ ' ' :: ds) (ws ++ us) := by
  intro rest
  rw [List.append_assoc, List.cons_append, h, h', List.append_assoc]

/-- There is a letter or a digit in the word. -/
def IsPlain (word : List Char) : Prop := ∃ c ∈ word, c.isAlphanum = true

theorem IsPlain.sign?_eq_none {word : List Char} (h : IsPlain word) : sign? word = none := by
  obtain ⟨c, hc, halnum⟩ := h
  unfold sign?
  split
  · rw [List.mem_singleton.1 hc] at halnum
    cases halnum
  · rw [List.mem_singleton.1 hc] at halnum
    cases halnum
  · rfl

theorem IsPlain.ne_equals {word : List Char} (h : IsPlain word) : word ≠ equals := by
  obtain ⟨c, hc, halnum⟩ := h
  rintro rfl
  rw [List.mem_singleton.1 hc] at halnum
  cases halnum

/-! ## Numerals -/

/-- A mark that can stand before or after the digits of a number. -/
def IsMark (c : Char) : Prop := c ∈ ['(', ')', ',', '*', '~', '`', '-']

/-- The word has the digits of `n` and marks around them. -/
def IsNumeral (word : List Char) (n : Nat) : Prop :=
  ∃ before after, word = before ++ (Nat.toDigits 10 n ++ after) ∧
    (∀ c ∈ before, IsMark c) ∧ ∀ c ∈ after, IsMark c

theorem not_isDigit_of_isMark {c : Char} (h : IsMark c) : c.isDigit = false := by
  have hall : ['(', ')', ',', '*', '~', '`', '-'].all (fun c => !c.isDigit) = true := by decide
  simpa using List.all_eq_true.1 hall c h

theorem not_isAlpha_of_isMark {c : Char} (h : IsMark c) : c.isAlpha = false := by
  have hall : ['(', ')', ',', '*', '~', '`', '-'].all (fun c => !c.isAlpha) = true := by decide
  simpa using List.all_eq_true.1 hall c h

theorem not_isAlpha_of_isDigit {c : Char} (h : c.isDigit = true) : c.isAlpha = false := by
  have hnine : '9'.val.toNat = 57 := rfl
  have hA : 'A'.val.toNat = 65 := rfl
  have ha : 'a'.val.toNat = 97 := rfl
  show (decide ('A'.val ≤ c.val ∧ c.val ≤ 'Z'.val) ||
    decide ('a'.val ≤ c.val) && decide (c.val ≤ 'z'.val)) = false
  simp only [Char.isDigit, Bool.and_eq_true, decide_eq_true_eq, Bool.or_eq_false_iff,
    Bool.and_eq_false_iff, decide_eq_false_iff_not, ge_iff_le, UInt32.le_iff_toNat_le] at h ⊢
  omega

theorem isDigit_of_mem_toDigits {n : Nat} {c : Char} (hc : c ∈ Nat.toDigits 10 n) :
    c.isDigit = true := (isDigits_toDigits n).2 c hc

theorem not_mem_toDigits {n : Nat} {c : Char} (h : c.isDigit = false) : c ∉ Nat.toDigits 10 n := by
  intro hc
  rw [isDigit_of_mem_toDigits hc] at h
  cases h

/-- The digits of a number are read off a word that has no others. -/
theorem number_append {before after : List Char} (hbefore : ∀ c ∈ before, c.isDigit = false)
    (n : Nat) (hafter : ∀ c ∈ after, c.isDigit = false) :
    number (before ++ (Nat.toDigits 10 n ++ after)) = n := by
  have hnone : ∀ {cs : List Char}, (∀ c ∈ cs, c.isDigit = false) → cs.filter Char.isDigit = [] :=
    fun hcs => List.filter_eq_nil_iff.2 fun c hc => by simp [hcs c hc]
  rw [number, List.filter_append, List.filter_append, hnone hbefore, hnone hafter,
    List.filter_eq_self.2 fun c => isDigit_of_mem_toDigits, List.nil_append, List.append_nil,
    value_toDigits]

namespace IsNumeral

variable {word : List Char} {n : Nat}

theorem number_eq (h : IsNumeral word n) : number word = n := by
  obtain ⟨before, after, rfl, hbefore, hafter⟩ := h
  exact number_append (fun c hc => not_isDigit_of_isMark (hbefore c hc)) n
    fun c hc => not_isDigit_of_isMark (hafter c hc)

theorem any_isDigit (h : IsNumeral word n) : word.any Char.isDigit = true := by
  obtain ⟨before, after, rfl, -, -⟩ := h
  obtain ⟨c, hc⟩ := List.exists_mem_of_ne_nil _ (isDigits_toDigits n).1
  rw [List.any_eq_true]
  exact ⟨c, by simp [hc], isDigit_of_mem_toDigits hc⟩

theorem isPlain (h : IsNumeral word n) : IsPlain word := by
  obtain ⟨c, hc, hdigit⟩ := List.any_eq_true.1 h.any_isDigit
  exact ⟨c, hc, by rw [Char.isAlphanum, hdigit, Bool.or_true]⟩

theorem isDigit_or_isMark (h : IsNumeral word n) : ∀ c ∈ word, c.isDigit = true ∨ IsMark c := by
  obtain ⟨before, after, rfl, hbefore, hafter⟩ := h
  intro c hc
  rcases List.mem_append.1 hc with hc | hc
  · exact .inr (hbefore c hc)
  · rcases List.mem_append.1 hc with hc | hc
    · exact .inl (isDigit_of_mem_toDigits hc)
    · exact .inr (hafter c hc)

theorem blank_not_mem (h : IsNumeral word n) : ' ' ∉ word := by
  intro hc
  rcases h.isDigit_or_isMark ' ' hc with h | h
  · cases h
  · simp [IsMark] at h

theorem mode?_eq_none (h : IsNumeral word n) : mode? word = none := by
  have halpha : word.filter Char.isAlpha = [] := by
    refine List.filter_eq_nil_iff.2 fun c hc => ?_
    rcases h.isDigit_or_isMark c hc with h | h
    · simp [not_isAlpha_of_isDigit h]
    · simp [not_isAlpha_of_isMark h]
  rw [mode?, halpha]
  decide

end IsNumeral

/-! ## Dice -/

/-- The marks before the face of a die; those after it are the same in reverse. -/
def dieMarks (d : Die) : List Char :=
  (if d.discarded then ['~', '~'] else []) ++ if d.isMax || d.isMin then ['*', '*'] else []

theorem toList_markdownDie (d : Die) :
    (Style.markdownDie d).toList =
      dieMarks d ++ (Nat.toDigits 10 d.value ++ (dieMarks d).reverse) := by
  rw [Style.markdownDie, dieMarks]
  cases d.isMax || d.isMin <;> cases d.discarded <;> simp

theorem isMark_of_mem_dieMarks {d : Die} {c : Char} (hc : c ∈ dieMarks d) : IsMark c := by
  rw [dieMarks] at hc
  rcases List.mem_append.1 hc with hc | hc <;> split at hc <;> simp_all [IsMark]

theorem tilde_mem_dieMarks (d : Die) : '~' ∈ dieMarks d ↔ d.discarded = true := by
  rw [dieMarks]
  cases d.discarded <;> cases d.isMax || d.isMin <;> simp

/-- Characters that divide the dice of a group from one another and from what is around them. -/
def Divides (cs : List Char) : Prop := ∀ c ∈ cs, IsMark c ∧ c ≠ '~'

theorem divides_nil : Divides [] := fun _ hc => absurd hc List.not_mem_nil

theorem divides_singleton {c : Char} (h : IsMark c ∧ c ≠ '~') : Divides [c] := by
  intro d hd
  rwa [List.mem_singleton.1 hd]

theorem divides_comma : Divides [','] := divides_singleton (by simp [IsMark])

theorem divides_open : Divides ['('] := divides_singleton (by simp [IsMark])

theorem divides_close : Divides [')'] := divides_singleton (by simp [IsMark])

/-- The word shows the die. -/
structure ShowsDie (word : List Char) (d : Die) : Prop where
  /-- It has the digits of the face. -/
  isNumeral : IsNumeral word d.value
  /-- The die is read off it. -/
  die_eq : die word = (d.value, d.discarded)

/-- A die as it is shown, and what divides it from others. -/
def dieWord (before : List Char) (d : Die) (after : List Char) : List Char :=
  before ++ ((Style.markdownDie d).toList ++ after)

/-- **A die is read off the word that shows it.** -/
theorem showsDie_dieWord {before after : List Char} (hbefore : Divides before)
    (hafter : Divides after) (d : Die) : ShowsDie (dieWord before d after) d := by
  have hnumeral : IsNumeral (dieWord before d after) d.value := by
    refine ⟨before ++ dieMarks d, (dieMarks d).reverse ++ after, ?_, fun c hc => ?_, fun c hc => ?_⟩
    · rw [dieWord, toList_markdownDie]
      simp
    · exact (List.mem_append.1 hc).elim (fun hc => (hbefore c hc).1) isMark_of_mem_dieMarks
    · exact (List.mem_append.1 hc).elim (fun hc => isMark_of_mem_dieMarks (List.mem_reverse.1 hc))
        fun hc => (hafter c hc).1
  have htilde : '~' ∈ dieWord before d after ↔ d.discarded = true := by
    have hdigits : '~' ∉ Nat.toDigits 10 d.value := not_mem_toDigits (by decide)
    have hleft : '~' ∉ before := fun hc => (hbefore _ hc).2 rfl
    have hright : '~' ∉ after := fun hc => (hafter _ hc).2 rfl
    simp [dieWord, toList_markdownDie, hdigits, hleft, hright, tilde_mem_dieMarks]
  refine ⟨hnumeral, ?_⟩
  rw [die, hnumeral.number_eq]
  simp [htilde]

/-- The words for some dice: commas after all but the last, and a bracket after that. -/
def diceWords (before : List Char) : List Die → List (List Char)
  | [] => []
  | [d] => [dieWord before d [')']]
  | d :: e :: ds => dieWord before d [','] :: diceWords [] (e :: ds)

theorem forall₂_diceWords {before : List Char} (hbefore : Divides before) (dice : List Die) :
    List.Forall₂ ShowsDie (diceWords before dice) dice := by
  induction dice generalizing before with
  | nil => exact .nil
  | cons d dice ih =>
    cases dice with
    | nil => exact .cons (showsDie_dieWord hbefore divides_close d) .nil
    | cons e dice => exact .cons (showsDie_dieWord hbefore divides_comma d) (ih divides_nil)

theorem spells_dice {before : List Char} (hbefore : Divides before) {dice : List Die}
    (hdice : dice ≠ []) :
    Spells (before ++ ((String.intercalate ", " (dice.map Style.markdownDie)).toList ++ [')']))
      (diceWords before dice) := by
  induction dice generalizing before with
  | nil => exact absurd rfl hdice
  | cons d dice ih =>
    cases dice with
    | nil =>
      rw [List.map_singleton, String.intercalate_singleton]
      exact spells_word (showsDie_dieWord hbefore divides_close d).isNumeral.blank_not_mem
    | cons e dice =>
      have hword := (showsDie_dieWord hbefore divides_comma d).isNumeral.blank_not_mem
      have hrest := (spells_word hword).append (ih divides_nil (List.cons_ne_nil e dice))
      rw [List.map_cons, List.map_cons, String.intercalate_cons_cons, ← List.map_cons, diceWords]
      simpa [dieWord, List.append_assoc] using hrest

theorem map_die_of_shows {ws : List (List Char)} {dice : List Die}
    (h : List.Forall₂ ShowsDie ws dice) :
    (ws.filter fun word => word.any Char.isDigit).map die =
      dice.map fun d => (d.value, d.discarded) := by
  induction h with
  | nil => rfl
  | cons hd _ ih =>
    rw [List.filter_cons, if_pos hd.isNumeral.any_isDigit, List.map_cons, List.map_cons, hd.die_eq,
      ih]

theorem mode?_of_shows {ws : List (List Char)} {dice : List Die}
    (h : List.Forall₂ ShowsDie ws dice) : ws.findSome? mode? = none := by
  induction h with
  | nil => rfl
  | cons hd _ ih => rw [List.findSome?_cons, hd.isNumeral.mode?_eq_none, ih]

theorem isPlain_of_shows {ws : List (List Char)} {dice : List Die}
    (h : List.Forall₂ ShowsDie ws dice) : ∀ word ∈ ws, IsPlain word := by
  induction h with
  | nil => exact List.forall_mem_nil _
  | cons hd _ ih => exact List.forall_mem_cons.2 ⟨hd.isNumeral.isPlain, ih⟩

/-! ## Groups -/

/-- The words for the mode of a group. -/
def modeWords (mode : Mode) : List (List Char) :=
  if mode = .normal then [] else ['(' :: (mode.label.toList ++ [')'])]

theorem mode?_modeWords (mode : Mode) : ((modeWords mode).findSome? mode?).getD .normal = mode := by
  cases mode <;> decide

theorem isPlain_of_mem_modeWords {mode : Mode} {word : List Char} (h : word ∈ modeWords mode) :
    IsPlain word := by
  cases mode with
  | normal => cases h
  | advantage => exact ⟨'a', by rw [List.mem_singleton.1 h]; decide, by decide⟩
  | disadvantage => exact ⟨'a', by rw [List.mem_singleton.1 h]; decide, by decide⟩

/-- The words for a group and its dice. -/
def groupWords (g : Group) (dice : List Die) (mode : Mode) : List (List Char) :=
  g.text.toList :: (diceWords ['('] dice ++ modeWords mode)

theorem blank_not_mem_of_unblank {cs : List Char} (h : Unblank cs) : ' ' ∉ cs := by
  intro hc
  have hblank := h ' ' hc
  revert hblank
  decide

theorem spells_group (g : Group) {dice : List Die} (hdice : dice ≠ []) (mode : Mode) :
    Spells (Style.markdown.group g dice mode).toList (groupWords g dice mode) := by
  have htext : Spells g.text.toList [g.text.toList] :=
    spells_word (blank_not_mem_of_unblank (unblank_piece (.dice g)))
  have hopened := htext.append (spells_dice divides_open hdice)
  rw [groupWords, modeWords]
  by_cases hmode : mode = .normal
  · simpa [Style.group, hmode, Style.markdown] using hopened
  · have hlabel : ' ' ∉ '(' :: (mode.label.toList ++ [')']) := by
      cases mode <;> decide
    simpa [Style.group, hmode, Style.markdown] using hopened.append (spells_word hlabel)

theorem isPlain_text (g : Group) : IsPlain g.text.toList := by
  obtain ⟨c, hc⟩ := List.exists_mem_of_ne_nil _ (isDigits_toDigits g.count).1
  refine ⟨c, ?_, ?_⟩
  · rw [toList_group_text, Group.diceChars]
    simp [hc]
  · rw [Char.isAlphanum, isDigit_of_mem_toDigits hc, Bool.or_true]

theorem isPlain_of_mem_groupWords {g : Group} {dice : List Die} {mode : Mode} {word : List Char}
    (hword : word ∈ groupWords g dice mode) : IsPlain word := by
  rcases List.mem_cons.1 hword with rfl | hword
  · exact isPlain_text g
  · rcases List.mem_append.1 hword with hword | hword
    · exact isPlain_of_shows (forall₂_diceWords divides_open dice) word hword
    · exact isPlain_of_mem_modeWords hword

/-- A group on its own is a text, which says nothing of a sign. -/
theorem parse_group_text {g : Group} (hg : g.WellFormed) :
    parse g.text = .ok ⟨.single { g with sign := .plus }, g.text⟩ := by
  have hsingle : (Formula.single { g with sign := .plus }).WellFormed :=
    wellFormed_single ⟨hg.count, hg.sides, hg.keep⟩
  have htext : (Formula.single { g with sign := .plus }).text = g.text := by
    show g.text ++ String.join [] ++ "" = g.text
    simp
  have hparse := parse_text hsingle
  rwa [htext] at hparse

/-- The term of a group. -/
def groupTerm (g : Group) (dice : List Die) (mode : Mode) : Term :=
  ⟨g.sign, groupWords g dice mode⟩

/-- **A group and its dice are read off their term.** -/
theorem pool?_groupTerm {g : Group} (hg : g.WellFormed) (dice : List Die) (mode : Mode) :
    (groupTerm g dice mode).pool? =
      some ⟨g, dice.map fun d => (d.value, d.discarded), mode⟩ := by
  have hshows := forall₂_diceWords divides_open dice
  have hletter : 'd' ∈ g.text.toList := by
    rw [toList_group_text, Group.diceChars]
    simp
  have hdice : ((diceWords ['('] dice ++ modeWords mode).filter
      fun word => word.any Char.isDigit).map die = dice.map fun d => (d.value, d.discarded) := by
    have hmode : (modeWords mode).filter (fun word => word.any Char.isDigit) = [] := by
      cases mode <;> decide
    rw [List.filter_append, hmode, List.append_nil, map_die_of_shows hshows]
  have hmode : ((diceWords ['('] dice ++ modeWords mode).findSome? mode?).getD .normal = mode := by
    rw [List.findSome?_append, mode?_of_shows hshows, Option.none_or, mode?_modeWords]
  simp only [Term.pool?, groupTerm, groupWords, if_pos hletter, String.ofList_toList,
    parse_group_text hg, hdice, hmode]
  rfl

theorem constant_groupTerm {g : Group} (hg : g.WellFormed) (dice : List Die) (mode : Mode) :
    (groupTerm g dice mode).constant = 0 := by
  rw [Term.constant, pool?_groupTerm hg]
  rfl

/-! ## Modifiers -/

/-- The term of a number. -/
def constantTerm (sign : Sign) (n : Nat) : Term := ⟨sign, [Nat.toDigits 10 n]⟩

/-- The term of a modifier, unless it is zero. -/
def modifierTerms (m : Int) : List Term :=
  if 0 < m then [constantTerm .plus m.natAbs]
  else if m < 0 then [constantTerm .minus m.natAbs]
  else []

theorem isNumeral_toDigits (n : Nat) : IsNumeral (Nat.toDigits 10 n) n :=
  ⟨[], [], by simp, List.forall_mem_nil _, List.forall_mem_nil _⟩

theorem pool?_constantTerm (sign : Sign) (n : Nat) : (constantTerm sign n).pool? = none :=
  if_neg (not_mem_toDigits (by decide))

theorem constant_constantTerm (sign : Sign) (n : Nat) :
    (constantTerm sign n).constant = sign.apply n := by
  rw [Term.constant, pool?_constantTerm, constantTerm]
  simp [(isNumeral_toDigits n).number_eq]

theorem isPlain_of_mem_modifierTerms {m : Int} {t : Term} (ht : t ∈ modifierTerms m) :
    ∀ word ∈ t.words, IsPlain word := by
  have hplain : ∀ sign, ∀ word ∈ (constantTerm sign m.natAbs).words, IsPlain word := by
    intro sign word hword
    rw [List.mem_singleton.1 hword]
    exact (isNumeral_toDigits m.natAbs).isPlain
  rw [modifierTerms] at ht
  split at ht
  · exact List.mem_singleton.1 ht ▸ hplain .plus
  · split at ht
    · exact List.mem_singleton.1 ht ▸ hplain .minus
    · cases ht

theorem pool?_modifierTerms (m : Int) : (modifierTerms m).filterMap Term.pool? = [] := by
  rw [modifierTerms]
  split
  · simp [pool?_constantTerm]
  · split <;> simp [pool?_constantTerm]

theorem sum_modifierTerms (m : Int) : ((modifierTerms m).map Term.constant).sum = m := by
  have hsum : ∀ sign, ([constantTerm sign m.natAbs].map Term.constant).sum =
      sign.apply m.natAbs := by
    intro sign
    rw [List.map_singleton, List.sum_singleton, constant_constantTerm]
  rw [modifierTerms]
  split
  · rw [hsum, Sign.apply]
    omega
  · split
    · rw [hsum, Sign.apply]
      omega
    · rw [List.map_nil, List.sum_nil]
      omega

/-! ## Rows of terms -/

/-- The words of a term behind its sign. -/
def Term.signedWords (t : Term) : List (List Char) := t.sign.symbol.toList :: t.words

/-- Characters that spell terms with their signs, if they stand behind other words. -/
def SpellsMore (cs : List Char) (ts : List Term) : Prop :=
  ∀ ds ws, Spells ds ws → Spells (ds ++ cs) (ws ++ ts.flatMap Term.signedWords)

theorem spellsMore_nil : SpellsMore [] [] := fun ds ws h => by simpa using h

theorem SpellsMore.append {cs ds : List Char} {ts us : List Term} (h : SpellsMore cs ts)
    (h' : SpellsMore ds us) : SpellsMore (cs ++ ds) (ts ++ us) := by
  intro es ws hes
  have hboth := h' _ _ (h es ws hes)
  simpa using hboth

theorem spellsMore_term {cs : List Char} {t : Term} (h : Spells cs t.words) :
    SpellsMore (' ' :: (t.sign.symbol.toList ++ ' ' :: cs)) [t] := by
  intro ds ws hds
  have hsymbol : ' ' ∉ t.sign.symbol.toList := by cases t.sign <;> decide
  have hboth := hds.append ((spells_word hsymbol).append h)
  simpa [Term.signedWords] using hboth

theorem sign?_symbol (sign : Sign) : sign? sign.symbol.toList = some sign := by cases sign <;> rfl

/-- **The terms of a row of words are those that it was put together from.** -/
theorem terms_line (sign : Sign) {ws : List (List Char)} {ts : List Term}
    (hws : ∀ word ∈ ws, IsPlain word) (hts : ∀ t ∈ ts, ∀ word ∈ t.words, IsPlain word) :
    terms sign (ws ++ ts.flatMap Term.signedWords) = ⟨sign, ws⟩ :: ts := by
  have hnone : ∀ {us : List (List Char)}, (∀ word ∈ us, IsPlain word) → us.filterMap sign? = [] :=
    fun hus => List.filterMap_eq_nil_iff.2 fun word hword => (hus word hword).sign?_eq_none
  have hsplit : ∀ {us : List (List Char)}, (∀ word ∈ us, IsPlain word) →
      ∀ word ∈ us, (sign? word).isSome = false := fun hus word hword => by
    rw [(hus word hword).sign?_eq_none, Option.isSome_none]
  induction ts generalizing sign ws with
  | nil =>
    rw [List.flatMap_nil, List.append_nil, terms, hnone hws, List.splitOnP_eq_singleton (hsplit hws)]
    rfl
  | cons t ts ih =>
    obtain ⟨ht, hrest⟩ := List.forall_mem_cons.1 hts
    have hmore := ih t.sign ht hrest
    rw [terms] at hmore
    rw [List.flatMap_cons, Term.signedWords, List.cons_append, terms, List.filterMap_append,
      hnone hws, List.nil_append, List.filterMap_cons_some (sign?_symbol t.sign),
      List.splitOnP_append_cons_of_forall_mem (hsplit hws) _ (by rw [sign?_symbol]; rfl),
      List.zipWith_cons_cons, hmore]

/-! ## Totals -/

/-- The word for a total. -/
def totalWord (total : Int) : List Char := '`' :: ((toString total).toList ++ ['`'])

theorem isNumeral_totalWord (total : Int) : IsNumeral (totalWord total) total.natAbs := by
  have hmark : IsMark '`' ∧ IsMark '-' := by simp [IsMark]
  rw [totalWord, Int.toString_eq_repr, Int.repr_eq_if]
  by_cases h : 0 ≤ total
  · refine ⟨['`'], ['`'], ?_, by simp [hmark], by simp [hmark]⟩
    have habs : total.toNat = total.natAbs := by omega
    simp [h, habs]
  · refine ⟨['`', '-'], ['`'], ?_, by simp [hmark], by simp [hmark]⟩
    have habs : (-total).toNat = total.natAbs := by omega
    simp [h, habs]

theorem minus_mem_totalWord (total : Int) : '-' ∈ totalWord total ↔ total < 0 := by
  have hdigits : ∀ n, '-' ∉ Nat.toDigits 10 n := fun n => not_mem_toDigits (by decide)
  rw [totalWord, Int.toString_eq_repr, Int.repr_eq_if]
  by_cases h : 0 ≤ total
  · simp [h, hdigits]
  · simp [h]
    omega

theorem integer_totalWord (total : Int) : integer (totalWord total) = total := by
  rw [integer, (isNumeral_totalWord total).number_eq]
  by_cases h : total < 0
  · rw [if_pos ((minus_mem_totalWord total).2 h)]
    omega
  · rw [if_neg fun hminus => h ((minus_mem_totalWord total).1 hminus)]
    omega

/-- The words for a total and what is named after it. -/
def resultWords (r : Roll) : List (List Char) :=
  totalWord r.total ::
    if r.critical then ["**Critical!**".toList] else if r.fumble then ["**Fumble!**".toList] else []

theorem words_markdownTotal {cs : List Char} {ws : List (List Char)} (h : Spells cs ws) (r : Roll) :
    words (cs ++ (Style.markdownTotal r).toList) = ws ++ equals :: resultWords r := by
  have hequals : ' ' ∉ equals := by decide
  have htotal := (isNumeral_totalWord r.total).blank_not_mem
  have hcritical : ' ' ∉ "**Critical!**".toList := by decide
  have hfumble : ' ' ∉ "**Fumble!**".toList := by decide
  have htext : (Style.markdownTotal r).toList = ' ' :: (equals ++ ' ' :: (totalWord r.total ++
      if r.critical then ' ' :: "**Critical!**".toList
      else if r.fumble then ' ' :: "**Fumble!**".toList else [])) := by
    rw [Style.markdownTotal, totalWord]
    cases r.critical <;> cases r.fumble <;> simp [equals]
  rw [htext, h, words_append hequals, resultWords]
  split
  · rw [words_append htotal, words_last hcritical]
  · split
    · rw [words_append htotal, words_last hfumble]
    · rw [List.append_nil, words_last htotal]

/-! ## Lines -/

/-- A group, its dice and its place, as they are put on a line. -/
abbrev Entry := (Group × List Die) × Nat

/-- The term of an entry. -/
def entryTerm (r : Roll) (e : Entry) : Term := groupTerm e.1.1 e.1.2 (r.groupMode e.2)

/-- The text of an entry. -/
def entryText (r : Roll) (e : Entry) : String :=
  Style.lead e.2 e.1.1.sign ++ Style.markdown.group e.1.1 e.1.2 (r.groupMode e.2)

theorem spellsMore_entries {r : Roll} {es : List Entry} (h : ∀ e ∈ es, e.1.2 ≠ [] ∧ e.2 ≠ 0) :
    SpellsMore (es.flatMap fun e => (entryText r e).toList) (es.map (entryTerm r)) := by
  induction es with
  | nil => exact spellsMore_nil
  | cons e es ih =>
    obtain ⟨⟨hdice, hplace⟩, hrest⟩ := List.forall_mem_cons.1 h
    have hterm := spellsMore_term (t := entryTerm r e) (spells_group e.1.1 hdice (r.groupMode e.2))
    have htext : (entryText r e).toList =
        ' ' :: (e.1.1.sign.symbol.toList ++
          ' ' :: (Style.markdown.group e.1.1 e.1.2 (r.groupMode e.2)).toList) := by
      simp [entryText, Style.lead, hplace]
    rw [List.flatMap_cons, List.map_cons, htext]
    exact hterm.append (ih hrest)

theorem toList_toString {x : Int} (h : 0 ≤ x) :
    (toString x).toList = Nat.toDigits 10 x.natAbs := by
  have habs : x.toNat = x.natAbs := by omega
  rw [Int.toString_eq_repr, Int.repr_eq_if, if_pos h]
  simp [habs]

theorem spellsMore_modifier (m : Int) : SpellsMore (Style.modifier m).toList (modifierTerms m) := by
  have hterm : ∀ sign, SpellsMore (' ' :: (sign.symbol.toList ++ ' ' :: Nat.toDigits 10 m.natAbs))
      [constantTerm sign m.natAbs] := by
    intro sign
    have hdigits := spells_word (isNumeral_toDigits m.natAbs).blank_not_mem
    exact spellsMore_term (t := constantTerm sign m.natAbs) hdigits
  rw [Style.modifier, modifierTerms]
  split
  · have hplus := hterm .plus
    rw [← toList_toString (by omega)] at hplus
    simpa [Sign.symbol] using hplus
  · split
    · have hminus := hterm .minus
      rw [← Int.natAbs_neg, ← toList_toString (by omega)] at hminus
      simpa [Sign.symbol] using hminus
    · exact spellsMore_nil

/-- **A row of words is read as the terms that it was put together from, and the result.** -/
theorem ofWords_line (sign : Sign) {ws : List (List Char)} {ts : List Term}
    (hws : ∀ word ∈ ws, IsPlain word) (hts : ∀ t ∈ ts, ∀ word ∈ t.words, IsPlain word) {r : Roll}
    (hflags : ¬(r.critical = true ∧ r.fumble = true)) :
    ofWords sign (ws ++ ts.flatMap Term.signedWords ++ equals :: resultWords r) =
      { pools := (⟨sign, ws⟩ :: ts).filterMap Term.pool?
        modifier := ((⟨sign, ws⟩ :: ts).map Term.constant).sum
        total := r.total
        critical := r.critical
        fumble := r.fumble } := by
  have hsigned : ∀ t ∈ ts, ∀ word ∈ t.signedWords, word ≠ equals := by
    intro t ht word hword
    rcases List.mem_cons.1 hword with rfl | hword
    · cases t.sign <;> decide
    · exact (hts t ht word hword).ne_equals
  have hbefore : ∀ word ∈ ws ++ ts.flatMap Term.signedWords, decide (word ≠ equals) = true := by
    intro word hword
    rw [decide_eq_true_eq]
    rcases List.mem_append.1 hword with hword | hword
    · exact (hws word hword).ne_equals
    · obtain ⟨t, ht, hword⟩ := List.mem_flatMap.1 hword
      exact hsigned t ht word hword
  have htotal : ∀ name : List Char, name.head? = some '*' → totalWord r.total ≠ name := by
    rintro name hname rfl
    cases hname
  have hresult : ∀ name : List Char, name.head? = some '*' →
      (name ∈ resultWords r ↔ name ∈ (resultWords r).tail) := by
    intro name hname
    rw [resultWords, List.mem_cons, List.tail_cons]
    exact or_iff_right (htotal name hname).symm
  rw [ofWords, List.takeWhile_append_of_pos hbefore, List.dropWhile_append_of_pos hbefore,
    List.takeWhile_cons_of_neg (by simp), List.dropWhile_cons_of_neg (by simp), List.append_nil,
    terms_line sign hws hts]
  simp only [List.tail_cons, hresult "**Critical!**".toList rfl, hresult "**Fumble!**".toList rfl]
  rw [resultWords, List.head?_cons, Option.map_some, integer_totalWord, List.tail_cons]
  cases hcritical : r.critical <;> cases hfumble : r.fumble
  · simp
  · simp
  · simp
  · exact absurd ⟨hcritical, hfumble⟩ hflags

/-- The sign that a line opens with is no part of its words. -/
theorem ofText_lead (sign : Sign) {line : String} {c : Char} {cs : List Char}
    (hc : c.isDigit = true) (hline : line.toList = (Style.lead 0 sign).toList ++ c :: cs) :
    ofText line = ofWords sign (words (c :: cs)) := by
  rw [ofText, hline]
  cases sign with
  | plus =>
    have hne : c ≠ '-' := by
      rintro rfl
      cases hc
    show (match c :: cs with
      | '-' :: cs => ofWords .minus (words cs)
      | cs => ofWords .plus (words cs)) = _
    split
    · next heq => exact absurd (List.cons.inj heq).1 hne
    · rfl
  | minus => rfl

/-- A group on a line begins with a digit. -/
theorem exists_group_cons (g : Group) (dice : List Die) (mode : Mode) :
    ∃ c cs, c.isDigit = true ∧ (Style.markdown.group g dice mode).toList = c :: cs := by
  obtain ⟨c, cs, hdigits⟩ := List.exists_cons_of_ne_nil (isDigits_toDigits g.count).1
  have hc : c ∈ Nat.toDigits 10 g.count := hdigits ▸ List.mem_cons_self
  have hcount : Nat.toDigits 10 g.count <+: g.text.toList := by
    rw [toList_group_text, Group.diceChars, List.append_assoc]
    exact List.prefix_append _ _
  have htext : g.text.toList <+: (Style.markdown.group g dice mode).toList := by
    rw [Style.group]
    simp
  obtain ⟨rest, hrest⟩ := hcount.trans htext
  rw [hdigits] at hrest
  exact ⟨c, cs ++ rest, isDigit_of_mem_toDigits hc, hrest.symm⟩

/-- What is put on the line for a roll: the entry of the first group, and those of the others. -/
theorem exists_placed {f : Formula} {r : Roll} (hlength : r.pools.length = f.groups.length) :
    ∃ (e : Entry) (es : List Entry), Style.placed f r = e :: es ∧ e.2 = 0 ∧ ∀ e' ∈ es, e'.2 ≠ 0 := by
  have hne : f.groups.zip r.pools ≠ [] := by
    intro h
    have hzero := congrArg List.length h
    rw [List.length_zip, hlength, Nat.min_self] at hzero
    exact f.groups_ne_nil (List.length_eq_zero_iff.1 hzero)
  obtain ⟨p, ps, hzip⟩ := List.exists_cons_of_ne_nil hne
  refine ⟨(p, 0), ps.zipIdx 1, by rw [Style.placed, hzip]; rfl, rfl, fun e he => ?_⟩
  have hplace := List.le_snd_of_mem_zipIdx he
  omega

/-- **A line in Markdown is read as the terms of its groups and its modifier, and its result.** -/
theorem ofText_render {f : Formula} {r : Roll}
    (hlength : r.pools.length = f.groups.length) (hpools : ∀ pool ∈ r.pools, pool ≠ [])
    (hflags : ¬(r.critical = true ∧ r.fumble = true)) :
    ofText (Style.markdown.render f r) =
      { pools := ((Style.placed f r).map (entryTerm r) ++ modifierTerms r.modifier).filterMap
          Term.pool?
        modifier :=
          (((Style.placed f r).map (entryTerm r) ++ modifierTerms r.modifier).map Term.constant).sum
        total := r.total
        critical := r.critical
        fumble := r.fumble } := by
  obtain ⟨e, es, hplaced, hfirst, hothers⟩ := exists_placed hlength
  have hdice : ∀ e' ∈ e :: es, e'.1.2 ≠ [] := by
    intro e' he'
    rw [← hplaced] at he'
    exact hpools _ (List.of_mem_zip (List.fst_mem_of_mem_zipIdx he')).2
  obtain ⟨hdice, hrest⟩ := List.forall_mem_cons.1 hdice
  have hentries : SpellsMore (es.flatMap fun e' => (entryText r e').toList) (es.map (entryTerm r)) :=
    spellsMore_entries fun e' he' => ⟨hrest e' he', hothers e' he'⟩
  have hspells := hentries.append (spellsMore_modifier r.modifier) _ _
    (spells_group e.1.1 hdice (r.groupMode e.2))
  have hwords := words_markdownTotal hspells r
  obtain ⟨c, cs, hc, hgroup⟩ := exists_group_cons e.1.1 e.1.2 (r.groupMode e.2)
  have hline : (Style.markdown.render f r).toList = (Style.lead 0 e.1.1.sign).toList ++
      ((Style.markdown.group e.1.1 e.1.2 (r.groupMode e.2)).toList ++
        ((es.flatMap fun e' => (entryText r e').toList) ++ (Style.modifier r.modifier).toList) ++
          (Style.markdownTotal r).toList) := by
    rw [Style.render, hplaced]
    simp [String.toList_join, List.flatMap_map, entryText, hfirst]
    rfl
  have hplain : ∀ t ∈ es.map (entryTerm r) ++ modifierTerms r.modifier,
      ∀ word ∈ t.words, IsPlain word := by
    intro t ht word hword
    rcases List.mem_append.1 ht with ht | ht
    · obtain ⟨e', -, rfl⟩ := List.mem_map.1 ht
      exact isPlain_of_mem_groupWords hword
    · exact isPlain_of_mem_modifierTerms ht word hword
  simp only [hgroup, List.cons_append] at hline hwords
  have hfold : (⟨e.1.1.sign, groupWords e.1.1 e.1.2 (r.groupMode e.2)⟩ : Term) = entryTerm r e := rfl
  rw [ofText_lead e.1.1.sign hc hline, hwords,
    ofWords_line _ (fun _ => isPlain_of_mem_groupWords) hplain hflags, hplaced, hfold]
  simp only [List.map_cons, List.cons_append]

/-- What a line says of an entry. -/
def entryPool (r : Roll) (e : Entry) : Pool :=
  ⟨e.1.1, e.1.2.map fun d => (d.value, d.discarded), r.groupMode e.2⟩

theorem filterMap_pool?_entries {r : Roll} {es : List Entry} (h : ∀ e ∈ es, e.1.1.WellFormed) :
    (es.map (entryTerm r)).filterMap Term.pool? = es.map (entryPool r) := by
  rw [List.filterMap_map, ← List.filterMap_eq_map]
  refine List.filterMap_congr fun e he => ?_
  rw [Function.comp_apply, Function.comp_apply, entryTerm, pool?_groupTerm (h e he), entryPool]

theorem sum_constant_entries {r : Roll} {es : List Entry} (h : ∀ e ∈ es, e.1.1.WellFormed) :
    ((es.map (entryTerm r)).map Term.constant).sum = 0 := by
  refine List.sum_eq_zero fun x hx => ?_
  obtain ⟨t, ht, rfl⟩ := List.mem_map.1 hx
  obtain ⟨e, he, rfl⟩ := List.mem_map.1 ht
  exact constant_groupTerm (h e he) e.1.2 (r.groupMode e.2)

/-- **A line in Markdown tells the roll**, whatever the roll was, if every group has dice and it was
not both a critical and a fumble. -/
theorem tells_render {f : Formula} {r : Roll} (hgroups : ∀ g ∈ f.groups, g.WellFormed)
    (hlength : r.pools.length = f.groups.length) (hpools : ∀ pool ∈ r.pools, pool ≠ [])
    (hflags : ¬(r.critical = true ∧ r.fumble = true)) :
    (ofText (Style.markdown.render f r)).Tells f r := by
  have hwell : ∀ e ∈ Style.placed f r, e.1.1.WellFormed := fun e he =>
    hgroups _ (List.of_mem_zip (List.fst_mem_of_mem_zipIdx he)).1
  have hread : ofText (Style.markdown.render f r) =
      ⟨(Style.placed f r).map (entryPool r), r.modifier, r.total, r.critical, r.fumble⟩ := by
    rw [ofText_render hlength hpools hflags, List.filterMap_append, filterMap_pool?_entries hwell,
      pool?_modifierTerms, List.append_nil, List.map_append, List.sum_append,
      sum_constant_entries hwell, sum_modifierTerms, Int.zero_add]
  have hfst : (Style.placed f r).map Prod.fst = f.groups.zip r.pools := List.zipIdx_map_fst 0 _
  rw [hread]
  refine
    { groups := ?_
      dice := ?_
      modes := ?_
      modifier := rfl
      total := rfl
      critical := rfl
      fumble := rfl }
  · rw [List.map_map, ← List.map_fst_zip (Nat.le_of_eq hlength.symm), ← hfst, List.map_map]
    rfl
  · have hdice := List.map_snd_zip (Nat.le_of_eq hlength)
    rw [List.map_map, ← hdice, ← hfst, List.map_map, List.map_map]
    rfl
  · have hplaces : (Style.placed f r).map Prod.snd = List.range f.groups.length := by
      rw [Style.placed, List.zipIdx_map_snd, List.length_zip, hlength, Nat.min_self,
        List.range_eq_range']
    rw [← hplaces, List.map_map, List.map_map]
    rfl

theorem faceSum_map (pool : List Die) :
    faceSum (pool.map fun d => (d.value, d.discarded)) =
      ((pool.filter Die.kept).map Die.value).sum := by
  rw [faceSum, List.filter_map, List.map_map]
  rfl

/-- The dice that are not struck out come to what the dice that count do. -/
theorem Tells.subtotal_eq {s : Readout} {f : Formula} {r : Roll} (h : s.Tells f r) :
    s.subtotal = (List.zipWith (fun (g : Group) (pool : List Die) =>
      g.sign.apply (((pool.filter Die.kept).map Die.value).sum : Nat)) f.groups r.pools).sum := by
  have hpools : s.subtotal = (List.zipWith (fun (g : Group) dice => g.sign.apply (faceSum dice : Nat))
      (s.pools.map Pool.group) (s.pools.map Pool.dice)).sum := by
    rw [List.zipWith_map, List.zipWith_self]
    rfl
  rw [hpools, h.groups, h.dice, List.zipWith_map_right]
  simp only [faceSum_map]

/-- What a line tells of two rolls is the same for both. -/
theorem Tells.agree {s : Readout} {f f' : Formula} {r r' : Roll} (h : s.Tells f r)
    (h' : s.Tells f' r') : ShownAlike f r f' r' where
  groups := h.groups.symm.trans h'.groups
  dice := h.dice.symm.trans h'.dice
  modes := h.modes.symm.trans h'.modes
  modifier := h.modifier.symm.trans h'.modifier
  total := h.total.symm.trans h'.total
  critical := h.critical.symm.trans h'.critical
  fumble := h.fumble.symm.trans h'.fumble

end Readout

/-! ## Rolls on their lines -/

variable {σ : Type} [Roller σ]

theorem ne_nil_of_mem_pools {f : Formula} (hf : f.Playable) {mode : Mode} {roller after : σ}
    {faces : List Nat} (h : Deals roller (f.sizes mode) faces after) :
    ∀ pool ∈ f.pools mode faces, pool ≠ [] := by
  intro pool hpool hnil
  have hlength := List.mem_map_of_mem (f := List.length) hpool
  rw [map_length_pools h.length_eq, hnil] at hlength
  obtain ⟨⟨g, place⟩, hp, hzero⟩ := List.mem_map.1 hlength
  have hcount := (hf g (List.fst_mem_of_mem_zipIdx hp)).count.1
  have hzero : f.diceThrown mode place g = 0 := hzero
  rw [Formula.diceThrown] at hzero
  rw [Group.minCount] at hcount
  omega

/-- **The line of what comes of a well-formed formula tells it.** -/
theorem Readout.tells_outcome {f : Formula} (hf : f.WellFormed) {mode : Mode} (modifier : Int)
    {roller after : σ} {faces : List Nat} (h : Deals roller (f.sizes mode) faces after) :
    (ofText (Style.markdown.render f (f.outcome mode modifier faces))).Tells f
      (f.outcome mode modifier faces) := by
  refine tells_render hf.groups ?_ ?_ (not_critical_and_fumble f mode modifier faces)
  · rw [Formula.pools_outcome, Formula.pools, length_deal, Formula.length_throws]
  · rw [Formula.pools_outcome]
    exact ne_nil_of_mem_pools (fun g hg => (hf.groups g hg).playable) h

/-- **A line in Markdown loses nothing.**  Whatever text of a formula is rolled, in whatever mode,
with whatever modifier from outside and whatever is dealt, there is a roll, and what
`Readout.ofText` reads off its line is the groups of the formula, the dice of each with those that
were set aside, the mode of each, the modifier, the total, and whether it was a critical or a
fumble.  The dice that are not struck out and the modifier come to the total.  Two rolls on the same
line, from whatever rollers, agree in all of this. -/
theorem markdown_reads_back {text : String} {w : Written} (hw : parse text = .ok w)
    (hlength : w.groups.length ≤ 2 ^ 40) (mode : Mode) (modifier : Int) {roller after : σ}
    {faces : List Nat} (h : Deals roller (w.sizes mode) faces after) :
    ∃ r log, (w.toFormula.roll mode modifier).run roller = ⟨.ok r, log, after⟩ ∧
      (Readout.ofText (Style.markdown.render w.toFormula r)).Tells w.toFormula r ∧
      (Readout.ofText (Style.markdown.render w.toFormula r)).total =
        Total.add (Readout.ofText (Style.markdown.render w.toFormula r)).subtotal
          (Readout.ofText (Style.markdown.render w.toFormula r)).modifier ∧
      ∀ {τ : Type} [Roller τ] (text' : String) (w' : Written) (mode' : Mode) (modifier' : Int)
        (roller' after' : τ) (faces' : List Nat) (r' : Roll) (log' : List Event),
        parse text' = .ok w' → w'.groups.length ≤ 2 ^ 40 →
        Deals roller' (w'.sizes mode') faces' after' →
        (w'.toFormula.roll mode' modifier').run roller' = ⟨.ok r', log', after'⟩ →
        Style.markdown.render w'.toFormula r' = Style.markdown.render w.toFormula r →
        Readout.ShownAlike w.toFormula r w'.toFormula r' := by
  have hwell := wellFormed_of_parse hw
  have hplayable : w.toFormula.Playable := fun g hg => (hwell.groups g hg).playable
  have htells := Readout.tells_outcome hwell modifier h
  refine ⟨_, _, Formula.run_roll hplayable hlength modifier h, htells, ?_, ?_⟩
  · have hsubtotal : (w.toFormula.outcome mode modifier faces).subtotal =
        scoreSum (w.toFormula.throws mode) (w.toFormula.pools mode faces) := rfl
    rw [htells.total, htells.subtotal_eq, htells.modifier, Formula.pools_outcome,
      ← scoreSum_throws w.toFormula mode, ← hsubtotal]
    rfl
  · intro τ _ text' w' mode' modifier' roller' after' faces' r' log' hw' hlength' h' hrun hline
    have hwell' := wellFormed_of_parse hw'
    have hplayable' : w'.toFormula.Playable := fun g hg => (hwell'.groups g hg).playable
    rw [Formula.run_roll hplayable' hlength' modifier' h', Aftermath.mk.injEq,
      Except.ok.injEq] at hrun
    obtain ⟨rfl, -, -⟩ := hrun
    have htells' := Readout.tells_outcome hwell' modifier' h'
    rw [hline] at htells'
    exact htells.agree htells'

/-- A line with dice that are struck out, bold or both, and with advantage and a subtracted group. -/
theorem markdown_reads_back_mixed :
    parse Formula.mixed.text = .ok ⟨Formula.mixed, Formula.mixed.text⟩ ∧
      Deals (⟨[1, 2, 3, 4, 5, 20, 1, 1, 9]⟩ : Script) (Formula.mixed.sizes .advantage)
        [1, 2, 3, 4, 5, 20, 1, 1] ⟨[9]⟩ ∧
      ∃ r log, (Formula.mixed.roll .advantage (-2)).run (⟨[1, 2, 3, 4, 5, 20, 1, 1, 9]⟩ : Script) =
        ⟨.ok r, log, ⟨[9]⟩⟩ ∧
        (Readout.ofText (Style.markdown.render .mixed r)).Tells .mixed r ∧
        (Readout.ofText (Style.markdown.render .mixed r)).total =
          Total.add (Readout.ofText (Style.markdown.render .mixed r)).subtotal
            (Readout.ofText (Style.markdown.render .mixed r)).modifier := by
  have hparse := parse_text wellFormed_mixed
  have hfaces : List.Forall₂ (fun sides value => 1 ≤ value ∧ value ≤ sides)
      (Formula.mixed.sizes .advantage) [1, 2, 3, 4, 5, 20, 1, 1] := by decide
  have hdeals := Deals.script hfaces [9]
  obtain ⟨r, log, hrun, htells, htotal, -⟩ :=
    markdown_reads_back hparse (by decide) .advantage (-2) hdeals
  exact ⟨hparse, hdeals, r, log, hrun, htells, htotal⟩

end Dicebag
