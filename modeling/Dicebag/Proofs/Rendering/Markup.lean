import Mathlib.Data.Bool.AllAny
import Dicebag.Proofs.Rendering.Readout

/-!
# Plain lines and lines in Markdown

The two styles show the same.  `markdown_adds_markup` says so of every formula and every roll, also
of one that was rolled for another formula.

* Without its asterisks, tildes and backquotes a line in Markdown is the plain line, with a critical
  or a fumble named after it (`unmarked_render`).  Nothing else is named there, since a plain line
  ends in a digit (`suffix_iff_banner_eq`).
* `shownGroups` reads a line of either style: whatever stands in brackets and has no letters are the
  dice of a group, and what stands before the bracket is the group and its sign.  Hence a line shows
  the groups of the formula with the dice of the roll until either runs out, and one number for each
  die (`Style.Legible.shows`).

As with the words of a line, what is read of some characters is read of them whatever comes behind
(`ShowsGroups`), so that the groups can be taken one after another.
-/

set_option autoImplicit false

namespace Dicebag

/-! ## Lines without markup -/

/-- A character that stands for markup. -/
def isMarkup (c : Char) : Bool := c == '*' || c == '~' || c == '`'

/-- The line without its markup. -/
def unmarked (line : String) : String := String.ofList (line.toList.filter fun c => !isMarkup c)

/-- What is named after the total, if anything is. -/
def Roll.banner (r : Roll) : String :=
  if r.critical then " Critical!" else if r.fumble then " Fumble!" else ""

theorem unmarked_append (s t : String) : unmarked (s ++ t) = unmarked s ++ unmarked t := by
  simp [unmarked]

theorem unmarked_join (ss : List String) :
    unmarked (String.join ss) = String.join (ss.map unmarked) := by
  induction ss with
  | nil => rfl
  | cons s ss ih => rw [String.join_cons, unmarked_append, ih, List.map_cons, String.join_cons]

theorem unmarked_intercalate (sep : String) (ss : List String) :
    unmarked (sep.intercalate ss) = (unmarked sep).intercalate (ss.map unmarked) := by
  induction ss with
  | nil => simp [unmarked]
  | cons s ss ih =>
    cases ss with
    | nil => simp
    | cons t ss =>
      simp only [String.intercalate_cons_cons, unmarked_append, List.map_cons] at ih ⊢
      rw [ih]

theorem unmarked_eq_self {s : String} (h : ∀ c ∈ s.toList, isMarkup c = false) :
    unmarked s = s := by
  rw [unmarked, List.filter_eq_self.2 fun c hc => by rw [h c hc]; rfl, String.ofList_toList]

/-! ### What has no markup -/

theorem not_isMarkup_of_isAlphanum {c : Char} (h : c.isAlphanum = true) : isMarkup c = false := by
  rw [Bool.eq_false_iff, isMarkup, Ne, Bool.or_eq_true, Bool.or_eq_true, beq_iff_eq, beq_iff_eq,
    beq_iff_eq]
  rintro ((rfl | rfl) | rfl) <;> cases h

theorem isAlphanum_of_mem_toDigits {n : Nat} {c : Char} (hc : c ∈ Nat.toDigits 10 n) :
    c.isAlphanum = true := by
  rw [Char.isAlphanum, Readout.isDigit_of_mem_toDigits hc, Bool.or_true]

theorem KeepMode.isAlphanum_of_mem_letters {mode : KeepMode} {c : Char} (hc : c ∈ mode.letters) :
    c.isAlphanum = true := by
  have hall : ∀ c ∈ mode.letters, c.isAlphanum = true :=
    List.all_iff_forall_prop.1 (by cases mode <;> decide)
  exact hall c hc

/-- A group is written in letters and digits. -/
theorem isAlphanum_of_mem_text (g : Group) {c : Char} (hc : c ∈ g.text.toList) :
    c.isAlphanum = true := by
  rw [toList_group_text, Group.diceChars, List.append_assoc, List.mem_append, List.cons_append,
    List.mem_cons, List.mem_append] at hc
  rcases hc with hc | rfl | hc | hc
  · exact isAlphanum_of_mem_toDigits hc
  · rfl
  · exact isAlphanum_of_mem_toDigits hc
  · cases hkeep : g.keep with
    | none =>
      rw [hkeep] at hc
      cases hc
    | some k =>
      rw [hkeep, Option.elim_some, toList_keep_text] at hc
      exact (List.mem_append.1 hc).elim KeepMode.isAlphanum_of_mem_letters
        isAlphanum_of_mem_toDigits

theorem unmarked_group_text (g : Group) : unmarked g.text = g.text :=
  unmarked_eq_self fun _ hc => not_isMarkup_of_isAlphanum (isAlphanum_of_mem_text g hc)

theorem unmarked_nat (n : Nat) : unmarked n.repr = n.repr := by
  refine unmarked_eq_self fun c hc => ?_
  rw [Nat.toList_repr] at hc
  exact not_isMarkup_of_isAlphanum (isAlphanum_of_mem_toDigits hc)

theorem mem_toString {x : Int} {c : Char} (hc : c ∈ (toString x).toList) :
    c = '-' ∨ c.isDigit = true := by
  have hdigits : ∀ n, c ∈ Nat.toDigits 10 n → c.isDigit = true := fun _ =>
    Readout.isDigit_of_mem_toDigits
  rw [Int.toString_eq_repr, Int.repr_eq_if] at hc
  split at hc
  · rw [Nat.toList_repr] at hc
    exact .inr (hdigits _ hc)
  · rw [String.toList_append, List.mem_append, Nat.toList_repr] at hc
    exact hc.imp List.mem_singleton.1 (hdigits _)

theorem unmarked_int (x : Int) : unmarked (toString x) = toString x := by
  refine unmarked_eq_self fun c hc => ?_
  rcases mem_toString hc with rfl | hdigit
  · rfl
  · exact not_isMarkup_of_isAlphanum (by rw [Char.isAlphanum, hdigit, Bool.or_true])

namespace Style

theorem unmarked_lead (place : Nat) (sign : Sign) :
    unmarked (lead place sign) = lead place sign := by
  rw [lead.eq_def]
  cases sign <;> split <;> decide +kernel

theorem unmarked_modifier (m : Int) : unmarked (modifier m) = modifier m := by
  have hplus : unmarked " + " = " + " := by decide +kernel
  have hminus : unmarked " - " = " - " := by decide +kernel
  rw [modifier]
  split
  · rw [unmarked_append, unmarked_int, hplus]
  · split
    · rw [unmarked_append, unmarked_int, hminus]
    · rfl

/-- A die in Markdown shows the number that a plain one does. -/
theorem unmarked_die (d : Die) : unmarked (markdown.die d) = plain.die d := by
  have hbold : unmarked "**" = "" := by decide +kernel
  have hstruck : unmarked "~~" = "" := by decide +kernel
  show unmarked (markdownDie d) = toString d.value
  rw [markdownDie]
  cases d.isMax || d.isMin <;> cases d.discarded <;>
    simp [unmarked_append, unmarked_nat, hbold, hstruck]

theorem unmarked_total (r : Roll) : unmarked (markdown.total r) = plain.total r ++ r.banner := by
  have hopen : unmarked " = `" = " = " := by decide +kernel
  have hclose : unmarked "`" = "" := by decide +kernel
  have hcritical : unmarked " **Critical!**" = " Critical!" := by decide +kernel
  have hfumble : unmarked " **Fumble!**" = " Fumble!" := by decide +kernel
  show unmarked (markdownTotal r) = " = " ++ toString r.total ++ r.banner
  rw [markdownTotal, Roll.banner]
  simp only [unmarked_append, unmarked_int, hopen, hclose, String.append_empty]
  have hnone : unmarked "" = "" := rfl
  cases r.critical <;> cases r.fumble <;> simp [hcritical, hfumble, hnone]

theorem unmarked_group (g : Group) (dice : List Die) (mode : Mode) :
    unmarked (markdown.group g dice mode) = plain.group g dice mode := by
  have hdice : (dice.map markdown.die).map unmarked = dice.map plain.die := by
    rw [List.map_map]
    exact List.map_congr_left fun d _ => unmarked_die d
  have hopen : unmarked " (" = " (" := by decide +kernel
  have hcomma : unmarked ", " = ", " := by decide +kernel
  have hclose : unmarked ")" = ")" := by decide +kernel
  have hmode : unmarked (if mode = .normal then "" else " (" ++ mode.label ++ ")") =
      if mode = .normal then "" else " (" ++ mode.label ++ ")" := by
    cases mode <;> decide +kernel
  rw [group, group]
  simp only [unmarked_append, unmarked_intercalate, unmarked_group_text, hdice, hopen, hcomma,
    hclose, hmode]

end Style

/-- **Without its markup a line in Markdown is the plain line**, and what is named after it. -/
theorem unmarked_render (f : Formula) (r : Roll) :
    unmarked (Style.markdown.render f r) = Style.plain.render f r ++ r.banner := by
  have hgroups : ∀ e : (Group × List Die) × Nat,
      unmarked (Style.lead e.2 e.1.1.sign ++ Style.markdown.group e.1.1 e.1.2 (r.groupMode e.2)) =
        Style.lead e.2 e.1.1.sign ++ Style.plain.group e.1.1 e.1.2 (r.groupMode e.2) := fun e => by
    rw [unmarked_append, Style.unmarked_lead, Style.unmarked_group]
  rw [Style.render, Style.render, unmarked_append, unmarked_append, unmarked_join,
    Style.unmarked_modifier, Style.unmarked_total, List.map_map, ← String.append_assoc]
  exact congrArg (fun gs => String.join gs ++ Style.modifier r.modifier ++ Style.plain.total r ++
    r.banner) (List.map_congr_left fun e _ => hgroups e)

/-! ## What is named at the end -/

theorem banner_cases (r : Roll) :
    r.banner = "" ∨ r.banner = " Critical!" ∨ r.banner = " Fumble!" := by
  rw [Roll.banner]
  cases r.critical <;> cases r.fumble <;> decide

/-- A plain line ends in its total, where no name ends. -/
theorem bang_not_mem_getLast? (f : Formula) (r : Roll) :
    '!' ∉ (Style.plain.render f r).toList.getLast? := by
  have hnil : (toString r.total).toList ≠ [] := by
    rw [Int.toString_eq_repr, Int.repr_eq_if]
    split <;> simp
  have htotal : (toString r.total).toList <:+ (Style.plain.render f r).toList := by
    rw [Style.render, show Style.plain.total r = " = " ++ toString r.total from rfl,
      ← String.append_assoc, String.toList_append]
    exact List.suffix_append _ _
  obtain ⟨cs, hline⟩ := htotal
  intro hlast
  rw [← hline, List.getLast?_append_of_ne_nil _ hnil] at hlast
  rcases mem_toString (List.mem_of_getLast? hlast) with hbang | hbang <;> cases hbang

/-- A line has a name at its end where the roll is so named. -/
theorem suffix_iff_banner_eq (f : Formula) (r : Roll) {name : String}
    (hname : name = " Critical!" ∨ name = " Fumble!") :
    name.toList <:+ (unmarked (Style.markdown.render f r)).toList ↔ r.banner = name := by
  rw [unmarked_render, String.toList_append]
  constructor
  · intro hsuffix
    rcases banner_cases r with hbanner | hbanner
    · exfalso
      rw [hbanner, String.toList_empty, List.append_nil] at hsuffix
      obtain ⟨cs, hcs⟩ := hsuffix
      refine bang_not_mem_getLast? f r ?_
      rw [← hcs]
      rcases hname with rfl | rfl <;> simp
    · -- of two names at the end of a line one ends in the other
      have hends := List.suffix_or_suffix_of_suffix hsuffix (List.suffix_append _ r.banner.toList)
      revert hends
      rcases hname with rfl | rfl <;> rcases hbanner with hbanner | hbanner <;> rw [hbanner] <;>
        decide
  · rintro rfl
    exact List.suffix_append _ _

theorem banner_eq_critical_iff (r : Roll) : r.banner = " Critical!" ↔ r.critical = true := by
  rw [Roll.banner]
  cases r.critical <;> cases r.fumble <;> decide

theorem banner_eq_fumble_iff (r : Roll) :
    r.banner = " Fumble!" ↔ r.critical = false ∧ r.fumble = true := by
  rw [Roll.banner]
  cases r.critical <;> cases r.fumble <;> decide

/-! ## What a line shows -/

/-- A group with its dice, as a line shows them. -/
structure ShownGroup where
  /-- The sign before the group. -/
  sign : Sign
  /-- The group. -/
  text : String
  /-- The numbers behind it, one for each die. -/
  faces : List Nat
deriving DecidableEq, Repr

/-- The numbers between commas. -/
def shownNumbers (inside : List Char) : List Nat :=
  ((inside.splitOn ',').filter fun word => word.any Char.isDigit).map Readout.number

/-- The group that a bracket is about, where the bracket has no letters in it.  The characters are
those up to where it is closed. -/
def shownGroup? (piece : List Char) : Option ShownGroup :=
  match piece.dropWhile (· ≠ '(') with
  | [] => none
  | _ :: inside =>
    if inside.any Char.isAlpha then none
    else
      let before := piece.takeWhile (· ≠ '(')
      some ⟨if '-' ∈ before then .minus else .plus, String.ofList (before.filter Char.isAlphanum),
        shownNumbers inside⟩

/-- The groups that some characters show. -/
def groupsShownIn (cs : List Char) : List ShownGroup := (cs.splitOn ')').filterMap shownGroup?

/-- The groups that a line shows. -/
def shownGroups (line : String) : List ShownGroup := groupsShownIn line.toList

/-- The line of a style has the groups of the formula with the dice of the roll, until there are no
more of the one or the other. -/
structure Style.Shows (style : Style) (f : Formula) (r : Roll) : Prop where
  /-- There are as many groups on the line as both the formula and the roll have. -/
  length : (shownGroups (style.render f r)).length = min f.groups.length r.stretches.length
  /-- They come in order, with their signs, and each has a number for every die. -/
  groups : shownGroups (style.render f r) =
    (f.groups.zip r.pools).map fun p => ⟨p.1.sign, p.1.text, p.2.map Die.value⟩

/-- Characters that show groups, whatever comes behind. -/
def ShowsGroups (cs : List Char) (gs : List ShownGroup) : Prop :=
  ∀ rest, groupsShownIn (cs ++ rest) = gs ++ groupsShownIn rest

theorem showsGroups_nil : ShowsGroups [] [] := fun _ => rfl

theorem ShowsGroups.append {cs ds : List Char} {gs hs : List ShownGroup} (h : ShowsGroups cs gs)
    (h' : ShowsGroups ds hs) : ShowsGroups (cs ++ ds) (gs ++ hs) := by
  intro rest
  rw [List.append_assoc, h, h', List.append_assoc]

/-- A closing bracket ends what it is about. -/
theorem showsGroups_closed {piece : List Char} (h : ')' ∉ piece) :
    ShowsGroups (piece ++ [')']) (shownGroup? piece).toList := by
  intro rest
  rw [List.append_assoc, List.singleton_append, groupsShownIn,
    List.splitOn_append_cons_self_of_not_mem h, List.filterMap_cons, groupsShownIn]
  cases shownGroup? piece <;> rfl

theorem decide_ne_of_not_mem {cs : List Char} (h : '(' ∉ cs) :
    ∀ c ∈ cs, decide (c ≠ '(') = true := by
  intro c hc
  rw [decide_eq_true_eq]
  rintro rfl
  exact h hc

theorem groupsShownIn_of_not_mem {cs : List Char} (hopen : '(' ∉ cs) (hclose : ')' ∉ cs) :
    groupsShownIn cs = [] := by
  have hdrop : cs.dropWhile (· ≠ '(') = [] := by
    rw [← List.append_nil cs, List.dropWhile_append_of_pos (decide_ne_of_not_mem hopen)]
    rfl
  rw [groupsShownIn, List.splitOn_eq_singleton hclose, List.filterMap_cons, shownGroup?, hdrop,
    List.filterMap_nil]

theorem shownGroup?_opened {before : List Char} (hopen : '(' ∉ before) (inside : List Char) :
    shownGroup? (before ++ '(' :: inside) =
      if inside.any Char.isAlpha then none
      else some ⟨if '-' ∈ before then .minus else .plus,
        String.ofList (before.filter Char.isAlphanum), shownNumbers inside⟩ := by
  have hbefore := decide_ne_of_not_mem hopen
  rw [shownGroup?, List.dropWhile_append_of_pos hbefore, List.takeWhile_append_of_pos hbefore,
    List.dropWhile_cons_of_neg (by simp), List.takeWhile_cons_of_neg (by simp), List.append_nil]

/-! ### Dice -/

/-- A bracket, or the comma between two dice. -/
def isDivider (c : Char) : Bool := c == '(' || c == ')' || c == ','

/-- A style in which dice are numbers, and neither dice nor totals have anything in them that
divides the dice of a line. -/
structure Style.Legible (style : Style) : Prop where
  /-- A die is the number of its face, with marks around it. -/
  isNumeral : ∀ d, Readout.IsNumeral (style.die d).toList d.value
  /-- There is no divider in a die. -/
  die_free : ∀ d, ∀ c ∈ (style.die d).toList, isDivider c = false
  /-- There is no divider in a total. -/
  total_free : ∀ r, ∀ c ∈ (style.total r).toList, isDivider c = false

theorem shownNumbers_last {word : List Char} (h : ',' ∉ word)
    (hdigit : word.any Char.isDigit = true) : shownNumbers word = [Readout.number word] := by
  rw [shownNumbers, List.splitOn_eq_singleton h, List.filter_cons, if_pos hdigit]
  rfl

theorem shownNumbers_append {word : List Char} (h : ',' ∉ word)
    (hdigit : word.any Char.isDigit = true) (rest : List Char) :
    shownNumbers (word ++ ',' :: rest) = Readout.number word :: shownNumbers rest := by
  rw [shownNumbers, List.splitOn_append_cons_self_of_not_mem h, List.filter_cons, if_pos hdigit]
  rfl

theorem number_blanks {blanks word : List Char} (hblanks : ∀ c ∈ blanks, c = ' ') :
    Readout.number (blanks ++ word) = Readout.number word := by
  have hnone : blanks.filter Char.isDigit = [] :=
    List.filter_eq_nil_iff.2 fun c hc => by rw [hblanks c hc]; decide
  rw [Readout.number, List.filter_append, hnone, List.nil_append, Readout.number]

/-- **There is one number for each die.** -/
theorem Style.Legible.shownNumbers_dice {style : Style} (h : style.Legible) (blanks : List Char)
    (hblanks : ∀ c ∈ blanks, c = ' ') (dice : List Die) :
    shownNumbers (blanks ++ (String.intercalate ", " (dice.map style.die)).toList) =
      dice.map Die.value := by
  have hword : ∀ {blanks : List Char} (d : Die), (∀ c ∈ blanks, c = ' ') →
      ',' ∉ blanks ++ (style.die d).toList ∧
        (blanks ++ (style.die d).toList).any Char.isDigit = true ∧
        Readout.number (blanks ++ (style.die d).toList) = d.value := by
    intro blanks d hblanks
    refine ⟨fun hc => ?_, ?_, ?_⟩
    · rcases List.mem_append.1 hc with hc | hc
      · cases hblanks _ hc
      · cases h.die_free d _ hc
    · rw [List.any_append, (h.isNumeral d).any_isDigit, Bool.or_true]
    · rw [number_blanks hblanks, (h.isNumeral d).number_eq]
  induction dice generalizing blanks with
  | nil =>
    have hcomma : ',' ∉ blanks := fun hc => by cases hblanks _ hc
    have hdigit : blanks.any Char.isDigit = false :=
      List.any_eq_false.2 fun c hc => by rw [hblanks c hc]; decide
    rw [List.map_nil, String.intercalate_nil, String.toList_empty, List.append_nil, shownNumbers,
      List.splitOn_eq_singleton hcomma, List.filter_cons, hdigit]
    rfl
  | cons d dice ih =>
    obtain ⟨hcomma, hdigit, hnumber⟩ := hword d hblanks
    cases dice with
    | nil =>
      rw [List.map_singleton, String.intercalate_singleton, shownNumbers_last hcomma hdigit,
        hnumber]
      rfl
    | cons e dice =>
      have hrest := ih [' '] (by simp)
      rw [List.map_cons, List.map_cons, String.intercalate_cons_cons, ← List.map_cons]
      have hsplit : blanks ++ (style.die d ++ ", " ++
          String.intercalate ", " ((e :: dice).map style.die)).toList =
          (blanks ++ (style.die d).toList) ++
            ',' :: ([' '] ++ (String.intercalate ", " ((e :: dice).map style.die)).toList) := by
        simp
      rw [hsplit, shownNumbers_append hcomma hdigit, hnumber, hrest]
      rfl

/-- Dice are in brackets without letters, and nothing closes these before the end. -/
theorem Style.Legible.dice_free {style : Style} (h : style.Legible) (dice : List Die) :
    ∀ c ∈ (String.intercalate ", " (dice.map style.die)).toList, c.isAlpha = false ∧ c ≠ ')' := by
  have hdie : ∀ d, ∀ c ∈ (style.die d).toList, c.isAlpha = false ∧ c ≠ ')' := fun d c hc => by
    refine ⟨?_, ?_⟩
    · rcases (h.isNumeral d).isDigit_or_isMark c hc with hdigit | hmark
      · exact Readout.not_isAlpha_of_isDigit hdigit
      · exact Readout.not_isAlpha_of_isMark hmark
    · rintro rfl
      cases h.die_free d _ hc
  induction dice with
  | nil => simp
  | cons d dice ih =>
    cases dice with
    | nil => simpa using hdie d
    | cons e dice =>
      have hcomma : ∀ c ∈ (", " : String).toList, c.isAlpha = false ∧ c ≠ ')' :=
        List.all_iff_forall_prop.1 (by decide)
      rw [List.map_cons, List.map_cons, String.intercalate_cons_cons, ← List.map_cons,
        String.toList_append, String.toList_append]
      exact List.forall_mem_append.2 ⟨List.forall_mem_append.2 ⟨hdie d, hcomma⟩, ih⟩

/-! ### Groups -/

/-- What a line has of a group and its dice. -/
def shownGroup (g : Group) (dice : List Die) : ShownGroup := ⟨g.sign, g.text, dice.map Die.value⟩

/-- What stands before a group: no brackets, no letters or digits, and a minus if it is
subtracted. -/
theorem lead_free (place : Nat) (sign : Sign) :
    '(' ∉ (Style.lead place sign).toList ∧ ')' ∉ (Style.lead place sign).toList ∧
      (Style.lead place sign).toList.filter Char.isAlphanum = [] ∧
      ('-' ∈ (Style.lead place sign).toList ↔ sign = .minus) := by
  rw [Style.lead.eq_def]
  cases sign <;> split <;> decide +kernel

/-- What stands before the bracket that has the dice of a group. -/
def bracketLead (place : Nat) (g : Group) : List Char :=
  (Style.lead place g.sign).toList ++ (g.text.toList ++ [' '])

theorem not_mem_bracketLead {place : Nat} {g : Group} {c : Char}
    (hlead : c ∉ (Style.lead place g.sign).toList) (hc : c.isAlphanum = false) (hblank : c ≠ ' ') :
    c ∉ bracketLead place g := by
  have htext : c ∉ g.text.toList := fun hmem => by
    rw [isAlphanum_of_mem_text g hmem] at hc
    cases hc
  simp [bracketLead, hlead, htext, hblank]

/-- The group and its sign are read off what stands before the bracket. -/
theorem read_bracketLead (place : Nat) (g : Group) :
    (if '-' ∈ bracketLead place g then Sign.minus else .plus) = g.sign ∧
      String.ofList ((bracketLead place g).filter Char.isAlphanum) = g.text := by
  obtain ⟨-, -, halnum, hminus⟩ := lead_free place g.sign
  constructor
  · cases hsign : g.sign with
    | plus =>
      refine if_neg (not_mem_bracketLead (fun hmem => ?_) rfl (by decide))
      rw [hminus, hsign] at hmem
      cases hmem
    | minus => exact if_pos (List.mem_append_left _ (hminus.2 hsign))
  · rw [bracketLead, List.filter_append, List.filter_append, halnum,
      List.filter_eq_self.2 fun c => isAlphanum_of_mem_text g]
    simp

/-- The bracket behind a group is about the group. -/
theorem Style.Legible.shownGroup?_eq {style : Style} (h : style.Legible) (place : Nat) (g : Group)
    (dice : List Die) :
    shownGroup? (bracketLead place g ++
      '(' :: (String.intercalate ", " (dice.map style.die)).toList) = some (shownGroup g dice) := by
  obtain ⟨hsign, htext⟩ := read_bracketLead place g
  have hopen : '(' ∉ bracketLead place g :=
    not_mem_bracketLead (lead_free place g.sign).1 rfl (by decide)
  have hletters : (String.intercalate ", " (dice.map style.die)).toList.any Char.isAlpha = false :=
    List.any_eq_false.2 fun c hc => by simp [(h.dice_free dice c hc).1]
  have hdice := h.shownNumbers_dice [] (by simp) dice
  rw [List.nil_append] at hdice
  rw [shownGroup?_opened hopen, hletters, if_neg (by simp), hdice, hsign, htext, shownGroup]

/-- The note that names the mode is about no group. -/
theorem showsGroups_mode (mode : Mode) :
    ShowsGroups (if mode = .normal then "" else " (" ++ mode.label ++ ")").toList [] := by
  have hnote : ∀ word : List Char, ')' ∉ word → shownGroup? word = none →
      ShowsGroups (word ++ [')']) [] := fun word hclose hnone => by
    have hclosed := showsGroups_closed hclose
    rwa [hnone] at hclosed
  cases mode with
  | normal => exact showsGroups_nil
  | advantage => exact hnote " (advantage".toList (by decide) (by decide +kernel)
  | disadvantage => exact hnote " (disadvantage".toList (by decide) (by decide +kernel)

/-- **A group is shown with its sign and its dice.** -/
theorem Style.Legible.showsGroups_group {style : Style} (h : style.Legible) (place : Nat)
    (g : Group) (dice : List Die) (mode : Mode) :
    ShowsGroups (Style.lead place g.sign ++ style.group g dice mode).toList
      [shownGroup g dice] := by
  have hclose : ')' ∉ bracketLead place g ++
      '(' :: (String.intercalate ", " (dice.map style.die)).toList := by
    rw [List.mem_append, List.mem_cons, not_or, not_or]
    exact ⟨not_mem_bracketLead (lead_free place g.sign).2.1 rfl (by decide), by decide,
      fun hc => (h.dice_free dice _ hc).2 rfl⟩
  have hgroup := (showsGroups_closed hclose).append (showsGroups_mode mode)
  rw [h.shownGroup?_eq, Option.toList_some, List.append_nil] at hgroup
  simpa [Style.group, bracketLead] using hgroup

/-- Groups that stand one after another are shown one after another. -/
theorem Style.Legible.showsGroups_entries {style : Style} (h : style.Legible) (r : Roll)
    (es : List ((Group × List Die) × Nat)) :
    ShowsGroups (es.flatMap fun e =>
        (Style.lead e.2 e.1.1.sign ++ style.group e.1.1 e.1.2 (r.groupMode e.2)).toList)
      (es.map fun e => shownGroup e.1.1 e.1.2) := by
  induction es with
  | nil => exact showsGroups_nil
  | cons e es ih => exact (h.showsGroups_group e.2 e.1.1 e.1.2 (r.groupMode e.2)).append ih

theorem isDivider_eq_false {c : Char} (h : c ≠ '(' ∧ c ≠ ')' ∧ c ≠ ',') : isDivider c = false := by
  simp [isDivider, h]

theorem not_isDivider_of_isDigit {c : Char} (h : c.isDigit = true) : isDivider c = false := by
  refine isDivider_eq_false ⟨?_, ?_, ?_⟩ <;> rintro rfl <;> cases h

theorem not_isDivider_of_mem_toString {x : Int} {c : Char} (hc : c ∈ (toString x).toList) :
    isDivider c = false := by
  rcases mem_toString hc with rfl | hdigit
  · rfl
  · exact not_isDivider_of_isDigit hdigit

theorem not_isDivider_of_mem_modifier {m : Int} {c : Char} (hc : c ∈ (Style.modifier m).toList) :
    isDivider c = false := by
  have hsigns : ∀ c ∈ (" + " : String).toList ++ (" - " : String).toList, isDivider c = false :=
    List.all_iff_forall_prop.1 (by decide)
  rw [Style.modifier] at hc
  split at hc
  · rw [String.toList_append, List.mem_append] at hc
    exact hc.elim (fun hc => hsigns c (List.mem_append_left _ hc)) not_isDivider_of_mem_toString
  · split at hc
    · rw [String.toList_append, List.mem_append] at hc
      exact hc.elim (fun hc => hsigns c (List.mem_append_right _ hc)) not_isDivider_of_mem_toString
    · cases hc

/-- **A line shows the groups of the formula with the dice of the roll.** -/
theorem Style.Legible.shows {style : Style} (h : style.Legible) (f : Formula) (r : Roll) :
    style.Shows f r := by
  have hfree : ∀ c ∈ (Style.modifier r.modifier ++ style.total r).toList, isDivider c = false := by
    intro c hc
    rw [String.toList_append, List.mem_append] at hc
    exact hc.elim not_isDivider_of_mem_modifier (h.total_free r c)
  have hnone : groupsShownIn (Style.modifier r.modifier ++ style.total r).toList = [] :=
    groupsShownIn_of_not_mem (fun hc => by cases hfree _ hc) fun hc => by cases hfree _ hc
  have hline : (style.render f r).toList = ((Style.placed f r).flatMap fun e =>
      (Style.lead e.2 e.1.1.sign ++ style.group e.1.1 e.1.2 (r.groupMode e.2)).toList) ++
        (Style.modifier r.modifier ++ style.total r).toList := by
    rw [Style.render, String.append_assoc, String.toList_append, String.toList_join,
      List.flatMap_map]
  have hgroups : shownGroups (style.render f r) =
      (f.groups.zip r.pools).map fun p => shownGroup p.1 p.2 := by
    rw [shownGroups, hline, h.showsGroups_entries, hnone, List.append_nil,
      ← List.zipIdx_map_fst 0 (f.groups.zip r.pools), List.map_map]
    rfl
  refine ⟨?_, hgroups⟩
  rw [hgroups, List.length_map, List.length_zip, Roll.pools, List.length_map]

/-- Dice that are struck out or bold are shown, and the note on the mode is no group. -/
example : shownGroups "-1d20 (~~**20**~~, 8) (disadvantage) + 2d6kh1 () + 5 = `-3`" =
    [⟨.minus, "1d20", [20, 8]⟩, ⟨.plus, "2d6kh1", []⟩] := by
  decide +kernel

/-! ### The two styles -/

theorem Style.legible_plain : Style.plain.Legible where
  isNumeral d := by
    show Readout.IsNumeral (toString d.value).toList d.value
    simpa using Readout.isNumeral_toDigits d.value
  die_free d c hc := by
    have hc : c ∈ (toString d.value).toList := hc
    rw [Nat.toString_eq_repr, Nat.toList_repr] at hc
    exact not_isDivider_of_isDigit (Readout.isDigit_of_mem_toDigits hc)
  total_free r c hc := by
    have hc : c ∈ (" = " ++ toString r.total).toList := hc
    have hequals : ∀ c ∈ (" = " : String).toList, isDivider c = false :=
      List.all_iff_forall_prop.1 (by decide)
    rw [String.toList_append, List.mem_append] at hc
    exact hc.elim (hequals c) not_isDivider_of_mem_toString

/-- Markup divides nothing. -/
theorem not_isDivider_of_unmarked {s : String}
    (h : ∀ c ∈ (unmarked s).toList, isDivider c = false) : ∀ c ∈ s.toList, isDivider c = false := by
  intro c hc
  cases hmarkup : isMarkup c with
  | true =>
    refine isDivider_eq_false ⟨?_, ?_, ?_⟩ <;> rintro rfl <;> cases hmarkup
  | false =>
    refine h c ?_
    rw [unmarked, String.toList_ofList, List.mem_filter, hmarkup]
    exact ⟨hc, rfl⟩

theorem Style.legible_markdown : Style.markdown.Legible where
  isNumeral d :=
    ⟨Readout.dieMarks d, (Readout.dieMarks d).reverse, Readout.toList_markdownDie d,
      fun _ => Readout.isMark_of_mem_dieMarks,
      fun _ hc => Readout.isMark_of_mem_dieMarks (List.mem_reverse.1 hc)⟩
  die_free d := by
    refine not_isDivider_of_unmarked ?_
    rw [unmarked_die]
    exact legible_plain.die_free d
  total_free r := by
    have hbanner : ∀ c ∈ r.banner.toList, isDivider c = false := by
      refine List.all_iff_forall_prop.1 ?_
      rcases banner_cases r with hbanner | hbanner | hbanner <;> rw [hbanner] <;> decide
    refine not_isDivider_of_unmarked ?_
    rw [unmarked_total, String.toList_append]
    exact List.forall_mem_append.2 ⟨legible_plain.total_free r, hbanner⟩

/-- **Markdown adds markup and nothing else.**  Of any formula and any roll, a line in Markdown
without its markup is the plain line and, behind it, the name of a critical or of a fumble, which is
there exactly where the roll is one.  Both lines show the groups of the formula with the dice of the
roll, as many as there are of both. -/
theorem markdown_adds_markup (f : Formula) (r : Roll) :
    unmarked (Style.markdown.render f r) = Style.plain.render f r ++ r.banner ∧
      (" Critical!".toList <:+ (unmarked (Style.markdown.render f r)).toList ↔
        r.critical = true) ∧
      (" Fumble!".toList <:+ (unmarked (Style.markdown.render f r)).toList ↔
        r.critical = false ∧ r.fumble = true) ∧
      Style.plain.Shows f r ∧ Style.markdown.Shows f r := by
  refine ⟨unmarked_render f r, ?_, ?_, Style.legible_plain.shows f r,
    Style.legible_markdown.shows f r⟩
  · rw [suffix_iff_banner_eq f r (.inl rfl), banner_eq_critical_iff]
  · rw [suffix_iff_banner_eq f r (.inr rfl), banner_eq_fumble_iff]

end Dicebag
