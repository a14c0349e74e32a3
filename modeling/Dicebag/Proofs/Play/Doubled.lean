import Dicebag.Proofs.Formula.Position
import Dicebag.Proofs.Play.Attack

/-!
# Doubled formulas as texts

The formula for damage on a critical hit is made from one that was read, without reading another
text.  It has a canonical spelling of its own, and that is not always the spelling of a formula:
doubling can go beyond the number of dice that a group may have.

* As long as it does not, doubled formulas are well formed, and are read back like any other
  (`wellFormed_doubled`).
* Otherwise reading stops at the first group with too many dice.  What is written before it is
  accepted, for it is a line of pieces that are all within the limits
  (`readTerms_append_of_writesTerms`), so that the error is about the dice token of that group
  (`exists_tokens_of_pieces`).

`parse_doubled` puts these together.
-/

set_option autoImplicit false

namespace Dicebag

/-! ## Reading on after terms -/

/-- **Reading goes on after terms that are within the limits.** -/
theorem readTerms_append_of_writesTerms {stop : Nat} {sign next : Sign} {taken : Bool}
    {ts us : List Token} {u : Token} {terms : List Term} (h : WritesTerms sign ts terms)
    (hallowed : ∀ term ∈ terms, term.Allowed) (honce : constantCount taken terms ≤ 1)
    (hsign : u.kind.sign? = some next) :
    readTerms stop sign taken (ts ++ u :: us) =
      ⟨terms ++ (readTerms stop next (taken || terms.any Term.isConstant) us).terms,
        (readTerms stop next (taken || terms.any Term.isConstant) us).error⟩ := by
  induction h generalizing taken with
  | @last sign ts term h =>
    obtain ⟨t, rest, happ, hread⟩ :=
      readTerm_of_writesTerm h (hallowed term (by simp)) (not_taken_of_constantCount honce)
        (noKeep_of_sign hsign us)
    rw [happ, readTerms_more hread hsign, List.any_cons, List.any_nil, Bool.or_false]
    rfl
  | @more sign other ts vs v term terms h hother _ ih =>
    have htaken := not_taken_of_constantCount honce
    obtain ⟨t, rest, happ, hread⟩ :=
      readTerm_of_writesTerm h (hallowed term (by simp)) htaken
        (noKeep_of_sign hother (vs ++ u :: us))
    rw [constantCount_cons _ fun ht => by simpa [ht] using htaken] at honce
    rw [List.append_assoc, List.cons_append, happ, readTerms_more hread hother,
      ih (fun x hx => hallowed x (by simp [hx])) honce, List.any_cons, Bool.or_assoc]
    rfl

theorem readTerms_of_count {stop : Nat} {sign : Sign} {taken : Bool} {t : Token}
    (hkind : t.kind = .dice) (hcount : ¬Group.CountInRange t.count) (us : List Token) :
    readTerms stop sign taken (t :: us) = ⟨[], some (.countOutOfRange t.excerpt t.count)⟩ := by
  refine readTerms_of_error ?_
  rw [readTerm, hkind]
  exact if_pos hcount

/-! ## A group in a line of pieces -/

theorem toList_line_append (p q : Piece) (ps qs : List Piece) :
    (Piece.line p (ps ++ q :: qs)).toList =
      (Piece.line p ps).toList ++ (q.sign.symbol.toList ++ (Piece.line q qs).toList) := by
  simp [Piece.line, Piece.signedText]

theorem apart_symbol (cs : List Char) (sign : Sign) (rest : List Char) :
    Apart cs (sign.symbol.toList ++ rest) := by
  cases sign <;> exact apart_of_head rfl

theorem signNext_join (ps : List Piece) :
    SignNext (String.join (ps.map Piece.signedText)).toList := by
  cases ps with
  | nil => simp [SignNext]
  | cons p ps =>
    rw [List.map_cons, String.join_cons, Piece.signedText, String.append_assoc,
      String.toList_append]
    exact signNext_symbol p.sign _

/-- The dice token of a group is a token by itself, whatever pieces come after the group. -/
theorem exists_lexes_dice (g : Group) (ps : List Piece) (start : Nat) :
    ∃ us, Lexes start (Piece.line (.dice g) ps).toList (⟨.dice, g.diceChars, start⟩ :: us) := by
  have htext : (Piece.dice g).text = g.text := rfl
  rw [Piece.line, String.toList_append, htext, toList_group_text, List.append_assoc]
  refine ⟨_, .take (longest_diceChars g ?_) (lexes_tokensFrom _ _)⟩
  cases g.keep with
  | none => exact (signNext_join ps).noDigit
  | some k => exact noDigit_keep k _

/-- The dice token of the group, where it comes after these characters. -/
def Group.diceToken (g : Group) (front : List Char) : Token :=
  ⟨.dice, g.diceChars, Text.byteLength front⟩

/-- The count of a token, where the group does not have more dice than a count can be. -/
theorem count_diceToken {g : Group} (h : g.count ≤ Digits.greatest) (front : List Char) :
    (g.diceToken front).count = g.count :=
  (count_of_writesDice (writesDice_diceChars g)).trans (Nat.min_eq_left h)

/-- A term that begins with the dice token of a group with too many dice is not accepted. -/
theorem readTerms_diceToken {g : Group} (hmost : g.count ≤ Digits.greatest)
    (hcount : ¬Group.CountInRange g.count) (stop : Nat) (sign : Sign) (taken : Bool)
    (front : List Char) (us : List Token) :
    readTerms stop sign taken (g.diceToken front :: us) =
      ⟨[], some (.countOutOfRange (g.diceToken front).excerpt g.count)⟩ := by
  have hread := count_diceToken hmost front
  rw [readTerms_of_count rfl (by rwa [hread]), hread]

/-- **Reading a line of pieces up to a group with too many dice.**  The pieces before the group are
accepted, and the dice token of the group is not. -/
theorem exists_tokens_of_pieces {p : Piece} {ps before after : List Piece} {g : Group}
    (hpieces : p :: ps = before ++ .dice g :: after) (hplus : p.sign = .plus)
    (hallowed : ∀ term : Term, term.piece ∈ before → term.Allowed)
    (honce : (before.filterMap Piece.constant?).length ≤ 1)
    (hmost : g.count ≤ Digits.greatest) (hcount : ¬Group.CountInRange g.count) :
    ∃ front ts us terms, (Piece.line p ps).toList = front ++ (Piece.line (.dice g) after).toList ∧
      Lexes 0 (Piece.line p ps).toList (ts ++ g.diceToken front :: us) ∧
      terms.map Term.piece = before ∧
      ∀ stop, readTerms stop .plus false (ts ++ g.diceToken front :: us) =
        ⟨terms, some (.countOutOfRange (g.diceToken front).excerpt g.count)⟩ := by
  have hstops := readTerms_diceToken hmost hcount
  cases before with
  | nil =>
    rw [List.nil_append, List.cons.injEq] at hpieces
    obtain ⟨rfl, rfl⟩ := hpieces
    obtain ⟨us, hlexes⟩ := exists_lexes_dice g ps 0
    exact ⟨[], [], us, [], (List.nil_append _).symm, hlexes, rfl, fun stop => hstops stop _ _ [] us⟩
  | cons q qs =>
    rw [List.cons_append, List.cons.injEq] at hpieces
    obtain ⟨rfl, rfl⟩ := hpieces
    obtain ⟨ts, terms, hlexes, hwrites, hterms⟩ := lexes_line p qs 0
    rw [hplus] at hwrites
    have hline : (Piece.line p (qs ++ .dice g :: after)).toList = (Piece.line p qs).toList ++
        (g.sign.symbol.toList ++ (Piece.line (.dice g) after).toList) :=
      toList_line_append p (.dice g) qs after
    obtain ⟨u, hu, hsymbol⟩ := lexes_symbol g.sign (0 + Text.byteLength (Piece.line p qs).toList)
      (Piece.line (.dice g) after).toList
    obtain ⟨us, hdice⟩ : ∃ us, Lexes _ _ (g.diceToken _ :: us) := exists_lexes_dice g after
      (Text.byteLength ((Piece.line p qs).toList ++ g.sign.symbol.toList))
    have hstart : 0 + Text.byteLength (Piece.line p qs).toList +
        Text.byteLength g.sign.symbol.toList =
        Text.byteLength ((Piece.line p qs).toList ++ g.sign.symbol.toList) := by
      rw [Text.byteLength_append, Nat.zero_add]
    rw [hstart] at hsymbol
    refine ⟨(Piece.line p qs).toList ++ g.sign.symbol.toList, ts ++ [u], us, terms, ?_, ?_, hterms,
      fun stop => ?_⟩
    · rw [List.append_assoc]
      exact hline
    · rw [hline, List.append_assoc, List.singleton_append]
      exact hlexes.append (hsymbol _ hdice) (apart_symbol _ _ _)
    · have hconstants : constantCount false terms ≤ 1 := by
        rw [constantCount, countP_isConstant, ← filterMap_constant?_piece, hterms]
        exact honce
      rw [List.append_assoc, List.singleton_append, readTerms_append_of_writesTerms hwrites
        (fun term hterm => hallowed term (hterms ▸ List.mem_map_of_mem hterm)) hconstants hu,
        hstops, List.append_nil]

/-- A line of pieces is not blank. -/
theorem trim_line_ne_empty (p : Piece) (ps : List Piece) : Text.trim (Piece.line p ps) ≠ "" := by
  obtain ⟨ts, terms, hlexes, hwrites, -⟩ := lexes_line p ps 0
  exact trim_ne_empty hlexes hwrites

theorem slice_diceToken (g : Group) (front : List Char) :
    (g.diceToken front).excerpt.slice = toString g.count ++ "d" ++ toString g.sides := by
  rw [← String.toList_inj]
  simp [Token.excerpt, Group.diceToken, Group.diceChars]

/-- **A line of pieces is refused for the first group with too many dice**, and the error is about
its dice token. -/
theorem parse_line_of_count {p : Piece} {ps before after : List Piece} {g : Group}
    (hpieces : p :: ps = before ++ .dice g :: after) (hplus : p.sign = .plus)
    (hallowed : ∀ term : Term, term.piece ∈ before → term.Allowed)
    (honce : (before.filterMap Piece.constant?).length ≤ 1)
    (hmost : g.count ≤ Digits.greatest) (hcount : ¬Group.CountInRange g.count) :
    ∃ x front back, parse (Piece.line p ps) = .error (.countOutOfRange x g.count) ∧
      x.slice = toString g.count ++ "d" ++ toString g.sides ∧
      x.CutFrom (Piece.line p ps) front ∧ Piece.line p ps = front ++ g.text ++ back := by
  obtain ⟨front, ts, us, terms, hline, hlexes, -, hread⟩ :=
    exists_tokens_of_pieces hpieces hplus hallowed honce hmost hcount
  have hslice := slice_diceToken g front
  have htext : Piece.line p ps = String.ofList front ++ g.text ++
      String.join (after.map Piece.signedText) := by
    rw [← String.toList_inj, hline, Piece.line]
    simp [Piece.text]
  obtain ⟨tail, htail⟩ : ∃ tail, g.text = (g.diceToken front).excerpt.slice ++ tail := by
    rw [hslice]
    exact ⟨_, rfl⟩
  have hcut : (g.diceToken front).excerpt.CutFrom (Piece.line p ps) (String.ofList front) := by
    refine cutFrom_of_split (tail ++ String.join (after.map Piece.signedText)) ?_ ?_ ?_
    · rw [htext, htail, String.append_assoc, String.append_assoc, String.append_assoc]
    · rw [Text.utf8ByteSize_eq, String.toList_ofList]
      rfl
    · rw [String.utf8ByteSize_append, Text.utf8ByteSize_eq, Text.utf8ByteSize_eq,
        String.toList_ofList, Token.excerpt, String.toList_ofList]
      rfl
  refine ⟨_, String.ofList front, _, ?_, hslice, hcut, htext⟩
  rw [parse_eq_error_iff_formula, formula_eq_error_iff,
    ofText_of_lexes (trim_line_ne_empty p ps) hlexes, hread]
  exact .inl rfl

/-! ## Doubled groups within the limits -/

/-- The most dice that a group can have for its double to be within the limits. -/
def Group.mostDoubled : Nat := 50

theorem Group.WellFormed.wellFormed_doubled {g : Group} (h : g.WellFormed)
    (hmost : g.count ≤ Group.mostDoubled) : g.doubled.WellFormed := by
  obtain ⟨hleast, -⟩ := h.count
  rw [Group.mostDoubled] at hmost
  rw [Group.minCount] at hleast
  rw [h.doubled_eq]
  refine ⟨⟨?_, ?_⟩, h.sides, fun k hk => ?_⟩
  · show 1 ≤ 2 * g.count
    omega
  · show 2 * g.count ≤ 100
    omega
  · obtain ⟨k', hk', rfl⟩ := Option.map_eq_some_iff.1 hk
    obtain ⟨hone, hamount⟩ := h.keep k' hk'
    show 1 ≤ 2 * k'.amount ∧ 2 * k'.amount ≤ 2 * g.count
    omega

theorem Group.WellFormed.count_doubled {g : Group} (h : g.WellFormed) :
    g.doubled.count = 2 * g.count := congrArg Group.count h.doubled_eq

theorem sign_first_doubled (f : Formula) : f.doubled.first.sign = f.first.sign := by
  obtain ⟨groups, constant, hne⟩ := f
  obtain ⟨g, gs, rfl⟩ := List.exists_cons_of_ne_nil hne
  rfl

theorem Formula.WellFormed.wellFormed_doubled {f : Formula} (h : f.WellFormed)
    (hmost : ∀ g ∈ f.groups, g.count ≤ Group.mostDoubled) : f.doubled.WellFormed where
  groups := List.forall_mem_map.2 fun g hg => (h.groups g hg).wellFormed_doubled (hmost g hg)
  constant := h.constant
  leading := by
    rw [sign_first_doubled]
    exact h.leading

/-! ## The pieces of a doubled formula -/

/-- A piece of the doubled formula: a group is doubled, and a constant is not. -/
def Piece.doubled : Piece → Piece
  | dice group => .dice group.doubled
  | constant sign amount => .constant sign amount

theorem pieces_doubled (f : Formula) : f.doubled.pieces = f.pieces.map Piece.doubled := by
  have hgroups : f.doubled.groups.map Piece.dice = (f.groups.map Piece.dice).map Piece.doubled := by
    rw [Formula.doubled, List.map_map, List.map_map]
    rfl
  rw [Formula.pieces, Formula.pieces, sign_first_doubled, hgroups]
  cases f.first.sign with
  | minus => rfl
  | plus =>
    have hconstant : f.doubled.constant = f.constant := rfl
    dsimp only
    rw [List.map_append, hconstant]
    split <;> rfl

theorem filterMap_constant?_doubled (ps : List Piece) :
    (ps.map Piece.doubled).filterMap Piece.constant? = ps.filterMap Piece.constant? := by
  rw [List.filterMap_map]
  congr 1
  funext p
  cases p <;> rfl

/-- The pieces before a group are those of the groups before it, and perhaps the constant. -/
theorem exists_pieces_of_groups {f : Formula} {gs hs : List Group} {g : Group}
    (h : f.groups = gs ++ g :: hs) :
    ∃ before after : List Piece, f.pieces = before ++ .dice g :: after ∧
      before.filterMap Piece.group? = gs := by
  have hpieces := filterMap_group?_pieces f
  rw [h, List.filterMap_eq_append_iff] at hpieces
  obtain ⟨front, back, hsplit, hfront, hback⟩ := hpieces
  obtain ⟨others, p, after, rfl, hothers, hp, -⟩ := List.filterMap_eq_cons_iff.1 hback
  obtain rfl : p = .dice g := by
    cases p with
    | dice group =>
      cases hp
      rfl
    | constant sign amount => cases hp
  refine ⟨front ++ others, after, by rw [hsplit, List.append_assoc], ?_⟩
  rw [List.filterMap_append, hfront, List.filterMap_eq_nil_iff.2 hothers, List.append_nil]

/-- A term of the doubled formula is within the limits if its group is. -/
theorem allowed_doubled {f : Formula} (h : f.WellFormed) {p : Piece} (hp : p ∈ f.pieces)
    (hmost : ∀ g, p = .dice g → g.count ≤ Group.mostDoubled) {term : Term}
    (hterm : term.piece = p.doubled) : term.Allowed := by
  cases p with
  | dice g =>
    cases term with
    | dice group span =>
      cases hterm
      have hg : g ∈ f.pieces.filterMap Piece.group? := List.mem_filterMap.2 ⟨_, hp, rfl⟩
      rw [filterMap_group?_pieces] at hg
      exact (h.groups g hg).wellFormed_doubled (hmost g rfl)
    | constant sign amount span => cases hterm
  | constant sign amount => exact allowed_of_mem_pieces h (hterm ▸ hp)

/-! ## Reading a doubled formula -/

/-- **A doubled formula is refused for the first group that has too many dice.** -/
theorem parse_doubled_of_find? {f : Formula} (h : f.WellFormed) {g : Group}
    (hfind : f.groups.find? (fun g => Group.mostDoubled < g.count) = some g) :
    ∃ x front back, parse f.doubled.text = .error (.countOutOfRange x (2 * g.count)) ∧
      x.slice = toString (2 * g.count) ++ "d" ++ toString g.sides ∧
      x.CutFrom f.doubled.text front ∧ f.doubled.text = front ++ g.doubled.text ++ back := by
  obtain ⟨hmany, gs, hs, hgroups, hfew⟩ := List.find?_eq_some_iff_append.1 hfind
  have hwf : g.WellFormed := h.groups g (by rw [hgroups]; simp)
  obtain ⟨before, after, hpieces, hbefore⟩ := exists_pieces_of_groups hgroups
  obtain ⟨p, ps, hdoubled, hplus, htext⟩ := text_eq_line (f := f.doubled) (by
    rw [sign_first_doubled]
    exact h.leading)
  have hsplit : p :: ps = before.map Piece.doubled ++
      .dice g.doubled :: after.map Piece.doubled := by
    rw [← hdoubled, pieces_doubled, hpieces, List.map_append, List.map_cons]
    rfl
  have hallowed : ∀ term : Term, term.piece ∈ before.map Piece.doubled → term.Allowed := by
    intro term hterm
    obtain ⟨q, hq, heq⟩ := List.mem_map.1 hterm
    refine allowed_doubled h (hpieces ▸ List.mem_append_left _ hq) (fun g' hg' => ?_) heq.symm
    have hmem : g' ∈ gs := hbefore ▸ List.mem_filterMap.2 ⟨q, hq, by rw [hg']; rfl⟩
    simpa using hfew g' hmem
  have honce : ((before.map Piece.doubled).filterMap Piece.constant?).length ≤ 1 := by
    have hall : (f.pieces.filterMap Piece.constant?).length ≤ 1 := by
      rcases filterMap_constant?_pieces h.leading with hlist | ⟨hlist, -⟩ <;> simp [hlist]
    rw [hpieces, List.filterMap_append, List.length_append] at hall
    rw [filterMap_constant?_doubled]
    exact Nat.le_trans (Nat.le_add_right _ _) hall
  have hlimits : g.doubled.count ≤ Digits.greatest ∧ ¬Group.CountInRange g.doubled.count := by
    have hmany : 50 < g.count := of_decide_eq_true hmany
    have hmost : g.count ≤ 100 := hwf.count.2
    rw [hwf.count_doubled, Group.CountInRange, Group.maxCount, Digits.greatest]
    omega
  rw [htext, ← hwf.count_doubled]
  exact parse_line_of_count hsplit hplus hallowed honce hlimits.1 hlimits.2

/-- **A doubled formula is read back exactly if it is within the limits.**  If some group has more
than fifty dice, reading its canonical spelling stops at the dice token of the first such group,
with twice its count. -/
theorem parse_doubled {text : String} {w : Written} (h : parse text = .ok w) :
    w.doubled.raw = w.doubled.text ∧
      w.doubled.groups = w.groups.map (fun g =>
        ⟨g.sign, 2 * g.count, g.sides, g.keep.map fun k => ⟨k.mode, 2 * k.amount⟩⟩) ∧
      w.doubled.constant = w.constant ∧
      (parse w.doubled.raw = .ok w.doubled ↔ ∀ g ∈ w.groups, g.count ≤ 50) ∧
      ∀ g, w.groups.find? (fun g => 50 < g.count) = some g →
        ∃ x front back, parse w.doubled.raw = .error (.countOutOfRange x (2 * g.count)) ∧
          x.slice = toString (2 * g.count) ++ "d" ++ toString g.sides ∧
          x.CutFrom w.doubled.raw front ∧ w.doubled.raw = front ++ g.doubled.text ++ back := by
  have hwf := wellFormed_of_parse h
  refine ⟨rfl, hwf.groups_doubled, rfl, ⟨fun hok => ?_, fun hfew => ?_⟩,
    fun g hfind => parse_doubled_of_find? hwf hfind⟩
  · intro g hg
    have hcount := ((wellFormed_of_parse hok).groups g.doubled (List.mem_map_of_mem hg)).count.2
    rw [(hwf.groups g hg).count_doubled, Group.maxCount] at hcount
    omega
  · exact parse_text (hwf.wellFormed_doubled hfew)

/-- The formula `2d6+51d4kh3-60d8+1`, of which two groups are too many dice to double. -/
def Written.crowded : Written where
  groups := [⟨.plus, 2, 6, none⟩, ⟨.plus, 51, 4, some ⟨.highest, 3⟩⟩, ⟨.minus, 60, 8, none⟩]
  constant := 1
  raw := "2d6+51d4kh3-60d8+1"

/-- The error is about the first of the two groups. -/
theorem parse_doubled_crowded :
    parse "2d6+51d4kh3-60d8+1" = .ok .crowded ∧
      Written.crowded.doubled.raw = "4d6+102d4kh6-120d8+1" ∧
      ∃ x front back, parse Written.crowded.doubled.raw = .error (.countOutOfRange x 102) ∧
        x.slice = "102d4" ∧ x.CutFrom Written.crowded.doubled.raw front ∧
        Written.crowded.doubled.raw = front ++ "102d4kh6" ++ back := by
  have hparse : parse "2d6+51d4kh3-60d8+1" = .ok .crowded := by decide +kernel
  obtain ⟨-, -, -, -, hrefused⟩ := parse_doubled hparse
  obtain ⟨x, front, back, herror, hslice, hcut, hsplit⟩ :=
    hrefused ⟨.plus, 51, 4, some ⟨.highest, 3⟩⟩ (by decide +kernel)
  have htoken : toString (2 * 51) ++ "d" ++ toString 4 = "102d4" := by decide +kernel
  have htext : (⟨.plus, 51, 4, some ⟨.highest, 3⟩⟩ : Group).doubled.text = "102d4kh6" := by
    decide +kernel
  rw [htext] at hsplit
  exact ⟨hparse, by decide +kernel, x, front, back, herror, hslice.trans htoken, hcut, hsplit⟩

end Dicebag
