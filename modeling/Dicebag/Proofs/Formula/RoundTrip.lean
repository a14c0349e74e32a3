import Dicebag.Proofs.Formula.Grammar

/-!
# The canonical spelling reads back

`Formula.text` spells a formula with its constant first or last and with a constant of zero left
out, and `parse` is to find the same formula again.  `Formula.WellFormed` says which formulas that
works for, and these are also the only ones that `parse` ever returns.

* A `Piece` is a term without its place in a text.  `Formula.pieces` lists the terms of the
  canonical spelling in the order in which they are written, so that both layouts are one line of
  pieces (`text_eq_line`).
* `lexes_line` cuts such a line into tokens that write the pieces.  A piece ends in a digit, and
  what comes after it is a sign or nothing, so no token reaches into the next one.
* In the other direction the walk starts with a plus, so a formula whose first group is subtracted
  has its constant before that group, and no other (`leading_of_writesTerms`).
-/

set_option autoImplicit false

namespace Dicebag

/-! ## Pieces -/

/-- A term without its place in a text. -/
inductive Piece
  /-- A dice group. -/
  | dice (group : Group)
  /-- A constant. -/
  | constant (sign : Sign) (amount : Nat)
deriving DecidableEq, Repr

/-- The term without its place. -/
def Term.piece : Term → Piece
  | dice group _ => .dice group
  | constant sign amount _ => .constant sign amount

namespace Piece

/-- The sign of a piece. -/
def sign : Piece → Sign
  | dice group => group.sign
  | constant sign _ => sign

/-- The piece as it is written after its sign. -/
def text : Piece → String
  | dice group => group.text
  | constant _ amount => toString amount

/-- The piece after its sign. -/
def signedText (p : Piece) : String := p.sign.symbol ++ p.text

/-- The group of a piece. -/
def group? : Piece → Option Group
  | dice group => some group
  | constant .. => none

/-- The value of a constant, with its sign. -/
def constant? : Piece → Option Int
  | dice .. => none
  | constant sign amount => some (sign.apply amount)

/-- A line of pieces; the first goes without its sign. -/
def line (p : Piece) (ps : List Piece) : String := p.text ++ String.join (ps.map signedText)

end Piece

theorem filterMap_group?_piece (terms : List Term) :
    (terms.map Term.piece).filterMap Piece.group? = terms.filterMap Term.group? := by
  rw [List.filterMap_map]
  congr 1
  funext term
  cases term <;> rfl

theorem filterMap_constant?_piece (terms : List Term) :
    (terms.map Term.piece).filterMap Piece.constant? = terms.filterMap Term.constant? := by
  rw [List.filterMap_map]
  congr 1
  funext term
  cases term <;> rfl

/-! ## Numbers as they are written -/

theorem isDigits_toDigits (n : Nat) : IsDigits (Nat.toDigits 10 n) :=
  ⟨Nat.toDigits_ne_nil, fun _ hc => Nat.isDigit_of_mem_toDigits (by decide) (by decide) hc⟩

theorem value_toDigits (n : Nat) : Digits.value (Nat.toDigits 10 n) = n :=
  Nat.ofDigitChars_ten_toDigits

/-! ## The tokens of a piece -/

/-- The text ends, or goes on with a sign. -/
def SignNext (cs : List Char) : Prop := ∀ c ∈ cs.head?, c = '+' ∨ c = '-'

theorem SignNext.noDigit {cs : List Char} (h : SignNext cs) : NoDigit cs := by
  intro c hc
  rcases h c hc with rfl | rfl <;> decide

theorem SignNext.not_isDieLetter {cs : List Char} (h : SignNext cs) :
    ∀ c ∈ cs.head?, isDieLetter c = false := by
  intro c hc
  rcases h c hc with rfl | rfl <;> decide

/-- The letters of a keep suffix. -/
def KeepMode.letters : KeepMode → List Char
  | highest => ['k', 'h']
  | lowest => ['k', 'l']

theorem toList_keep_text (k : Keep) :
    k.text.toList = k.mode.letters ++ Nat.toDigits 10 k.amount := by
  obtain ⟨mode, amount⟩ := k
  cases mode <;> simp [Keep.text, KeepMode.letters]

/-- The dice token that a group is written with. -/
def Group.diceChars (g : Group) : List Char :=
  Nat.toDigits 10 g.count ++ 'd' :: Nat.toDigits 10 g.sides

theorem toList_group_text (g : Group) :
    g.text.toList = g.diceChars ++ (g.keep.elim [] fun k => k.text.toList) := by
  obtain ⟨sign, count, sides, keep⟩ := g
  cases keep <;> simp [Group.text, Group.diceChars]

theorem writesDice_diceChars (g : Group) : WritesDice g.diceChars g.count g.sides := by
  have hletter : isDieLetter 'd' = true := by decide
  have h := WritesDice.many (isDigits_toDigits g.count) hletter (isDigits_toDigits g.sides)
  rw [value_toDigits, value_toDigits] at h
  exact h

theorem longest_diceChars (g : Group) {rest : List Char} (hrest : NoDigit rest) :
    Longest (g.diceChars ++ rest) .dice g.diceChars rest := by
  refine longest_of_noDigit (by decide) ?_ (fun _ => hrest) (by simp)
  exact ⟨_, 'd', _, rfl, (isDigits_toDigits _).2, by decide, isDigits_toDigits _⟩

theorem keep_kind_admits (k : Keep) : k.mode.kind.Admits k.text.toList := by
  rw [toList_keep_text]
  obtain ⟨mode, amount⟩ := k
  cases mode with
  | highest => exact ⟨'k', 'h', _, rfl, by decide, by decide, isDigits_toDigits amount⟩
  | lowest => exact ⟨'k', 'l', _, rfl, by decide, by decide, isDigits_toDigits amount⟩

theorem writesKeep_text (k : Keep) : WritesKeep k.mode k.text.toList k.amount := by
  rw [toList_keep_text]
  obtain ⟨mode, amount⟩ := k
  have h : ∀ {m : Char}, keepLetterMode? m = some mode →
      WritesKeep mode ('k' :: m :: Nat.toDigits 10 amount) amount := by
    intro m hm
    have h := WritesKeep.intro (k := 'k') (by decide) hm (isDigits_toDigits amount)
    rwa [value_toDigits] at h
  cases mode with
  | highest => exact h (by decide)
  | lowest => exact h (by decide)

theorem longest_keep (k : Keep) {rest : List Char} (hrest : NoDigit rest) :
    Longest (k.text.toList ++ rest) k.mode.kind k.text.toList rest := by
  refine longest_of_noDigit ?_ (keep_kind_admits k) (fun _ => hrest) ?_
  · cases k.mode <;> decide
  · cases k.mode <;> simp [KeepMode.kind]

theorem noDigit_keep (k : Keep) (rest : List Char) : NoDigit (k.text.toList ++ rest) := by
  rw [toList_keep_text]
  cases k.mode <;> exact noDigit_cons.2 (by decide)

theorem longest_constant (n : Nat) {rest : List Char} (hrest : SignNext rest) :
    Longest (Nat.toDigits 10 n ++ rest) .integer (Nat.toDigits 10 n) rest :=
  longest_of_noDigit (by decide) (isDigits_toDigits n) (fun _ => hrest.noDigit)
    fun _ => hrest.not_isDieLetter

theorem writesTerm_of_keep_none {g : Group} (hkeep : g.keep = none) {t : Token}
    (hkind : t.kind = .dice) (hdice : WritesDice t.lexeme g.count g.sides) :
    WritesTerm g.sign [t] (.dice g t.span) := by
  obtain ⟨sign, count, sides, keep⟩ := g
  subst hkeep
  exact .dice hkind hdice

theorem writesTerm_of_keep_some {g : Group} {k : Keep} (hkeep : g.keep = some k) {t u : Token}
    (hkind : t.kind = .dice) (hdice : WritesDice t.lexeme g.count g.sides)
    (hmode : u.kind.keepMode? = some k.mode) (hamount : WritesKeep k.mode u.lexeme k.amount) :
    WritesTerm g.sign [t, u] (.dice g t.span) := by
  obtain ⟨sign, count, sides, keep⟩ := g
  subst hkeep
  exact .kept hkind hdice hmode hamount

/-- **A piece is cut off as the tokens that write it**, whatever sign comes after it. -/
theorem lexes_piece (p : Piece) (start : Nat) {rest : List Char} (hrest : SignNext rest) :
    ∃ used term, term.piece = p ∧ WritesTerm p.sign used term ∧
      ∀ ts, Lexes (start + Text.byteLength p.text.toList) rest ts →
        Lexes start (p.text.toList ++ rest) (used ++ ts) := by
  cases p with
  | dice g =>
    have htext : (Piece.dice g).text = g.text := rfl
    rw [htext, toList_group_text]
    cases hkeep : g.keep with
    | none =>
      refine ⟨[⟨.dice, g.diceChars, start⟩], .dice g _, rfl,
        writesTerm_of_keep_none hkeep rfl (writesDice_diceChars g), fun ts hts => ?_⟩
      rw [Option.elim_none, List.append_nil] at hts ⊢
      exact .take (longest_diceChars g hrest.noDigit) hts
    | some k =>
      have hmode : k.mode.kind.keepMode? = some k.mode := by cases k.mode <;> rfl
      refine ⟨[⟨.dice, g.diceChars, start⟩,
          ⟨k.mode.kind, k.text.toList, start + Text.byteLength g.diceChars⟩], .dice g _, rfl,
        writesTerm_of_keep_some hkeep rfl (writesDice_diceChars g) hmode (writesKeep_text k),
        fun ts hts => ?_⟩
      rw [Option.elim_some, Text.byteLength_append, ← Nat.add_assoc] at hts
      rw [Option.elim_some, List.append_assoc]
      exact .take (longest_diceChars g (noDigit_keep k rest))
        (.take (longest_keep k hrest.noDigit) hts)
  | constant sign n =>
    have htext : (Piece.constant sign n).text.toList = Nat.toDigits 10 n := by simp [Piece.text]
    rw [htext]
    refine ⟨[⟨.integer, Nat.toDigits 10 n, start⟩], .constant sign _ _, ?_, .constant rfl,
      fun ts hts => .take (longest_constant n hrest) hts⟩
    rw [Term.piece, value_toDigits]

/-- A sign is cut off as a token that stands for it. -/
theorem lexes_symbol (sign : Sign) (start : Nat) (rest : List Char) :
    ∃ u : Token, u.kind.sign? = some sign ∧
      ∀ ts, Lexes (start + Text.byteLength sign.symbol.toList) rest ts →
        Lexes start (sign.symbol.toList ++ rest) (u :: ts) := by
  cases sign with
  | plus =>
    exact ⟨⟨.plus, ['+'], start⟩, rfl, fun ts hts => .take (longest_of_noDigit (by decide) rfl
      (fun h => absurd rfl h.1) nofun) hts⟩
  | minus =>
    exact ⟨⟨.minus, ['-'], start⟩, rfl, fun ts hts => .take (longest_of_noDigit (by decide) rfl
      (fun h => absurd rfl h.2) nofun) hts⟩

theorem signNext_symbol (sign : Sign) (rest : List Char) :
    SignNext (sign.symbol.toList ++ rest) := by
  intro c hc
  cases sign with
  | plus => exact .inl (by simpa [Sign.symbol] using hc.symm)
  | minus => exact .inr (by simpa [Sign.symbol] using hc.symm)

theorem toList_line_cons (p q : Piece) (ps : List Piece) :
    (Piece.line p (q :: ps)).toList =
      p.text.toList ++ (q.sign.symbol.toList ++ (Piece.line q ps).toList) := by
  simp [Piece.line, Piece.signedText]

/-- **A line of pieces is cut into tokens that write them.** -/
theorem lexes_line (p : Piece) (ps : List Piece) (start : Nat) :
    ∃ ts terms, Lexes start (Piece.line p ps).toList ts ∧ WritesTerms p.sign ts terms ∧
      terms.map Term.piece = p :: ps := by
  induction ps generalizing p start with
  | nil =>
    have hnext : SignNext [] := by simp [SignNext]
    obtain ⟨used, term, rfl, hwrites, hlexes⟩ := lexes_piece p start hnext
    have h := hlexes [] .done
    refine ⟨used, [term], ?_, .last hwrites, rfl⟩
    simpa [Piece.line] using h
  | cons q ps ih =>
    rw [toList_line_cons]
    obtain ⟨used, term, rfl, hwrites, hlexes⟩ :=
      lexes_piece p start (signNext_symbol q.sign (Piece.line q ps).toList)
    obtain ⟨u, hu, hsymbol⟩ :=
      lexes_symbol q.sign (start + Text.byteLength term.piece.text.toList) (Piece.line q ps).toList
    obtain ⟨ts, terms, hts, hmore, hpieces⟩ := ih q _
    exact ⟨_, _, hlexes _ (hsymbol _ hts), .more hwrites hu hmore, by rw [List.map_cons, hpieces]⟩

/-! ## The canonical spelling as a line of pieces -/

/-- The pieces of the canonical spelling.  The constant comes first where the first group is
subtracted, and last otherwise, unless it is zero. -/
def Formula.pieces (f : Formula) : List Piece :=
  match f.first.sign with
  | .minus => .constant .plus f.constant.natAbs :: f.groups.map .dice
  | .plus =>
    f.groups.map .dice ++
      if f.constant = 0 then []
      else [.constant (if 0 ≤ f.constant then .plus else .minus) f.constant.natAbs]

theorem signed_eq (x : Int) :
    Total.signed x = Piece.signedText (.constant (if 0 ≤ x then .plus else .minus) x.natAbs) := by
  rw [Total.signed, Int.toString_eq_repr, Int.repr_eq_if]
  by_cases hx : 0 ≤ x
  · have habs : x.toNat = x.natAbs := by omega
    simp [hx, habs, Piece.signedText, Piece.sign, Piece.text, Sign.symbol]
  · have habs : (-x).toNat = x.natAbs := by omega
    simp [hx, habs, Piece.signedText, Piece.sign, Piece.text, Sign.symbol]

theorem signedText_dice (gs : List Group) :
    (gs.map Piece.dice).map Piece.signedText = gs.map Group.signedText := by
  rw [List.map_map]
  rfl

/-- **The canonical spelling is the line of the pieces**, if a constant in front is not negative. -/
theorem text_eq_line {f : Formula} (h : f.first.sign = .minus → 0 ≤ f.constant) :
    ∃ p ps, f.pieces = p :: ps ∧ p.sign = .plus ∧ f.text = Piece.line p ps := by
  obtain ⟨groups, constant, hne⟩ := f
  obtain ⟨g, gs, rfl⟩ := List.exists_cons_of_ne_nil hne
  rw [Formula.pieces, Formula.text]
  cases hsign : (⟨g :: gs, constant, hne⟩ : Formula).first.sign with
  | minus =>
    have hpos : 0 ≤ constant := h hsign
    have hconstant : toString constant = toString constant.natAbs := by
      rw [Int.toString_eq_repr, Int.repr_eq_if, if_pos hpos, Nat.toString_eq_repr]
      congr 1
      omega
    refine ⟨_, _, rfl, rfl, ?_⟩
    rw [Piece.line, signedText_dice]
    simp only [hconstant]
    rfl
  | plus =>
    refine ⟨.dice g, gs.map .dice ++ if constant = 0 then [] else
      [.constant (if 0 ≤ constant then .plus else .minus) constant.natAbs], rfl, hsign, ?_⟩
    show g.text ++ String.join (gs.map Group.signedText) ++
      (if constant = 0 then "" else Total.signed constant) = _
    rw [Piece.line, List.map_append, signedText_dice, String.join_append, ← String.append_assoc]
    by_cases hzero : constant = 0
    · simp [hzero, Piece.text]
    · simp [hzero, Piece.text, signed_eq]

theorem filterMap_group?_dice (gs : List Group) :
    (gs.map Piece.dice).filterMap Piece.group? = gs := by
  rw [List.filterMap_map]
  exact List.filterMap_some

theorem filterMap_constant?_dice (gs : List Group) :
    (gs.map Piece.dice).filterMap Piece.constant? = [] := by
  rw [List.filterMap_map, List.filterMap_eq_nil_iff]
  exact fun _ _ => rfl

theorem filterMap_group?_pieces (f : Formula) : f.pieces.filterMap Piece.group? = f.groups := by
  rw [Formula.pieces]
  cases f.first.sign with
  | minus => exact filterMap_group?_dice f.groups
  | plus =>
    rw [List.filterMap_append, filterMap_group?_dice]
    split <;> simp [Piece.group?]

theorem apply_natAbs (x : Int) : (if 0 ≤ x then Sign.plus else Sign.minus).apply x.natAbs = x := by
  split <;> rw [Sign.apply] <;> omega

/-- There is at most one constant among the pieces, and it is that of the formula. -/
theorem filterMap_constant?_pieces {f : Formula} (h : f.first.sign = .minus → 0 ≤ f.constant) :
    f.pieces.filterMap Piece.constant? = [f.constant] ∨
      f.pieces.filterMap Piece.constant? = [] ∧ f.constant = 0 := by
  rw [Formula.pieces]
  cases hsign : f.first.sign with
  | minus =>
    refine .inl ?_
    have hpos := h hsign
    rw [List.filterMap_cons_some (b := f.constant), filterMap_constant?_dice]
    rw [Piece.constant?, Sign.apply]
    congr 1
    omega
  | plus =>
    simp only [List.filterMap_append, filterMap_constant?_dice, List.nil_append]
    by_cases hzero : f.constant = 0
    · exact .inr ⟨by simp [hzero], hzero⟩
    · refine .inl ?_
      rw [if_neg hzero, List.filterMap_cons_some (b := f.constant) (by
        rw [Piece.constant?, apply_natAbs])]
      rfl

/-! ## Reading the canonical spelling -/

/-- A term is allowed if its piece is one of a well-formed formula. -/
theorem allowed_of_mem_pieces {f : Formula} (h : f.WellFormed) {term : Term}
    (hterm : term.piece ∈ f.pieces) : term.Allowed := by
  cases term with
  | dice g span =>
    have hg : g ∈ f.pieces.filterMap Piece.group? := List.mem_filterMap.2 ⟨_, hterm, rfl⟩
    rw [filterMap_group?_pieces] at hg
    exact h.groups g hg
  | constant sign n span =>
    have hx : sign.apply n ∈ f.pieces.filterMap Piece.constant? :=
      List.mem_filterMap.2 ⟨_, hterm, rfl⟩
    have heq : sign.apply n = f.constant := by
      rcases filterMap_constant?_pieces h.leading with hlist | ⟨hlist, -⟩ <;> rw [hlist] at hx
      · exact List.mem_singleton.1 hx
      · cases hx
    have hrange := h.constant
    rw [← heq] at hrange
    show (n : Int) ≤ Total.greatest
    cases sign <;> simp only [Sign.apply] at hrange <;> omega

/-- No character of the text is blank. -/
def Unblank (cs : List Char) : Prop := ∀ c ∈ cs, Text.isBlank c = false

theorem unblank_of_all {cs : List Char} (h : (cs.all fun c => !Text.isBlank c) = true) :
    Unblank cs := by
  intro c hc
  simpa using List.all_eq_true.1 h c hc

theorem unblank_append {cs ds : List Char} (hcs : Unblank cs) (hds : Unblank ds) :
    Unblank (cs ++ ds) := by
  intro c hc
  rcases List.mem_append.1 hc with hc | hc
  · exact hcs c hc
  · exact hds c hc

theorem unblank_toDigits (n : Nat) : Unblank (Nat.toDigits 10 n) :=
  fun c hc => isBlank_of_isDigit ((isDigits_toDigits n).2 c hc)

theorem unblank_piece (p : Piece) : Unblank p.text.toList := by
  cases p with
  | dice g =>
    have hd : Unblank ['d'] := unblank_of_all (by decide)
    rw [show (Piece.dice g).text = g.text from rfl, toList_group_text]
    refine unblank_append (unblank_append (unblank_toDigits _)
      (unblank_append hd (unblank_toDigits _))) ?_
    cases g.keep with
    | none => exact fun c hc => absurd hc List.not_mem_nil
    | some k =>
      rw [Option.elim_some, toList_keep_text]
      refine unblank_append ?_ (unblank_toDigits _)
      cases k.mode <;> exact unblank_of_all (by decide)
  | constant sign n =>
    rw [show (Piece.constant sign n).text.toList = Nat.toDigits 10 n by simp [Piece.text]]
    exact unblank_toDigits n

theorem unblank_line (p : Piece) (ps : List Piece) : Unblank (Piece.line p ps).toList := by
  induction ps generalizing p with
  | nil => simpa [Piece.line] using unblank_piece p
  | cons q ps ih =>
    rw [toList_line_cons]
    refine unblank_append (unblank_piece p) (unblank_append ?_ (ih q))
    cases q.sign <;> exact unblank_of_all (by decide)

theorem trimChars_of_unblank {cs : List Char} (h : Unblank cs) : Text.trimChars cs = cs := by
  have hdrop : ∀ {ds : List Char}, Unblank ds → ds.dropWhile Text.isBlank = ds := by
    intro ds hds
    cases ds with
    | nil => rfl
    | cons d ds => rw [List.dropWhile_cons, if_neg (by simp [hds d])]
  rw [Text.trimChars, hdrop h, hdrop fun c hc => h c (List.mem_reverse.1 hc), List.reverse_reverse]

theorem accepts_text {f : Formula} (h : f.WellFormed) :
    ∃ terms, Accepts f.text terms ∧ f.groups = terms.filterMap Term.group? ∧
      f.constant = (terms.filterMap Term.constant?).sum ∧ f.text = Text.trim f.text := by
  obtain ⟨p, ps, hpieces, hplus, htext⟩ := text_eq_line h.leading
  obtain ⟨ts, terms, hlexes, hwrites, hterms⟩ := lexes_line p ps 0
  rw [← hpieces] at hterms
  rw [hplus] at hwrites
  have hgroups : terms.filterMap Term.group? = f.groups := by
    rw [← filterMap_group?_piece, hterms, filterMap_group?_pieces]
  have hconstants : terms.filterMap Term.constant? = f.pieces.filterMap Piece.constant? := by
    rw [← filterMap_constant?_piece, hterms]
  refine ⟨terms, ⟨⟨ts, by rw [htext]; exact hlexes, hwrites⟩, ?_, ?_, ?_⟩, hgroups.symm, ?_, ?_⟩
  · intro term hterm
    refine allowed_of_mem_pieces h ?_
    rw [← hterms]
    exact List.mem_map_of_mem hterm
  · rw [countP_isConstant, hconstants]
    rcases filterMap_constant?_pieces h.leading with hlist | ⟨hlist, -⟩ <;> simp [hlist]
  · rw [hgroups]
    exact f.groups_ne_nil
  · rw [hconstants]
    rcases filterMap_constant?_pieces h.leading with hlist | ⟨hlist, hzero⟩
    · simp [hlist]
    · simp [hlist, hzero]
  · rw [Text.trim, htext, trimChars_of_unblank (unblank_line p ps), String.ofList_toList]

/-- **A well-formed formula is read back from its canonical spelling.** -/
theorem parse_text {f : Formula} (h : f.WellFormed) : parse f.text = .ok ⟨f, f.text⟩ := by
  obtain ⟨terms, haccepts, hgroups, hconstant, htrim⟩ := accepts_text h
  exact parse_of_accepts haccepts hgroups hconstant htrim

/-! ## What is read is well formed -/

/-- Where there is no second constant, there is none or just one. -/
theorem constants_cases {terms : List Term} (honce : terms.countP Term.isConstant ≤ 1) :
    terms.filterMap Term.constant? = [] ∨
      ∃ sign n span, .constant sign n span ∈ terms ∧
        terms.filterMap Term.constant? = [sign.apply n] := by
  rw [countP_isConstant] at honce
  cases hlist : terms.filterMap Term.constant? with
  | nil => exact .inl rfl
  | cons x xs =>
    rw [hlist, List.length_cons] at honce
    obtain rfl : xs = [] := List.length_eq_zero_iff.1 (by omega)
    have hx : x ∈ terms.filterMap Term.constant? := by simp [hlist]
    obtain ⟨term, hterm, hconstant⟩ := List.mem_filterMap.1 hx
    cases term with
    | dice g span => cases hconstant
    | constant sign n span =>
      cases hconstant
      exact .inr ⟨sign, n, span, hterm, rfl⟩

theorem WritesTerms.exists_cons {sign : Sign} {ts : List Token} {terms : List Term}
    (h : WritesTerms sign ts terms) :
    ∃ used term others, terms = term :: others ∧ WritesTerm sign used term := by
  cases h with
  | last h => exact ⟨_, _, _, rfl, h⟩
  | more h _ _ => exact ⟨_, _, _, rfl, h⟩

/-- **A subtracted group cannot come first**, so it has a constant before it, which is the only one
and has no sign of its own. -/
theorem leading_of_writesTerms {ts : List Token} {terms : List Term}
    (h : WritesTerms .plus ts terms) (honce : terms.countP Term.isConstant ≤ 1) {g : Group}
    (hgroup : (terms.filterMap Term.group?).head? = some g) (hsign : g.sign = .minus) :
    0 ≤ (terms.filterMap Term.constant?).sum := by
  obtain ⟨used, term, others, rfl, hterm⟩ := h.exists_cons
  cases hterm with
  | dice _ _ =>
    cases hgroup
    cases hsign
  | kept _ _ _ _ =>
    cases hgroup
    cases hsign
  | @constant t _ =>
    have hcons : (Term.constant .plus (Digits.value t.lexeme) t.span :: others).filterMap
        Term.constant? = (Digits.value t.lexeme : Int) :: others.filterMap Term.constant? := rfl
    rw [hcons]
    rcases constants_cases honce with hnil | ⟨sign, n, span, -, hlist⟩
    · cases hnil
    · rw [hcons, List.cons.injEq] at hlist
      rw [hlist.2, List.sum_singleton]
      exact Int.natCast_nonneg _

theorem wellFormed_of_parse {text : String} {w : Written} (h : parse text = .ok w) :
    w.toFormula.WellFormed := by
  obtain ⟨terms, haccepts, hgroups, hconstant, -⟩ := exists_accepts_of_parse h
  obtain ⟨ts, hlexes, hwrites⟩ := haccepts.writes
  refine ⟨fun g hg => ?_, ?_, fun hsign => ?_⟩
  · rw [hgroups] at hg
    obtain ⟨term, hterm, hgroup⟩ := List.mem_filterMap.1 hg
    have hallowed := haccepts.allowed term hterm
    cases term with
    | dice group span =>
      cases hgroup
      exact hallowed
    | constant sign n span => cases hgroup
  · rw [hconstant]
    rcases constants_cases haccepts.once with hnil | ⟨sign, n, span, hterm, hlist⟩
    · simp [hnil, Total.greatest]
    · have hallowed : (n : Int) ≤ Total.greatest := haccepts.allowed _ hterm
      rw [hlist, List.sum_singleton]
      cases sign <;> rw [Sign.apply] <;> rw [Total.greatest] at hallowed ⊢ <;> omega
  · rw [hconstant]
    refine leading_of_writesTerms hwrites haccepts.once (g := w.first) ?_ hsign
    rw [← hgroups]
    exact (List.head_eq_iff_head?_eq_some _).1 rfl

/-- **The canonical spelling round-trips on exactly the formulas that can be read.**  A formula is
well formed if and only if its canonical spelling is read back as that formula, with that spelling,
and if and only if some text or other is read as it. -/
theorem wellFormed_iff_parse_text (f : Formula) :
    (f.WellFormed ↔ parse f.text = .ok ⟨f, f.text⟩) ∧
      (f.WellFormed ↔ ∃ text w, parse text = .ok w ∧ w.toFormula = f) := by
  refine ⟨⟨parse_text, wellFormed_of_parse⟩, ⟨fun h => ⟨_, _, parse_text h, rfl⟩, ?_⟩⟩
  rintro ⟨text, w, hw, rfl⟩
  exact wellFormed_of_parse hw

end Dicebag
