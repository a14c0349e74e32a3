import Dicebag.Proofs.Formula.Position

/-!
# The tokens tile their text

The tokens of a text, and the separators between them, make up the whole text.  `Tiling` keeps of
`Lexes` what is needed to say where the tokens lie, whatever they are: a tile is not empty and holds
no separator, and a gap is one separator.

* Tiles follow each other without overlapping (`Tiling.pairwise`), and a character lies between them
  just when it is a separator (`Tiling.not_covered_iff`).
* `Token.Matches` says what a token is for what follows it in the text: the longest lexeme there,
  which is one of its kind and of no other (`Kind.admits_unique`), or a single stray character.

`tokens_tile` puts these together for every text.  It adds that a space cuts a text in two: the
tokens before it are those of the first part, and the tokens behind it are those of the second.
-/

set_option autoImplicit false

namespace Dicebag

/-! ## Tiles and gaps -/

/-- The byte at this position belongs to the token. -/
def Token.Covers (t : Token) (n : Nat) : Prop := t.span.start ≤ n ∧ n < t.span.stop

/-- The characters `cs`, of which the first starts at position `start`, are those of the tokens
`ts` with separators between them. -/
inductive Tiling : Nat → List Char → List Token → Prop
  /-- There are no characters left. -/
  | done {start : Nat} : Tiling start [] []
  /-- A separator belongs to no token. -/
  | gap {start : Nat} {c : Char} {cs : List Char} {ts : List Token}
      (hsep : isSeparator c = true) (h : Tiling (start + c.utf8Size) cs ts) :
      Tiling start (c :: cs) ts
  /-- A token covers some characters, none of them a separator. -/
  | tile {start : Nat} {kind : Kind} {lexeme rest : List Char} {ts : List Token}
      (hne : lexeme ≠ []) (hplain : ∀ c ∈ lexeme, isSeparator c = false)
      (h : Tiling (start + Text.byteLength lexeme) rest ts) :
      Tiling start (lexeme ++ rest) (⟨kind, lexeme, start⟩ :: ts)

/-- No token of a shape of its own holds a separator. -/
theorem not_isSeparator_of_mem {kind : Kind} (hk : kind ≠ .unknown) {lexeme : List Char}
    (h : kind.Admits lexeme) {c : Char} (hc : c ∈ lexeme) : isSeparator c = false := by
  cases hsep : isSeparator c with
  | false => rfl
  | true =>
    -- it would be the whole lexeme, but no lexeme starts with a separator
    obtain rfl := eq_singleton_of_mem hk h hc (standsAlone_of_isSeparator hsep)
    exact absurd (List.append_nil [c]) (unmatched_of_isSeparator hsep [] kind [c] [] hk h)

theorem Lexes.tiling {start : Nat} {cs : List Char} {ts : List Token} (h : Lexes start cs ts) :
    Tiling start cs ts := by
  induction h with
  | done => exact .done
  | skip hsep _ ih => exact .gap hsep ih
  | take hmax _ ih =>
    rw [← hmax.append]
    exact .tile (admits_ne_nil hmax.known hmax.admits)
      (fun _ hc => not_isSeparator_of_mem hmax.known hmax.admits hc) ih
  | @stray start c cs ts hsep _ _ ih =>
    rw [← List.singleton_append]
    refine .tile (List.cons_ne_nil c []) (List.forall_mem_singleton.2 hsep) ?_
    exact ih

namespace Tiling

variable {start : Nat} {cs : List Char} {ts : List Token}

theorem start_le (h : Tiling start cs ts) : ∀ t ∈ ts, start ≤ t.span.start := by
  induction h with
  | done => simp
  | gap _ _ ih => exact fun t ht => Nat.le_trans (Nat.le_add_right _ _) (ih t ht)
  | tile _ _ _ ih =>
    exact List.forall_mem_cons.2
      ⟨Nat.le_refl _, fun t ht => Nat.le_trans (Nat.le_add_right _ _) (ih t ht)⟩

/-- **Tokens follow each other.** -/
theorem pairwise (h : Tiling start cs ts) :
    ts.Pairwise fun t u => t.span.stop ≤ u.span.start := by
  induction h with
  | done => exact .nil
  | gap _ _ ih => exact ih
  | tile _ _ h ih => exact .cons h.start_le ih

/-- No token is empty. -/
theorem start_lt_stop (h : Tiling start cs ts) : ∀ t ∈ ts, t.span.start < t.span.stop := by
  induction h with
  | done => simp
  | gap _ _ ih => exact ih
  | @tile start kind lexeme rest ts hne _ _ ih =>
    refine List.forall_mem_cons.2 ⟨?_, ih⟩
    have := Nat.pos_of_ne_zero (mt Text.byteLength_eq_zero_iff.1 hne)
    simp only [Token.span]
    omega

/-- A character of two texts in a row is one of the first or one of the second. -/
theorem exists_left_of_append_eq {lexeme rest front back : List Char} {c : Char}
    (happ : lexeme ++ rest = front ++ c :: back) :
    (∃ left, lexeme = front ++ c :: left) ∨
      ∃ left, front = lexeme ++ left ∧ rest = left ++ c :: back := by
  rcases List.append_eq_append_iff.1 happ with ⟨left, rfl, rfl⟩ | ⟨left, rfl, hleft⟩
  · exact .inr ⟨left, rfl, rfl⟩
  · cases left with
    | nil => exact .inr ⟨[], by simp, hleft.symm⟩
    | cons d left =>
      obtain ⟨rfl, -⟩ := List.cons.inj hleft
      exact .inl ⟨left, rfl⟩

/-- **A character lies outside all tokens just when it is a separator.**  Its bytes are those from
the end of what comes before it. -/
theorem not_covered_iff (h : Tiling start cs ts) {front back : List Char} {c : Char}
    (hcs : cs = front ++ c :: back) {n : Nat} (hlow : start + Text.byteLength front ≤ n)
    (hhigh : n < start + Text.byteLength front + c.utf8Size) :
    (∀ t ∈ ts, ¬t.Covers n) ↔ isSeparator c = true := by
  induction h generalizing front with
  | done => simp at hcs
  | @gap start d cs ts hsep h ih =>
    cases front with
    | nil =>
      obtain ⟨rfl, rfl⟩ := List.cons.inj hcs
      refine ⟨fun _ => hsep, fun _ t ht hcovers => ?_⟩
      have := h.start_le t ht
      simp only [Token.Covers, Text.byteLength] at hcovers hhigh
      omega
    | cons e front =>
      obtain ⟨rfl, rfl⟩ := List.cons.inj hcs
      rw [Text.byteLength, ← Nat.add_assoc] at hlow hhigh
      exact ih rfl hlow hhigh
  | @tile start kind lexeme rest ts hne hplain h ih =>
    rw [List.forall_mem_cons]
    rcases exists_left_of_append_eq hcs with ⟨left, rfl⟩ | ⟨left, rfl, rfl⟩
    · refine iff_of_false (fun hnone => hnone.1 ⟨?_, ?_⟩) ?_
      · exact Nat.le_trans (Nat.le_add_right _ _) hlow
      · simp only [Token.span, Text.byteLength_append, Text.byteLength]
        omega
      · rw [hplain c (by simp)]
        decide
    · rw [Text.byteLength_append, ← Nat.add_assoc] at hlow hhigh
      rw [← ih rfl hlow hhigh]
      refine ⟨And.right, fun hothers => ⟨fun hcovers => ?_, hothers⟩⟩
      simp only [Token.Covers, Token.span] at hcovers
      omega

end Tiling

/-! ## What a token is -/

/-- What a token is in a text that goes on with `back` behind it. -/
structure Token.Matches (t : Token) (back : List Char) : Prop where
  /-- A token that is known is the longest lexeme of any kind. -/
  longest : t.kind ≠ .unknown → Longest (t.lexeme ++ back) t.kind t.lexeme back
  /-- It is a lexeme of its own kind only. -/
  only : ∀ kind, t.kind ≠ .unknown → kind ≠ .unknown → (kind.Admits t.lexeme ↔ kind = t.kind)
  /-- Any other token is one character, where no lexeme of any kind starts. -/
  stray : t.kind = .unknown → ∃ c, t.lexeme = [c] ∧ Unmatched (c :: back)

theorem Longest.matches {lexeme back : List Char} {kind : Kind}
    (h : Longest (lexeme ++ back) kind lexeme back) (start : Nat) :
    (⟨kind, lexeme, start⟩ : Token).Matches back where
  longest _ := h
  only _ hk hk' := ⟨fun h' => Kind.admits_unique hk' hk h' h.admits, fun heq => heq ▸ h.admits⟩
  stray hk := absurd hk h.known

theorem Unmatched.matches {c : Char} {back : List Char} (h : Unmatched (c :: back)) (start : Nat) :
    (⟨.unknown, [c], start⟩ : Token).Matches back where
  longest hk := absurd rfl hk
  only _ hk := absurd rfl hk
  stray _ := ⟨c, rfl, h⟩

/-- The token is in the text, whose first byte is at position `start`, where it says it is, and it
is what the longest match makes of what follows there. -/
def Token.FoundIn (t : Token) (start : Nat) (cs : List Char) : Prop :=
  ∃ front back, cs = front ++ (t.lexeme ++ back) ∧ t.start = start + Text.byteLength front ∧
    t.Matches back

/-- A token is still where it is with more characters in front. -/
theorem Token.FoundIn.append {t : Token} {start : Nat} (before : List Char) {cs : List Char}
    (h : t.FoundIn (start + Text.byteLength before) cs) : t.FoundIn start (before ++ cs) := by
  obtain ⟨front, back, rfl, hstart, hmatches⟩ := h
  refine ⟨before ++ front, back, (List.append_assoc _ _ _).symm, ?_, hmatches⟩
  rw [hstart, Text.byteLength_append, Nat.add_assoc]

/-- **Every token is the longest match where it is.** -/
theorem Lexes.foundIn {start : Nat} {cs : List Char} {ts : List Token} (h : Lexes start cs ts) :
    ∀ t ∈ ts, t.FoundIn start cs := by
  induction h with
  | done => simp
  | @skip start c cs ts _ _ ih => exact fun t ht => (ih t ht).append [c]
  | @take start cs lexeme rest kind ts hmax _ ih =>
    obtain rfl := hmax.append
    exact List.forall_mem_cons.2
      ⟨⟨[], rest, rfl, rfl, hmax.matches start⟩, fun t ht => (ih t ht).append lexeme⟩
  | @stray start c cs ts _ hnone _ ih =>
    exact List.forall_mem_cons.2
      ⟨⟨[], cs, rfl, rfl, hnone.matches start⟩, fun t ht => (ih t ht).append [c]⟩

/-! ## The tokens of a text -/

/-- The text is made up of the tokens, and of spaces, tabs and line breaks between them. -/
structure TiledBy (text : String) (ts : List Token) : Prop where
  /-- Each token ends before the next one starts, or where it starts. -/
  apart : ts.Pairwise fun t u => t.span.stop ≤ u.span.start
  /-- No token is empty. -/
  proper : ∀ t ∈ ts, t.span.start < t.span.stop
  /-- Each token is a piece of the text, cut out between two of its characters, and the longest
  match for what is left of the text there. -/
  matched : ∀ t ∈ ts, ∃ front back : String, text = front ++ String.ofList t.lexeme ++ back ∧
    t.excerpt.CutFrom text front ∧ t.Matches back.toList
  /-- A byte is outside all tokens just when it is that of a space, a tab, a carriage return or a
  line feed. -/
  gaps : ∀ (front back : List Char) (c : Char) (n : Nat), text.toList = front ++ c :: back →
    Text.byteLength front ≤ n → n < Text.byteLength front + c.utf8Size →
      ((∀ t ∈ ts, ¬t.Covers n) ↔ c = ' ' ∨ c = '\t' ∨ c = '\r' ∨ c = '\n')

theorem Lexes.tiledBy {text : String} {ts : List Token} (h : Lexes 0 text.toList ts) :
    TiledBy text ts where
  apart := h.tiling.pairwise
  proper := h.tiling.start_lt_stop
  matched t ht := by
    obtain ⟨front, back, htext, hstart, hmatches⟩ := h.foundIn t ht
    rw [Nat.zero_add] at hstart
    obtain ⟨hsplit, hfront, hstop⟩ := Token.split_of_toList htext hstart
    exact ⟨String.ofList front, String.ofList back, hsplit,
      cutFrom_of_split (String.ofList back) hsplit hfront hstop, by rwa [String.toList_ofList]⟩
  gaps front back c n hcs hlow hhigh := by
    rw [← isSeparator_iff]
    exact h.tiling.not_covered_iff hcs (by rwa [Nat.zero_add]) (by rwa [Nat.zero_add])

/-- A space between two texts keeps their tokens apart. -/
theorem tokens_append_space (text more : String) :
    tokens (text ++ " " ++ more) =
      tokens text ++ (tokens more).map (Token.shift (text.utf8ByteSize + 1)) := by
  have hmore := (lexes_tokensFrom 0 more.toList).shift (Text.byteLength text.toList + 1)
  have hspace : Lexes (0 + Text.byteLength text.toList) (' ' :: more.toList)
      ((tokens more).map (Token.shift (Text.byteLength text.toList + 1))) := by
    refine .skip (by decide) ?_
    rw [Nat.add_assoc]
    exact hmore
  have hboth := (lexes_tokensFrom 0 text.toList).append hspace (apart_space _ _)
  rw [← toList_append_space] at hboth
  rw [Text.utf8ByteSize_eq]
  exact (lexes_iff.1 hboth).symm

/-- **The tokens of a text tile it by longest matches**, whatever the text.  They follow each other
without overlapping, each a piece of the text between characters, and leave out the spaces, tabs and
line breaks only.  A known token is the longest lexeme that the rest of the text starts with, and it
is one of its kind and of no other; any other token is a single character where no lexeme starts.
Two texts with a space between them have the tokens of the first, and then those of the second
moved by its length and one. -/
theorem tokens_tile :
    (∀ text : String, TiledBy text (tokens text)) ∧
    ∀ text more : String, tokens (text ++ " " ++ more) =
      tokens text ++ (tokens more).map (Token.shift (text.utf8ByteSize + 1)) :=
  ⟨fun text => (lexes_tokensFrom 0 text.toList).tiledBy, tokens_append_space⟩

end Dicebag
