import Dicebag.Proofs.Formula.Walk
import Dicebag.Proofs.Roll.Spelling
import Dicebag.Proofs.Token.Seam

/-!
# The log of reading

Reading a text leaves a record for each term that was accepted, and one more for the formula if
there is one.  This module says which terms those are when reading stops with an error: they are
written by the first tokens of the text, and what comes after these tokens does not go on with
another term that can be accepted.

* `Refuses` lists the ways in which a term is not accepted, and `BreaksOff` those in which a text
  does not go on after the terms that are.  Each names the error that comes of it.  The tokens of a
  refused term are all among those that come after, its first token included, and these come later
  in the text than all that has a record (`AcceptsUpTo.earlier`).
* `writesTerms_of_error` is the induction over the tokens, the counterpart of
  `writesTerms_of_readTerms`.
* A record says what its term is (`piece_eq_of_line_eq`), so the records of two texts differ if
  their formulas do.

`parseLog_records_accepted` puts these together.
-/

set_option autoImplicit false

namespace Dicebag

/-- The span of the first token of the term. -/
def Term.span : Term → Span
  | dice _ span => span
  | constant _ _ span => span

/-! ## Terms that are not accepted -/

/-- The tokens do not start with a term that is accepted, and the error says why.  There was a
constant before them if `taken` says so, and the text has `stop` bytes. -/
inductive Refuses (stop : Nat) (taken : Bool) : List Token → ParseError → Prop
  /-- The text ends. -/
  | ending : Refuses stop taken [] (unexpected (.emptyAt stop) Kind.terms)
  /-- Some other token comes next. -/
  | term {t : Token} {rest : List Token} (hdice : t.kind ≠ .dice) (hinteger : t.kind ≠ .integer) :
      Refuses stop taken (t :: rest) (unexpected t.excerpt Kind.terms)
  /-- There are too few or too many dice. -/
  | count {t : Token} {rest : List Token} (hkind : t.kind = .dice)
      (hcount : ¬Group.CountInRange t.count) :
      Refuses stop taken (t :: rest) (.countOutOfRange t.excerpt t.count)
  /-- The dice have too few or too many sides. -/
  | sides {t : Token} {rest : List Token} (hkind : t.kind = .dice)
      (hcount : Group.CountInRange t.count) (hsides : ¬Group.SidesInRange t.sides) :
      Refuses stop taken (t :: rest) (.sidesOutOfRange t.excerpt t.sides)
  /-- No dice are kept, or too many. -/
  | keep {t u : Token} {rest : List Token} {mode : KeepMode} (hkind : t.kind = .dice)
      (hcount : Group.CountInRange t.count) (hsides : Group.SidesInRange t.sides)
      (hmode : u.kind.keepMode? = some mode) (hrange : ¬Group.KeepInRange t.count u.keepAmount) :
      Refuses stop taken (t :: u :: rest) (.keepOutOfRange u.excerpt u.keepAmount t.count)
  /-- It is a second constant. -/
  | second {t : Token} {rest : List Token} (hkind : t.kind = .integer) (htaken : taken = true) :
      Refuses stop taken (t :: rest) (.secondConstant t.excerpt)
  /-- The constant is too large. -/
  | large {t : Token} {rest : List Token} (hkind : t.kind = .integer) (htaken : taken = false)
      (hvalue : Total.greatest < (t.value : Int)) :
      Refuses stop taken (t :: rest) (.constantTooLarge t.excerpt)

/-- The tokens come after the accepted terms, and they are neither at their end nor go on with a
sign and another accepted term. -/
inductive BreaksOff (stop : Nat) (taken : Bool) (terms : List Term) : List Token → ParseError → Prop
  /-- The first term is not accepted. -/
  | first {ts : List Token} {e : ParseError} (hterms : terms = []) (h : Refuses stop taken ts e) :
      BreaksOff stop taken terms ts e
  /-- After a sign the next term is not accepted. -/
  | next {u : Token} {sign : Sign} {ts : List Token} {e : ParseError} (hterms : terms ≠ [])
      (hsign : u.kind.sign? = some sign)
      (h : Refuses stop (taken || terms.any Term.isConstant) ts e) :
      BreaksOff stop taken terms (u :: ts) e
  /-- There is something else than a sign, and it is no keep suffix of the last term. -/
  | stray {u : Token} {ts : List Token} (hterms : terms ≠ []) (hsign : u.kind.sign? = none)
      (hkeep : ∀ g span, terms.getLast? = some (.dice g span) → g.keep = none →
        u.kind.keepMode? = none) :
      BreaksOff stop taken terms (u :: ts) (unexpected u.excerpt Kind.signs)

theorem refuses_of_readDice {stop : Nat} {sign : Sign} {taken : Bool} {t : Token}
    {rest : List Token} {e : ParseError} (hkind : t.kind = .dice)
    (h : readDice sign t rest = .error e) : Refuses stop taken (t :: rest) e := by
  rw [readDice] at h
  split at h
  · next hcount =>
    cases h
    exact .count hkind hcount
  · next hcount =>
    rw [not_not] at hcount
    split at h
    · next hsides =>
      cases h
      exact .sides hkind hcount hsides
    · next hsides =>
      rw [not_not] at hsides
      split at h
      · next hkeep =>
        cases h
        obtain ⟨u, after, mode, rfl, hmode, hrange, rfl⟩ :=
          Walk.exists_keep_of_readKeep_error hkeep
        exact .keep hkind hcount hsides hmode hrange
      · cases h

theorem refuses_of_readConstant {stop : Nat} {sign : Sign} {taken : Bool} {t : Token}
    {rest : List Token} {e : ParseError} (hkind : t.kind = .integer)
    (h : readConstant sign taken t = .error e) : Refuses stop taken (t :: rest) e := by
  rw [readConstant] at h
  split at h
  · next htaken =>
    cases h
    exact .second hkind htaken
  · next htaken =>
    rw [Bool.not_eq_true] at htaken
    split at h
    · next hvalue =>
      cases h
      exact .large hkind htaken hvalue
    · cases h

/-- Where reading a term gives an error, the term is not accepted. -/
theorem refuses_of_readTerm {stop : Nat} {sign : Sign} {taken : Bool} {t : Token}
    {rest : List Token} {e : ParseError} (h : readTerm sign taken t rest = .error e) :
    Refuses stop taken (t :: rest) e := by
  rw [readTerm] at h
  split at h
  · next hkind => exact refuses_of_readDice hkind h
  · next hkind =>
    cases hconstant : readConstant sign taken t with
    | ok constant => simp [hconstant, Except.map] at h
    | error e' =>
      rw [hconstant, Except.map, Except.error.injEq] at h
      exact h ▸ refuses_of_readConstant hkind hconstant
  · next hdice hinteger =>
    cases h
    exact .term hdice hinteger

/-- What comes after a group without a keep suffix is no keep suffix. -/
theorem noKeep_of_readTerm {sign : Sign} {taken : Bool} {t : Token} {rest after : List Token}
    {g : Group} {span : Span} (h : readTerm sign taken t rest = .ok (.dice g span, after))
    (hkeep : g.keep = none) : NoKeep after := by
  rw [readTerm] at h
  split at h
  · obtain ⟨-, -, keep, hread, hterm⟩ := readDice_eq_ok_iff.1 h
    cases hterm
    rcases readKeep_eq_ok_iff.1 hread with ⟨hnone, -, rfl⟩ | ⟨u, mode, -, -, -, hsome⟩
    · exact hnone
    · rw [show keep = none from hkeep] at hsome
      cases hsome
  · cases hconstant : readConstant sign taken t with
    | error e => simp [hconstant, Except.map] at h
    | ok constant =>
      rw [hconstant, Except.map, Except.ok.injEq, Prod.mk.injEq] at h
      obtain ⟨-, -, hterm⟩ := readConstant_eq_ok_iff.1 hconstant
      rw [h.1] at hterm
      cases hterm
  · cases h

/-- Where the first of some terms is not accepted, and these come after a sign, the text breaks off
at the term after that sign. -/
theorem BreaksOff.after_sign {stop : Nat} {taken : Bool} {term : Term} {u : Token} {sign : Sign}
    {ts : List Token} {e : ParseError} (hsign : u.kind.sign? = some sign)
    (h : BreaksOff stop (taken || term.isConstant) [] ts e) :
    BreaksOff stop taken [term] (u :: ts) e := by
  cases h with
  | first _ h =>
    refine .next (List.cons_ne_nil _ _) hsign ?_
    rwa [List.any_cons, List.any_nil, Bool.or_false]
  | next hne _ _ => exact absurd rfl hne
  | stray hne _ _ => exact absurd rfl hne

/-- A text breaks off in the same way if there is one term more before the others. -/
theorem BreaksOff.cons {stop : Nat} {taken : Bool} {term : Term} {terms : List Term}
    {ts : List Token} {e : ParseError} (hterms : terms ≠ [])
    (h : BreaksOff stop (taken || term.isConstant) terms ts e) :
    BreaksOff stop taken (term :: terms) ts e := by
  cases h with
  | first hnil _ => exact absurd hnil hterms
  | next _ hsign h =>
    rw [Bool.or_assoc, ← List.any_cons] at h
    exact .next (List.cons_ne_nil _ _) hsign h
  | stray _ hsign hkeep =>
    refine .stray (List.cons_ne_nil _ _) hsign ?_
    rwa [List.getLast?_cons_of_ne_nil hterms]

/-! ## Accepted terms -/

theorem constantCount_nil (taken : Bool) : constantCount taken [] ≤ 1 := by
  rw [constantCount, List.countP_nil, Nat.zero_add]
  exact Bool.toNat_le _

/-- The terms are written by these tokens, or there are no terms and no tokens. -/
def Writes (sign : Sign) (used : List Token) (terms : List Term) : Prop :=
  terms = [] ∧ used = [] ∨ WritesTerms sign used terms

/-- **The terms that are read before an error** are written by the first tokens and are within all
limits, and the tokens after these do not go on with another term. -/
theorem writesTerms_of_error {stop : Nat} {sign : Sign} {taken : Bool} {ts : List Token}
    {terms : List Term} {e : ParseError} (hproper : ∀ t ∈ ts, t.Proper)
    (h : readTerms stop sign taken ts = ⟨terms, some e⟩) :
    ∃ used after, ts = used ++ after ∧ Writes sign used terms ∧
      (∀ term ∈ terms, term.Allowed) ∧ constantCount taken terms ≤ 1 ∧
      BreaksOff stop taken terms after e := by
  induction sign, taken, ts using readTerms.induct stop generalizing terms with
  | case1 sign taken =>
    rw [readTerms, Reading.mk.injEq, Option.some_inj] at h
    obtain ⟨rfl, rfl⟩ := h
    exact ⟨[], [], rfl, .inl ⟨rfl, rfl⟩, List.forall_mem_nil _, constantCount_nil taken,
      .first rfl .ending⟩
  | case2 sign taken t rest e' hread =>
    rw [readTerms_of_error hread, Reading.mk.injEq, Option.some_inj] at h
    obtain ⟨rfl, rfl⟩ := h
    exact ⟨[], t :: rest, rfl, .inl ⟨rfl, rfl⟩, List.forall_mem_nil _, constantCount_nil taken,
      .first rfl (refuses_of_readTerm hread)⟩
  | case3 sign taken t rest term hread =>
    rw [readTerms_last hread, Reading.mk.injEq] at h
    cases h.2
  | case4 sign taken t rest term u after hread hsign =>
    rw [readTerms_stray hread hsign, Reading.mk.injEq, Option.some_inj] at h
    obtain ⟨rfl, rfl⟩ := h
    obtain ⟨used, happ, hterm, hallowed, htaken⟩ := writesTerm_of_readTerm hread hproper
    refine ⟨used, u :: after, happ.symm, .inr (.last hterm), by simpa using hallowed, ?_,
      .stray (List.cons_ne_nil _ _) hsign fun g span hlast hkeep => ?_⟩
    · rw [constantCount_cons [] htaken]
      exact constantCount_nil _
    · rw [List.getLast?_singleton, Option.some_inj] at hlast
      exact noKeep_cons.1 (noKeep_of_readTerm (hlast ▸ hread) hkeep)
  | case5 sign taken t rest term u after hread next hsign ih =>
    rw [readTerms_more hread hsign, Reading.mk.injEq] at h
    obtain ⟨rfl, herror⟩ := h
    obtain ⟨used, happ, hterm, hallowed, htaken⟩ := writesTerm_of_readTerm hread hproper
    have hafter : ∀ v ∈ after, v.Proper := by
      intro v hv
      refine hproper v ?_
      rw [← happ]
      simp [hv]
    obtain ⟨used', after', rfl, hwrites, hallowed', honce, hbreaks⟩ := ih hafter (by rw [← herror])
    rw [← constantCount_cons _ htaken] at honce
    rcases hwrites with ⟨hnil, rfl⟩ | hmore
    · -- the term after the sign is the one that is not accepted
      rw [hnil] at hbreaks honce ⊢
      exact ⟨used, u :: after', happ.symm, .inr (.last hterm), by simpa using hallowed, honce,
        hbreaks.after_sign hsign⟩
    · obtain ⟨-, first, others, heq, -⟩ := hmore.exists_cons
      refine ⟨used ++ u :: used', after', ?_, .inr (.more hterm hsign hmore),
        List.forall_mem_cons.2 ⟨hallowed, hallowed'⟩, honce, hbreaks.cons ?_⟩
      · rw [← happ, List.append_assoc, List.cons_append]
      · rw [heq]
        exact List.cons_ne_nil _ _

/-! ## The place of a record -/

theorem WritesTerm.exists_token {sign : Sign} {ts : List Token} {term : Term}
    (h : WritesTerm sign ts term) : ∃ t ∈ ts, term.span = t.span := by
  cases h with
  | dice _ _ => exact ⟨_, List.mem_cons_self, rfl⟩
  | kept _ _ _ _ => exact ⟨_, List.mem_cons_self, rfl⟩
  | constant _ => exact ⟨_, List.mem_cons_self, rfl⟩

/-- Every term has the span of one of the tokens that write the terms. -/
theorem WritesTerms.exists_token {sign : Sign} {ts : List Token} {terms : List Term}
    (h : WritesTerms sign ts terms) : ∀ term ∈ terms, ∃ t ∈ ts, term.span = t.span := by
  induction h with
  | last h => exact List.forall_mem_singleton.2 h.exists_token
  | more h _ _ ih =>
    refine List.forall_mem_cons.2 ⟨?_, fun term hterm => ?_⟩
    · obtain ⟨t, ht, hspan⟩ := h.exists_token
      exact ⟨t, List.mem_append_left _ ht, hspan⟩
    · obtain ⟨t, ht, hspan⟩ := ih term hterm
      exact ⟨t, List.mem_append_right _ (List.mem_cons_of_mem _ ht), hspan⟩

/-- Tokens come one after the other. -/
theorem Lexes.stop_le_start {start : Nat} {cs : List Char} {used after : List Token}
    (h : Lexes start cs (used ++ after)) :
    ∀ u ∈ used, ∀ t ∈ after, u.span.stop ≤ t.span.start := by
  intro u hu t ht
  obtain ⟨others, rest, rfl⟩ := List.append_of_mem ht
  rw [← List.append_assoc] at h
  obtain ⟨front, -, -, hstart, hfront, -⟩ := h.split_token
  have hle := hfront.stop_le u (List.mem_append_left _ hu)
  rwa [← hstart] at hle

/-- The text starts with these terms, within all limits, and after them come these tokens. -/
structure AcceptsUpTo (text : String) (terms : List Term) (after : List Token) : Prop where
  /-- The first tokens of the text write the terms, the first of them without a sign. -/
  writes : ∃ used, tokens text = used ++ after ∧ Writes .plus used terms
  /-- Every number is in its range. -/
  allowed : ∀ term ∈ terms, term.Allowed
  /-- There is no second constant. -/
  once : terms.countP Term.isConstant ≤ 1
  /-- The terms come before the tokens that are left. -/
  earlier : ∀ term ∈ terms, ∀ t ∈ after, term.span.stop ≤ t.span.start

theorem acceptsUpTo_of_writes {text : String} {terms : List Term} {used after : List Token}
    (htokens : tokens text = used ++ after) (hwrites : Writes .plus used terms)
    (hallowed : ∀ term ∈ terms, term.Allowed) (honce : constantCount false terms ≤ 1) :
    AcceptsUpTo text terms after where
  writes := ⟨used, htokens, hwrites⟩
  allowed := hallowed
  once := honce
  earlier := by
    rcases hwrites with ⟨rfl, -⟩ | hwrites
    · exact List.forall_mem_nil _
    · intro term hterm t ht
      obtain ⟨u, hu, hspan⟩ := hwrites.exists_token term hterm
      have hlexes := lexes_tokensFrom 0 text.toList
      rw [tokens] at htokens
      rw [htokens] at hlexes
      rw [hspan]
      exact hlexes.stop_le_start u hu t ht

/-! ## The log of a text -/

theorem parseLog_of_ok {text : String} {w : Written} (h : parse text = .ok w) :
    parseLog text = (Reading.ofText text).terms.map Term.event ++
      [.readFormula w.raw w.toFormula] := by
  rw [parseLog, h]

theorem parseLog_of_error {text : String} {e : ParseError} (h : parse text = .error e) :
    parseLog text = (Reading.ofText text).terms.map Term.event := by
  rw [parseLog, h, List.append_nil]

/-- Why reading stops after the terms that were accepted: what follows does not go on with another
one, or nothing follows and none of the terms is dice. -/
def Stopped (text : String) (terms : List Term) (after : List Token) (e : ParseError) : Prop :=
  BreaksOff text.utf8ByteSize false terms after e ∨
    after = [] ∧ terms ≠ [] ∧ terms.filterMap Term.group? = [] ∧ e = .noDice

theorem exists_stopped_of_error {text : String} {e : ParseError} (hblank : Text.trim text ≠ "")
    (h : parse text = .error e) :
    ∃ after, AcceptsUpTo text (Reading.ofText text).terms after ∧
      Stopped text (Reading.ofText text).terms after e := by
  have hproper := (lexes_tokensFrom 0 text.toList).proper
  have hread : Reading.ofText text = readTerms text.utf8ByteSize .plus false (tokens text) :=
    if_neg hblank
  rw [parse_eq_error_iff_formula, formula_eq_error_iff] at h
  generalize Reading.ofText text = r at h hread ⊢
  obtain ⟨terms, error⟩ := r
  rcases h with herror | ⟨rfl, herror, hgroups⟩
  · obtain rfl : error = some e := herror
    obtain ⟨used, after, htokens, hwrites, hallowed, honce, hbreaks⟩ :=
      writesTerms_of_error hproper hread.symm
    exact ⟨after, acceptsUpTo_of_writes htokens hwrites hallowed honce, .inl hbreaks⟩
  · obtain rfl : error = none := herror
    obtain ⟨hwrites, hallowed, honce⟩ := writesTerms_of_readTerms hproper hread.symm
    obtain ⟨-, first, others, heq, -⟩ := hwrites.exists_cons
    refine ⟨[], acceptsUpTo_of_writes (List.append_nil _).symm (.inr hwrites) hallowed honce,
      .inr ⟨rfl, ?_, hgroups, rfl⟩⟩
    show terms ≠ []
    rw [heq]
    exact List.cons_ne_nil _ _

/-! ## What a record says -/

/-- What the message of a term starts with. -/
def Term.heading : Term → String
  | dice .. => "dice group "
  | constant .. => "flat modifier "

/-- The record of a term in words: its sign, its canonical spelling, and the span of its first
token. -/
def Term.line (term : Term) : String :=
  term.heading ++ (term.piece.signedText ++ (" at " ++ term.span.text))

theorem message_event (term : Term) : term.event.message = term.line := by
  cases term with
  | dice group span =>
    show "dice group " ++ group.signedText ++ " at " ++ span.text = _
    rw [Term.line, String.append_assoc, String.append_assoc]
    rfl
  | constant sign amount span =>
    show "flat modifier " ++ sign.symbol ++ toString amount ++ " at " ++ span.text = _
    rw [Term.line, String.append_assoc, String.append_assoc, String.append_assoc, Term.piece,
      Piece.signedText, String.append_assoc]
    rfl

theorem unblank_signedText (p : Piece) : Unblank p.signedText.toList := by
  rw [Piece.signedText, String.toList_append]
  refine unblank_append ?_ (unblank_piece p)
  cases p.sign <;> exact unblank_of_all (by decide)

/-- A sign and what is written after it can be told apart. -/
theorem eq_of_symbol_append {sign sign' : Sign} {text text' : String}
    (h : sign.symbol ++ text = sign'.symbol ++ text') : sign = sign' ∧ text = text' := by
  have hchars := congrArg String.toList h
  rw [String.toList_append, String.toList_append] at hchars
  cases sign <;> cases sign' <;>
    simp [Sign.symbol, String.toList_inj] at hchars ⊢
  · exact hchars
  · exact hchars

theorem Term.Allowed.of_piece_eq {term term' : Term} (h : term.Allowed)
    (hpiece : term'.piece = term.piece) : term'.Allowed := by
  cases term <;> cases term' <;> cases hpiece <;> exact h

/-- A piece on its own is read as a term, if the term is within the limits. -/
theorem exists_readTerms_piece {term : Term} (h : term.Allowed) :
    ∃ ts term', Lexes 0 term.piece.text.toList ts ∧ term'.piece = term.piece ∧
      readTerms 0 term.piece.sign false ts = ⟨[term'], none⟩ := by
  obtain ⟨ts, terms, hlexes, hwrites, hterms⟩ := lexes_line term.piece [] 0
  obtain ⟨term', rfl⟩ : ∃ term', terms = [term'] := by
    rw [← List.length_eq_one_iff, ← List.length_map, hterms, List.length_singleton]
  have hpiece : term'.piece = term.piece := List.singleton_inj.1 hterms
  refine ⟨ts, term', ?_, hpiece, readTerms_of_writesTerms hwrites ?_ ?_⟩
  · simpa [Piece.line] using hlexes
  · exact List.forall_mem_singleton.2 (h.of_piece_eq hpiece)
  · exact List.countP_le_length

/-- No two terms within the limits are written alike. -/
theorem piece_eq_of_signedText_eq {term term' : Term} (hterm : term.Allowed)
    (hterm' : term'.Allowed) (h : term.piece.signedText = term'.piece.signedText) :
    term.piece = term'.piece := by
  obtain ⟨hsign, htext⟩ := eq_of_symbol_append h
  obtain ⟨ts, read, hlexes, hpiece, hread⟩ := exists_readTerms_piece hterm
  obtain ⟨ts', read', hlexes', hpiece', hread'⟩ := exists_readTerms_piece hterm'
  rw [htext] at hlexes
  obtain rfl : ts = ts' := hlexes.unique hlexes'
  rw [hsign, hread', Reading.mk.injEq] at hread
  rw [← hpiece, ← hpiece', List.singleton_inj.1 hread.1]

/-- **The record of a term says what the term is.** -/
theorem piece_eq_of_line_eq {term term' : Term} (hterm : term.Allowed) (hterm' : term'.Allowed)
    (h : term.line = term'.line) : term.piece = term'.piece := by
  rw [Term.line, Term.line] at h
  have hheading : term.heading = term'.heading := by
    have hhead := congrArg (fun text => text.toList.head?) h
    cases term <;> cases term' <;> first | rfl | simp [Term.heading] at hhead
  rw [hheading, String.append_right_inj, ← String.toList_inj] at h
  simp only [String.toList_append] at h
  have hblank : Text.isBlank ' ' = true := by decide
  exact piece_eq_of_signedText_eq hterm hterm' (String.toList_inj.1
    (eq_of_append_blank hblank (unblank_signedText _) (unblank_signedText _) h))

/-- The records of terms say what the terms are. -/
theorem map_piece_eq_of_lines_eq {terms terms' : List Term}
    (hterms : ∀ term ∈ terms, term.Allowed) (hterms' : ∀ term ∈ terms', term.Allowed)
    (h : terms.map Term.line = terms'.map Term.line) :
    terms.map Term.piece = terms'.map Term.piece := by
  induction terms generalizing terms' with
  | nil =>
    rw [List.map_nil, eq_comm, List.map_eq_nil_iff] at h
    rw [h]
  | cons term terms ih =>
    cases terms' with
    | nil => cases h
    | cons term' terms' =>
      obtain ⟨hfirst, hothers⟩ := List.cons.inj h
      obtain ⟨hterm, hterms⟩ := List.forall_mem_cons.1 hterms
      obtain ⟨hterm', hterms'⟩ := List.forall_mem_cons.1 hterms'
      rw [List.map_cons, List.map_cons, piece_eq_of_line_eq hterm hterm' hfirst,
        ih hterms hterms' hothers]

/-! ## Records and results -/

/-- The messages of the trace records that reading a text leaves. -/
def traces (text : String) : List String :=
  ((parseLog text).filter fun e => e.level = .trace).map Event.message

theorem level_event (term : Term) : term.event.level = .trace := by
  cases term <;> rfl

theorem filter_trace_events (terms : List Term) :
    (terms.map Term.event).filter (fun e => e.level = .trace) = terms.map Term.event := by
  refine List.filter_eq_self.2 (List.forall_mem_map.2 fun term _ => ?_)
  rw [level_event]
  rfl

/-- The log of reading the text has these terms one after the other, and then these events. -/
structure Records (text : String) (terms : List Term) (last : List Event) : Prop where
  /-- There is one record for each term. -/
  log : parseLog text = terms.map Term.event ++ last
  /-- The trace records are those of the terms. -/
  traces : traces text = terms.map Term.line

theorem records_of_log {text : String} {terms : List Term} {last : List Event}
    (h : parseLog text = terms.map Term.event ++ last)
    (hlast : last.filter (fun e => e.level = .trace) = []) : Records text terms last := by
  refine ⟨h, ?_⟩
  rw [traces, h, List.filter_append, filter_trace_events, hlast, List.append_nil, List.map_map]
  exact List.map_congr_left fun term _ => message_event term

/-- A formula that was read is made up of terms, and each of them has a record. -/
theorem exists_records_of_ok {text : String} {w : Written} (h : parse text = .ok w) :
    ∃ terms, Accepts text terms ∧ w.groups = terms.filterMap Term.group? ∧
      w.constant = (terms.filterMap Term.constant?).sum ∧
      Records text terms [.readFormula w.raw w.toFormula] := by
  obtain ⟨terms, haccepts, hgroups, hconstant, -⟩ := exists_accepts_of_parse h
  refine ⟨terms, haccepts, hgroups, hconstant, records_of_log ?_ rfl⟩
  rw [parseLog_of_ok h, (ofText_eq_iff.2 haccepts).1]

theorem records_of_error {text : String} {e : ParseError} (h : parse text = .error e) :
    Records text (Reading.ofText text).terms [] :=
  records_of_log (by rw [parseLog_of_error h, List.append_nil]) rfl

/-- Texts that are read with the same trace records mean the same. -/
theorem same_of_traces_eq {text text' : String} {w w' : Written} (h : parse text = .ok w)
    (h' : parse text' = .ok w') (htraces : traces text = traces text') : w.Same w' := by
  obtain ⟨terms, haccepts, hgroups, hconstant, hrecords⟩ := exists_records_of_ok h
  obtain ⟨terms', haccepts', hgroups', hconstant', hrecords'⟩ := exists_records_of_ok h'
  rw [hrecords.traces, hrecords'.traces] at htraces
  have hpieces := map_piece_eq_of_lines_eq haccepts.allowed haccepts'.allowed htraces
  rw [← filterMap_group?_piece] at hgroups hgroups'
  rw [← filterMap_constant?_piece] at hconstant hconstant'
  exact ⟨by rw [hgroups, hgroups', hpieces], by rw [hconstant, hconstant', hpieces]⟩

/-- Only a formula that was read has a debug record. -/
theorem exists_debug_iff (text : String) :
    (∃ e ∈ parseLog text, e.level = .debug) ↔ ∃ w, parse text = .ok w := by
  have hterms : ¬∃ e ∈ (Reading.ofText text).terms.map Term.event, e.level = .debug := by
    rintro ⟨e, he, hlevel⟩
    obtain ⟨term, -, rfl⟩ := List.mem_map.1 he
    rw [level_event] at hlevel
    cases hlevel
  cases h : parse text with
  | ok w =>
    rw [parseLog_of_ok h]
    exact ⟨fun _ => ⟨w, rfl⟩, fun _ => ⟨_, List.mem_append_right _ List.mem_cons_self, rfl⟩⟩
  | error e =>
    rw [parseLog_of_error h]
    refine ⟨fun hdebug => absurd hdebug hterms, ?_⟩
    rintro ⟨w, hw⟩
    cases hw

/-- **The log of reading has a record for each accepted term.**  For a formula these are all its
terms, and a last record names the formula; a text that is no formula has a record for each term
before the error, a blank text none at all.  The trace records alone say what a formula means. -/
theorem parseLog_records_accepted (text : String) :
    (∀ w, parse text = .ok w →
      ∃ terms, Accepts text terms ∧ w.groups = terms.filterMap Term.group? ∧
        w.constant = (terms.filterMap Term.constant?).sum ∧
        Records text terms [.readFormula w.raw w.toFormula]) ∧
      (∀ e, parse text = .error e →
        (Text.trim text = "" ∧ parseLog text = []) ∨
          (Text.trim text ≠ "" ∧ ∃ terms after, AcceptsUpTo text terms after ∧
            Stopped text terms after e ∧ Records text terms [])) ∧
      ((∃ e ∈ parseLog text, e.level = .debug) ↔ ∃ w, parse text = .ok w) ∧
      ∀ text' w w', parse text = .ok w → parse text' = .ok w' → traces text = traces text' →
        w.Same w' := by
  refine ⟨fun w h => exists_records_of_ok h, fun e h => ?_, exists_debug_iff text,
    fun text' w w' h h' => same_of_traces_eq h h'⟩
  by_cases hblank : Text.trim text = ""
  · refine .inl ⟨hblank, ?_⟩
    rw [parseLog_of_error h, Reading.ofText, if_pos hblank]
    rfl
  · obtain ⟨after, haccepts, hstopped⟩ := exists_stopped_of_error hblank h
    exact .inr ⟨hblank, _, after, haccepts, hstopped, records_of_error h⟩

/-- Two terms are accepted, and the third has too many dice. -/
theorem parseLog_records_accepted_two :
    parse "4d6kh3 + 5 - 101d6" = .error (.countOutOfRange ⟨⟨13, 18⟩, "101d6"⟩ 101) ∧
      traces "4d6kh3 + 5 - 101d6" = ["dice group +4d6kh3 at 0..3", "flat modifier +5 at 9..10"] ∧
      ∃ terms after, AcceptsUpTo "4d6kh3 + 5 - 101d6" terms after ∧
        Stopped "4d6kh3 + 5 - 101d6" terms after (.countOutOfRange ⟨⟨13, 18⟩, "101d6"⟩ 101) ∧
        Records "4d6kh3 + 5 - 101d6" terms [] := by
  have hparse : parse "4d6kh3 + 5 - 101d6" =
      .error (.countOutOfRange ⟨⟨13, 18⟩, "101d6"⟩ 101) := by
    decide +kernel
  rcases (parseLog_records_accepted "4d6kh3 + 5 - 101d6").2.1 _ hparse with
    ⟨hblank, -⟩ | ⟨-, haccepted⟩
  · have hne : Text.trim "4d6kh3 + 5 - 101d6" ≠ "" := by decide +kernel
    exact absurd hblank hne
  · exact ⟨hparse, by decide +kernel, haccepted⟩

end Dicebag
