import Dicebag.Proofs.Console.Turns
import Dicebag.Proofs.Formula.Position

/-!
# The mark below a rejected line

A console repeats a text that it rejects and puts carets below the place of the error.  It goes by
the bytes of the place, while a terminal shows characters.

* Before the place this makes no difference.  What was accepted is ASCII, so that the mark starts
  exactly below the first character of the place (`Excerpt.Stands.column`).
* At the place it does where the error is about a stray character that is not ASCII: this gets a
  caret for each of its bytes, and at least two (`Marks.exact_iff`, `not_exact_below_two_bytes`).
-/

set_option autoImplicit false

namespace Dicebag

/-! ## Bytes and characters -/

theorem length_le_byteLength (cs : List Char) : cs.length ≤ Text.byteLength cs := by
  induction cs with
  | nil => exact Nat.le_refl 0
  | cons c cs ih =>
    have hc := Char.utf8Size_pos c
    rw [Text.byteLength, List.length_cons]
    omega

theorem IsAscii.of_utf8Size_eq {c : Char} (h : c.utf8Size = 1) : IsAscii c :=
  Nat.lt_succ_of_le (UInt32.le_iff_toNat_le.1 (Char.utf8Size_eq_one_iff.1 h))

/-- A text has as many bytes as characters exactly if it is ASCII. -/
theorem byteLength_eq_length_iff {cs : List Char} :
    Text.byteLength cs = cs.length ↔ ∀ c ∈ cs, IsAscii c := by
  refine ⟨fun h => ?_, byteLength_of_isAscii⟩
  induction cs with
  | nil => simp
  | cons c cs ih =>
    have hc := Char.utf8Size_pos c
    have hcs := length_le_byteLength cs
    rw [Text.byteLength, List.length_cons] at h
    exact List.forall_mem_cons.2 ⟨.of_utf8Size_eq (by omega), ih (by omega)⟩

theorem Excerpt.CutFrom.length_span {x : Excerpt} {text front : String} (h : x.CutFrom text front) :
    x.span.length = x.slice.utf8ByteSize := by
  have hstart := h.start
  have hstop := h.stop
  rw [String.utf8ByteSize_append] at hstop
  rw [Span.length]
  omega

/-! ## The place of an error on a terminal -/

/-- The excerpt is a place that an error of the text can have, and `front` is what comes before. -/
structure Excerpt.Stands (x : Excerpt) (text front : String) : Prop where
  /-- The excerpt is what the text has there. -/
  cut : x.CutFrom text front
  /-- As many characters come before it as bytes. -/
  column : x.span.start = front.length
  /-- It is ASCII, or a single character that is not. -/
  slice : (∀ c ∈ x.slice.toList, IsAscii c) ∨ ∃ c, ¬IsAscii c ∧ x.slice = String.singleton c

/-- Only a stray character is not ASCII. -/
theorem Token.Proper.isAscii_or {t : Token} (h : t.Proper) :
    (∀ c ∈ t.lexeme, IsAscii c) ∨ ∃ c, ¬IsAscii c ∧ t.lexeme = [c] := by
  by_cases hk : t.kind = .unknown
  · rw [Token.Proper, hk] at h
    obtain ⟨c, hc⟩ := h
    by_cases hascii : IsAscii c
    · exact .inl (by rw [hc]; exact List.forall_mem_singleton.2 hascii)
    · exact .inr ⟨c, hascii, hc⟩
  · exact .inl fun c hc => (isLexical_of_mem hk h hc).isAscii

theorem Excerpt.TruePlace.stands_emptyAt {text front : String} {before : List Token} {n : Nat}
    (h : (Excerpt.emptyAt n).TruePlace text front before) : (Excerpt.emptyAt n).Stands text front :=
  ⟨h.cut, h.column, .inl (by simp [Excerpt.emptyAt])⟩

/-- The place of an error, found out from where reading halts. -/
theorem Halts.exists_stands {text : String} {e : ParseError} {x : Excerpt} (h : Halts text e)
    (hx : e.place? = some x) : ∃ front, x.Stands text front := by
  cases h with
  | blank hblank =>
    cases hx
    exact ⟨"", (truePlace_of_blank hblank).stands_emptyAt⟩
  | @token before after t w _ hblank htokens hw hstops =>
    rw [hstops.place?_eq, Option.some_inj] at hx
    subst hx
    obtain ⟨front, hplace⟩ := truePlace_of_stops hblank htokens hw hstops
    have hmem : t ∈ tokens text := by rw [htokens]; simp
    refine ⟨front, hplace.cut, hplace.column, ?_⟩
    rcases ((lexes_tokensFrom 0 text.toList).proper t hmem).isAscii_or with hascii | ⟨c, hc, hone⟩
    · exact .inl (by rwa [Token.excerpt, String.toList_ofList])
    · exact .inr ⟨c, hc, by rw [Token.excerpt, hone, String.singleton_eq_ofList]⟩
  | ending hblank hw hstage =>
    cases hx
    exact ⟨text, (truePlace_of_ending hblank hw hstage).stands_emptyAt⟩

theorem exists_stands_of_parse {text : String} {e : ParseError} {x : Excerpt}
    (h : parse text = .error e) (hx : e.place? = some x) : ∃ front, x.Stands text front := by
  have he : e ≠ .noDice := by
    rintro rfl
    cases hx
  exact (halts_of_parse h he).exists_stands hx

/-! ## The report -/

namespace Console

/-- A mark of `width` carets, with `before` spaces in front. -/
def mark (before width : Nat) : String :=
  String.ofList (List.replicate before ' ' ++ List.replicate width '^')

/-- Three lines on the standard error: a message, a text and a mark below the text.  The text and
the mark have the same margin. -/
def markedLines (message typed : String) (before width : Nat) : Output :=
  .errorLine message ++ (.errorLine ("  " ++ typed) ++ .errorLine ("  " ++ mark before width))

theorem length_mark (before width : Nat) : (mark before width).length = before + width := by
  rw [mark, String.length_ofList, List.length_append, List.length_replicate,
    List.length_replicate]

/-- How wide a mark is can be told from the lines. -/
theorem width_of_markedLines {message typed : String} {before width width' : Nat}
    (h : markedLines message typed before width = markedLines message typed before width') :
    width = width' := by
  have herr (n : Nat) : (markedLines message typed before n).err =
      message ++ "\n" ++ ("  " ++ typed ++ "\n" ++ ("  " ++ mark before n ++ "\n")) := rfl
  have hlength := congrArg (fun output => output.err.length) h
  simp only [herr, String.length_append, length_mark] at hlength
  omega

/-- What a console says of an error that has a place. -/
theorem report_of_stands {typed front : String} {e : ParseError} {x : Excerpt}
    (h : x.Stands typed front) (hx : e.place? = some x) :
    report typed e = markedLines ("Error: " ++ e.message) typed front.length
      (max x.slice.utf8ByteSize 1) := by
  rw [report, hx, markedLines, mark, ← h.cut.length_span, ← h.column, String.ofList_append,
    ← String.append_assoc]

/-- The mark is as wide as the place exactly if the place is ASCII. -/
theorem max_size_eq_iff (slice : String) :
    max slice.utf8ByteSize 1 = max slice.length 1 ↔ ∀ c ∈ slice.toList, IsAscii c := by
  rw [← byteLength_eq_length_iff, ← Text.utf8ByteSize_eq, String.length_toList]
  have hle := length_le_byteLength slice.toList
  rw [← Text.utf8ByteSize_eq, String.length_toList] at hle
  by_cases hempty : slice = ""
  · rw [hempty]
    decide
  · have hpos : slice.length ≠ 0 := mt String.length_eq_zero_iff.1 hempty
    omega

/-- How a console marks the place `x` of the error `e` below the text `typed`, where `front` is
what comes before the place. -/
structure Marks (typed front : String) (e : ParseError) (x : Excerpt) : Prop where
  /-- The place is what the text has after the front. -/
  cut : x.CutFrom typed front
  /-- The mark starts below it, and has a caret for each of its bytes. -/
  lines : report typed e =
    markedLines ("Error: " ++ e.message) typed front.length (max x.slice.utf8ByteSize 1)
  /-- It has a caret for each of its characters exactly if these are ASCII. -/
  exact_iff : report typed e =
      markedLines ("Error: " ++ e.message) typed front.length (max x.slice.length 1) ↔
    ∀ c ∈ x.slice.toList, IsAscii c
  /-- Otherwise the place is a single character. -/
  stray : (∀ c ∈ x.slice.toList, IsAscii c) ∨ ∃ c, ¬IsAscii c ∧ x.slice = String.singleton c

/-- **A rejected line is repeated with a mark below it.**  The mark starts exactly below the place
of the error, and it is exactly as wide unless the error is about a character that is not ASCII.
Any line that is no command is answered so, and the console goes on unchanged. -/
theorem report_marks {line : String} {e : ParseError} {x : Excerpt}
    (h : parse (Text.trim line) = .error e) (hx : e.place? = some x) :
    (∃ front, Marks (Text.trim line) front e x) ∧
      (Text.trim line ∉ ["", "q", "h", "r"] → ∀ {σ : Type} [Roller σ] (c : Console σ),
        c.step line = goOn (logLines c.settings (parseLog (Text.trim line)) ++
          report (Text.trim line) e) c) := by
  constructor
  · obtain ⟨front, hstands⟩ := exists_stands_of_parse h hx
    have hlines := report_of_stands hstands hx
    refine ⟨front, hstands.cut, hlines, ?_, hstands.slice⟩
    rw [hlines, ← max_size_eq_iff]
    exact ⟨width_of_markedLines, fun hsize => by rw [hsize]⟩
  · intro hother σ _ c
    rw [step_other hother, h]

/-- A keep suffix for more dice than there are, between blanks. -/
theorem report_marks_keep :
    parse (Text.trim " 2d6 kh3 ") = .error (.keepOutOfRange ⟨⟨4, 7⟩, "kh3"⟩ 3 2) ∧
      (∃ front, Marks (Text.trim " 2d6 kh3 ") front (.keepOutOfRange ⟨⟨4, 7⟩, "kh3"⟩ 3 2)
        ⟨⟨4, 7⟩, "kh3"⟩) ∧
      (Text.trim " 2d6 kh3 " ∉ ["", "q", "h", "r"] → ∀ {σ : Type} [Roller σ] (c : Console σ),
        c.step " 2d6 kh3 " = goOn (logLines c.settings (parseLog (Text.trim " 2d6 kh3 ")) ++
          report (Text.trim " 2d6 kh3 ") (.keepOutOfRange ⟨⟨4, 7⟩, "kh3"⟩ 3 2)) c) := by
  have hparse : parse (Text.trim " 2d6 kh3 ") = .error (.keepOutOfRange ⟨⟨4, 7⟩, "kh3"⟩ 3 2) := by
    decide +kernel
  exact ⟨hparse, report_marks hparse rfl⟩

/-- A character of two bytes gets two carets. -/
theorem not_exact_below_two_bytes :
    parse (Text.trim "d20+é") = .error (.unexpected ⟨⟨4, 6⟩, "é"⟩ ["<dice>", "<integer>"]) ∧
      (⟨⟨4, 6⟩, "é"⟩ : Excerpt).CutFrom "d20+é" "d20+" ∧
      report "d20+é" (.unexpected ⟨⟨4, 6⟩, "é"⟩ ["<dice>", "<integer>"]) =
        ⟨"", "Error: (at position 4): unexpected \"é\"; expected <dice> or <integer>\n" ++
          "  d20+é\n" ++ "      ^^\n"⟩ ∧
      report "d20+é" (.unexpected ⟨⟨4, 6⟩, "é"⟩ ["<dice>", "<integer>"]) ≠
        markedLines ("Error: " ++
            (ParseError.unexpected ⟨⟨4, 6⟩, "é"⟩ ["<dice>", "<integer>"]).message)
          "d20+é" "d20+".length (max "é".length 1) :=
  ⟨by decide +kernel, cutFrom_of_split "" rfl rfl rfl, by decide +kernel, by decide +kernel⟩

end Console
end Dicebag
