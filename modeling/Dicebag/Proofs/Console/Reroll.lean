import Dicebag.Proofs.Console.Lines
import Dicebag.Proofs.Console.Turns
import Dicebag.Proofs.Formula.Trimming
import Dicebag.Proofs.Roll.Spelling
import Dicebag.Roller.Scripted

/-!
# A reroll is the formula typed again

A console keeps the formula that it read last, and a reroll is a short way to roll it once more.
`reroll_eq_retype` says that it is no more than that: where rerolls in an input are replaced by the
formula itself, spelled as it was or as it is written canonically, the run is the same.

The two consoles are not quite the same after that, since each keeps the spelling of its own line.
They are `Alike`: in all that is ever shown, and in the formula that they will roll again.  Each
line keeps them so, the same line in both (`step_alike`), or a reroll in one and a spelling of its
formula in the other; either way both have the same formula rolled (`step_asked_alike`).  Reading a
formula is logged, which a reroll is not, so the log must not show that.
-/

set_option autoImplicit false

namespace Dicebag

/-! ## Spellings -/

namespace Console

/-- A formula is read from its spelling. -/
theorem formula?_raw {line : String} {w : Written} (h : formula? line = some w) :
    formula? w.raw = some w := by
  have hraw := (parse_eq_ok_iff.1 (formula?_eq_some_iff.1 h)).2
  rw [Text.trim_trim] at hraw
  rw [hraw, formula?, Text.trim_trim]
  exact h

/-- A formula is read from its canonical spelling. -/
theorem formula?_text {line : String} {w : Written} (h : formula? line = some w) :
    formula? w.text = some ⟨w.toFormula, w.text⟩ := by
  have hparse := parse_text (wellFormed_of_parse (formula?_eq_some_iff.1 h))
  have htrim := (parse_eq_ok_iff.1 hparse).2
  rw [formula?_eq_some_iff, ← htrim]
  exact hparse

/-- Two inputs that are the same but for some rerolls, for which the second one has the latest
formula before them, as that is spelled or canonically.  The latest formula before all lines is
`last`. -/
inductive TypedOut : Option Written → List String → List String → Prop
  /-- No lines are left. -/
  | nil (last : Option Written) : TypedOut last [] []
  /-- The line is the same in both. -/
  | same {last : Option Written} {line : String} {lines lines' : List String}
      (rest : TypedOut (latest last line) lines lines') :
      TypedOut last (line :: lines) (line :: lines')
  /-- The second input has the formula where the first one has a reroll. -/
  | typed {w : Written} {line line' : String} {lines lines' : List String}
      (reroll : IsReroll line) (spelled : line' = w.raw ∨ line' = w.text)
      (rest : TypedOut (some w) lines lines') :
      TypedOut (some w) (line :: lines) (line' :: lines')

/-! ## Two consoles -/

variable {σ : Type}

/-- Two consoles that look the same and remember the same formula, maybe in other spellings. -/
structure Alike (last last' : Option Written) (c c' : Console σ) : Prop where
  /-- The log does not show what they read. -/
  quiet : c.settings.Quiet
  /-- They have the same settings. -/
  settings : c.settings = c'.settings
  /-- They have the same history. -/
  history : c.history = c'.history
  /-- Their dice come from the same source in the same state. -/
  roller : c.roller = c'.roller
  /-- The first one remembers `last`. -/
  left : c.Remembers last
  /-- The second one remembers `last'`. -/
  right : c'.Remembers last'
  /-- These are the same formula. -/
  formulas : last.map Written.toFormula = last'.map Written.toFormula

/-- Two turns that write the same, and end alike. -/
inductive TurnsAlike (last last' : Option Written) : Turn σ → Turn σ → Prop
  /-- Both consoles go on. -/
  | more {output : Output} {c c' : Console σ} (h : Alike last last' c c') :
      TurnsAlike last last' ⟨output, .more c⟩ ⟨output, .more c'⟩
  /-- Both consoles end. -/
  | exit (output : Output) (code : Nat) :
      TurnsAlike last last' ⟨output, .exit code⟩ ⟨output, .exit code⟩

variable [Roller σ]

theorem rollRequest_alike {last last' : Option Written} {c c' : Console σ}
    (h : Alike last last' c c') {w w' : Written} (hw : w.toFormula = w'.toFormula) :
    TurnsAlike (some w) (some w') (c.rollRequest (c.request w)) (c'.rollRequest (c'.request w')) := by
  obtain ⟨settings, history, again, roller⟩ := c
  obtain ⟨settings', history', again', roller'⟩ := c'
  obtain ⟨hquiet, rfl, rfl, rfl, -, -, -⟩ := h
  simp only [rollRequest, request, Request.roll, Request.formula, hw]
  cases ((w'.toFormula.roll settings.mode settings.modifier).run roller).answer with
  | error fault => exact .exit _ _
  | ok roll => exact .more ⟨hquiet, rfl, rfl, rfl, rfl, rfl, congrArg some hw⟩

/-- **Lines that ask for the same formula do the same.** -/
theorem step_asked_alike {last last' : Option Written} {c c' : Console σ}
    (h : Alike last last' c c') {line line' : String} {w w' : Written}
    (hw : asked? last line = some w) (hw' : asked? last' line' = some w')
    (hformula : w.toFormula = w'.toFormula) :
    TurnsAlike (some w) (some w') (c.step line) (c'.step line') := by
  have hquiet' : c'.settings.Quiet := h.settings ▸ h.quiet
  rw [step_asked h.left hw, step_asked h.right hw', logLines_quiet h.quiet, logLines_quiet hquiet',
    Output.none_append, Output.none_append]
  exact rollRequest_alike h hformula

theorem asked?_alike {last last' : Option Written}
    (h : last.map Written.toFormula = last'.map Written.toFormula) {line : String} {w : Written}
    (hw : asked? last line = some w) :
    ∃ w', asked? last' line = some w' ∧ w.toFormula = w'.toFormula := by
  rw [asked?, Option.or_eq_some_iff] at hw
  rcases hw with hw | ⟨hnone, hw⟩
  · exact ⟨w, by rw [asked?, hw, Option.some_or], rfl⟩
  · split at hw
    · next hreroll =>
      rw [hw, Option.map_some, eq_comm, Option.map_eq_some_iff] at h
      obtain ⟨w', hlast', hformula⟩ := h
      exact ⟨w', by rw [asked?, hnone, Option.none_or, if_pos hreroll, hlast'], hformula.symm⟩
    · cases hw

/-- **The same line keeps two consoles alike.** -/
theorem step_alike {last last' : Option Written} {c c' : Console σ} (h : Alike last last' c c')
    (line : String) :
    TurnsAlike (latest last line) (latest last' line) (c.step line) (c'.step line) := by
  rcases line_cases last line with hquit | hidle | ⟨w, hw⟩
  · rw [step_quit hquit, step_quit hquit]
    exact .exit _ _
  · have hidle' : Idle last' line := by
      refine hidle.imp_right fun hidle => hidle.imp_right fun ⟨hreroll, hnone⟩ => ⟨hreroll, ?_⟩
      have hformulas := h.formulas
      rwa [hnone, Option.map_none, eq_comm, Option.map_eq_none_iff] at hformulas
    rw [step_idle h.left hidle, step_idle h.right hidle', h.settings, h.history,
      latest_of_idle hidle, latest_of_idle hidle']
    exact .more h
  · obtain ⟨w', hw', hformula⟩ := asked?_alike h.formulas hw
    rw [latest_of_asked? hw, latest_of_asked? hw']
    exact step_asked_alike h hw hw' hformula

/-- A reroll, and a spelling of the formula that it rolls. -/
theorem exists_asked?_of_spelled {line line' : String} {w : Written} (h : formula? line = some w)
    (hspelled : line' = w.raw ∨ line' = w.text) (last' : Option Written) :
    ∃ w', asked? last' line' = some w' ∧ w.toFormula = w'.toFormula := by
  rcases hspelled with rfl | rfl
  · exact ⟨w, by rw [asked?, formula?_raw h, Option.some_or], rfl⟩
  · exact ⟨⟨w.toFormula, w.text⟩, by rw [asked?, formula?_text h, Option.some_or], rfl⟩

theorem run_cons_alike {last last' : Option Written} {c c' : Console σ} {line line' : String}
    (h : TurnsAlike last last' (c.step line) (c'.step line')) {lines lines' : List (Option String)}
    (hrest : ∀ d d' : Console σ, Alike last last' d d' → d'.run lines' = d.run lines) :
    c'.run (some line' :: lines') = c.run (some line :: lines) := by
  generalize hstep : c.step line = turn at h
  generalize hstep' : c'.step line' = turn' at h
  cases h with
  | more halike => rw [run_of_more hstep, run_of_more hstep', hrest _ _ halike]
  | exit output code => rw [run_of_exit hstep, run_of_exit hstep']

/-- **Consoles that are alike have the same run**, where the input of the second one has spellings
of the formulas that the first one rolls again. -/
theorem run_typedOut {last last' : Option Written} {lines lines' : List String}
    (h : TypedOut last lines lines') {c c' : Console σ} (halike : Alike last last' c c')
    (hread : ∀ w, last = some w → ∃ line, formula? line = some w) :
    c'.run (lines'.map some) = c.run (lines.map some) := by
  induction h generalizing c c' last' with
  | nil => rfl
  | @same last line lines lines' _ ih =>
    have hread' : ∀ w, latest last line = some w → ∃ line, formula? line = some w := by
      intro w hw
      rw [latest, Option.or_eq_some_iff] at hw
      exact hw.elim (fun hw => ⟨line, hw⟩) fun hw => hread w hw.2
    exact run_cons_alike (step_alike halike line) fun d d' hnext => ih hnext hread'
  | @typed w line line' lines lines' hreroll hspelled _ ih =>
    obtain ⟨_, hformula⟩ := hread w rfl
    obtain ⟨w', hw', hsame⟩ := exists_asked?_of_spelled hformula hspelled last'
    have hw : asked? (some w) line = some w := by
      rw [asked?, formula?_of_isReroll hreroll, Option.none_or, if_pos hreroll]
    exact run_cons_alike (step_asked_alike halike hw hw' hsame) fun d d' hnext => ih hnext hread

/-- **A reroll is the formula typed again.**  Where the log does not show what is read, any number
of rerolls in an input can be replaced by the latest formula before them, as it was spelled, without
the blanks around it, or canonically.  All that is written to both outputs and the exit code stay
the same. -/
theorem reroll_eq_retype {settings : Settings} (hquiet : settings.Quiet) (roller : σ)
    {input input' : String} (h : TypedOut none (textLines input) (textLines input')) :
    transcript settings roller (linesOf (bytesOf input')) =
      transcript settings roller (linesOf (bytesOf input)) := by
  have hopening := remembers_opening settings roller
  have halike : Alike none none (opening settings roller) (opening settings roller) :=
    ⟨hquiet, rfl, rfl, rfl, hopening, hopening, rfl⟩
  rw [linesOf_bytesOf, linesOf_bytesOf]
  exact transcript_congr (run_typedOut h halike fun w hw => by cases hw)

/-- A reroll spelled as the formula was, and one spelled canonically. -/
theorem reroll_eq_retype_twice :
    let settings := Draft.empty.settings
    let roller : Script := ⟨[3, 6, 2]⟩
    settings.Quiet ∧ TypedOut none (textLines "d6 \nr\nh\n\n") (textLines "d6 \nd6\nh\n1d6\n") ∧
      transcript settings roller (linesOf (bytesOf "d6 \nd6\nh\n1d6\n")) =
        transcript settings roller (linesOf (bytesOf "d6 \nr\nh\n\n")) := by
  intro settings roller
  have hquiet : settings.Quiet := quiet_of_warn (by decide)
  have hinput : textLines "d6 \nr\nh\n\n" = ["d6 ", "r", "h", ""] := by decide
  have hinput' : textLines "d6 \nd6\nh\n1d6\n" = ["d6 ", "d6", "h", "1d6"] := by decide
  have hfirst : latest none "d6 " = some ⟨.single ⟨.plus, 1, 6, none⟩, "d6"⟩ := by decide +kernel
  have hlist : ∀ last, latest last "h" = last := latest_of_none (by decide +kernel)
  have htyped : TypedOut none (textLines "d6 \nr\nh\n\n") (textLines "d6 \nd6\nh\n1d6\n") := by
    rw [hinput, hinput']
    refine .same ?_
    rw [hfirst]
    refine .typed (by decide) (.inl rfl) (.same ?_)
    rw [hlist]
    exact .typed (by decide) (.inr (by decide)) (.nil _)
  exact ⟨hquiet, htyped, reroll_eq_retype hquiet roller htyped⟩

end Console
end Dicebag
