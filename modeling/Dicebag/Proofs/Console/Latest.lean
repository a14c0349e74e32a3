import Dicebag.Proofs.Console.Lines
import Dicebag.Proofs.Console.Turns
import Dicebag.Roller.Scripted

/-!
# The history is the latest rolls

`listing_is_latest_rolls` says what a listing has: the lines that the latest rolls have shown,
rerolls included, the latest first and numbered from one, as many as there are and as the history
may hold.  They are compared with what was really written after each of the lines before
(`Shown`), not with what the console keeps.

`Goes` follows a console along some lines.  What it keeps after them is what is shown on the way, in
front of what it kept before and cut off behind (`Goes.exists_shown`); that is an induction on the
lines, with `take_append_take` for a history that is cut off after each of them.
-/

set_option autoImplicit false

namespace Dicebag
namespace Console

variable {σ : Type} [Roller σ]

/-! ## Along some lines -/

/-- The console answers these lines with these outputs, and goes on as another. -/
inductive Goes : Console σ → List String → List Output → Console σ → Prop
  /-- There is no line. -/
  | nil (c : Console σ) : Goes c [] [] c
  /-- A line is answered, and then the others. -/
  | cons {c mid c' : Console σ} {line : String} {lines : List String} {output : Output}
      {outputs : List Output} (step : c.step line = ⟨output, .more mid⟩)
      (rest : Goes mid lines outputs c') : Goes c (line :: lines) (output :: outputs) c'

namespace Goes

variable {c c' : Console σ} {lines : List String} {outputs : List Output}

theorem length_eq (h : Goes c lines outputs c') : outputs.length = lines.length := by
  induction h with
  | nil => rfl
  | cons _ _ ih => rw [List.length_cons, List.length_cons, ih]

theorem replies_eq (h : Goes c lines outputs c') (later : List (Option String)) :
    c.replies (lines.map some ++ later) = outputs ++ c'.replies later := by
  induction h with
  | nil => rfl
  | cons step _ ih => rw [List.map_cons, List.cons_append, replies_of_more step, ih, List.cons_append]

theorem append_iff {front back : List String} :
    Goes c (front ++ back) outputs c' ↔
      ∃ before later mid, outputs = before ++ later ∧ Goes c front before mid ∧
        Goes mid back later c' := by
  induction front generalizing c outputs with
  | nil =>
    refine ⟨fun h => ⟨[], outputs, c, rfl, .nil c, h⟩, fun ⟨before, later, mid, heq, h, h'⟩ => ?_⟩
    cases h
    rwa [heq]
  | cons line front ih =>
    refine ⟨fun h => ?_, fun ⟨before, later, mid, heq, h, h'⟩ => ?_⟩
    · obtain _ | ⟨step, rest⟩ := h
      obtain ⟨before, later, mid, rfl, h, h'⟩ := ih.1 rest
      exact ⟨_ :: before, later, mid, rfl, .cons step h, h'⟩
    · obtain _ | ⟨step, rest⟩ := h
      rw [heq]
      exact .cons step (ih.2 ⟨_, later, mid, rfl, rest, h'⟩)

theorem remembers {last : Option Written} (h : Goes c lines outputs c') (hlast : c.Remembers last) :
    c'.Remembers (lines.foldl latest last) := by
  induction h generalizing last with
  | nil => exact hlast
  | @cons c mid c' line lines output outputs step _ ih =>
    rw [List.foldl_cons]
    exact ih (hlast.next step)

end Goes

/-- If there is an answer to a later line, then the console goes along all lines before it. -/
theorem exists_goes {c : Console σ} {lines : List String} {later : List (Option String)}
    (h : lines.length < (c.replies (lines.map some ++ later)).length) :
    ∃ outputs c', Goes c lines outputs c' := by
  induction lines generalizing c with
  | nil => exact ⟨[], c, .nil c⟩
  | cons line lines ih =>
    rw [List.map_cons, List.cons_append] at h
    obtain ⟨output, code, hstep⟩ | ⟨output, mid, hstep⟩ := c.exit_or_more line
    · rw [replies_of_exit hstep, List.length_cons, List.length_singleton] at h
      omega
    · rw [replies_of_more hstep, List.length_cons, List.length_cons] at h
      obtain ⟨outputs, c', hrest⟩ := ih (Nat.lt_of_succ_lt_succ h)
      exact ⟨output :: outputs, c', .cons hstep hrest⟩

/-! ## What is shown on the way -/

/-- The lines that are shown for the rolls among some lines: what is written to the standard output
for each line that asks for a formula, without the prompt.  The latest formula before all lines is
`last`. -/
inductive Shown : Option Written → List String → List Output → List String → Prop
  /-- No lines are left. -/
  | nil (last : Option Written) : Shown last [] [] []
  /-- The line does not ask for a roll. -/
  | other {last : Option Written} {line : String} {lines texts : List String} {reply : Output}
      {replies : List Output} (asks : asked? last line = none)
      (rest : Shown (latest last line) lines replies texts) :
      Shown last (line :: lines) (reply :: replies) texts
  /-- The line asks for a roll, and a line is shown for it. -/
  | roll {last : Option Written} {w : Written} {line text : String} {lines texts : List String}
      {reply : Output} {replies : List Output} (asks : asked? last line = some w)
      (shows : reply.out = text ++ "\n" ++ "> ")
      (rest : Shown (latest last line) lines replies texts) :
      Shown last (line :: lines) (reply :: replies) (text :: texts)

/-- What is cut off before is cut off afterwards. -/
theorem take_append_take {α : Type} (n : Nat) (xs ys : List α) :
    (xs ++ ys.take n).take n = (xs ++ ys).take n := by
  rw [List.take_append, List.take_append, List.take_take, Nat.min_eq_left (Nat.sub_le _ _)]

/-- **A console keeps what is shown on the way**, in front of what it kept before. -/
theorem Goes.exists_shown {c c' : Console σ} {lines : List String} {outputs : List Output}
    (h : Goes c lines outputs c') {last : Option Written} (hlast : c.Remembers last) :
    ∃ texts, Shown last lines outputs texts ∧
      c'.history.entries = (texts.reverse ++ c.history.entries).take c.history.cap := by
  induction h generalizing last with
  | nil c =>
    refine ⟨[], .nil last, ?_⟩
    rw [List.reverse_nil, List.nil_append, List.take_of_length_le c.history.length_le]
  | @cons c mid c' line lines output outputs step _ ih =>
    obtain ⟨texts, hshown, hentries⟩ := ih (hlast.next step)
    rcases step_cases hlast line with ⟨_, _, hstep⟩ | ⟨hidle, hstep⟩ |
      ⟨w, log, text, roller, hw, hlog, hstep⟩
    · rw [step] at hstep
      cases hstep
    · obtain ⟨rfl, rfl⟩ := eq_of_goOn (step.symm.trans hstep)
      exact ⟨texts, .other (asked?_of_idle hidle) hshown, hentries⟩
    · obtain ⟨rfl, rfl⟩ := eq_of_goOn (step.symm.trans hstep)
      refine ⟨text :: texts, .roll hw ?_ hshown, ?_⟩
      · show log.out ++ (text ++ "\n") ++ "> " = _
        rw [hlog, String.empty_append]
      · rw [hentries]
        show (texts.reverse ++ (text :: c.history.entries).take c.history.cap).take c.history.cap = _
        rw [take_append_take, List.reverse_cons, List.append_assoc, List.singleton_append]

/-! ## Listings -/

theorem length_listing (h : History) : h.listing.length = h.entries.length := by
  rw [History.listing, List.length_map, List.length_zipIdx]

theorem getElem?_listing (h : History) (i : Nat) :
    h.listing[i]? = h.entries[i]?.map fun entry => History.numbered (i + 1) ++ ". " ++ entry := by
  rw [History.listing, List.getElem?_map, List.getElem?_zipIdx, Option.map_map, Nat.zero_add]
  rfl

/-- What is written for a listing: each of its lines, and the prompt. -/
theorem out_listing (c : Console σ) {line : String} (h : Text.trim line = "h") :
    ∃ reply : Output, c.step line = ⟨reply, .more c⟩ ∧
      reply.out = String.join (c.history.listing.map (· ++ "\n")) ++ "> " := by
  refine ⟨_, step_list h c, ?_⟩
  rw [Output.out_append, Output.out_concat, List.map_map]
  rfl

/-- Without a line that asks for nothing, a console gets to where it gets with it. -/
theorem Goes.drop {c c' : Console σ} {last : Option Written} (hlast : c.Remembers last)
    {front back : List String} {line : String} {outputs : List Output}
    (h : Goes c (front ++ line :: back) outputs c')
    (hasks : asked? (front.foldl latest last) line = none) :
    ∃ outputs', Goes c (front ++ back) outputs' c' := by
  obtain ⟨before, later, mid, -, hfront, hrest⟩ := Goes.append_iff.1 h
  obtain _ | ⟨step, hback⟩ := hrest
  have hmid := hfront.remembers hlast
  rcases step_cases hmid line with ⟨_, _, hstep⟩ | ⟨-, hstep⟩ | ⟨w, _, _, _, hw, _⟩
  · rw [step] at hstep
    cases hstep
  · obtain ⟨-, rfl⟩ := eq_of_goOn (step.symm.trans hstep)
    exact ⟨_, Goes.append_iff.2 ⟨_, _, _, rfl, hfront, hback⟩⟩
  · rw [hasks] at hw
    cases hw

/-- The answer to a line that a console gets to. -/
theorem Goes.getElem?_answers {settings : Settings} {roller : σ} {c : Console σ}
    {before later : List String} {outputs : List Output}
    (h : Goes (opening settings roller) before outputs c) {line : String} {reply : Output}
    {next : Next σ} (hstep : c.step line = ⟨reply, next⟩) :
    (answers settings roller ((before ++ line :: later).map some))[before.length]? =
      some reply := by
  have hfirst : (c.replies (some line :: later.map some))[0]? = some reply := by
    cases next with
    | exit code => rw [replies_of_exit hstep]; rfl
    | more c' => rw [replies_of_more hstep]; rfl
  rw [answers, List.map_append, h.replies_eq, ← h.length_eq,
    List.getElem?_append_right (Nat.le_refl _), Nat.sub_self, List.map_cons, hfirst]

/-- **A listing has the latest rolls.**  A line `h` in some input is answered.  Then what the rolls
and rerolls before it have shown is some `texts`, and the listing has as many entries as there are
of them, but not more than the history holds.  Entry `i` is the text `i` places from the end, with
its number before it, and each entry is written on a line of its own.  And if a line before is left
out that does not ask for a roll, the line `h` is answered in the same way. -/
theorem listing_is_latest_rolls (settings : Settings) (roller : σ) {input : String}
    {before later : List String} {line : String} {reply : Output}
    (hinput : textLines input = before ++ line :: later) (hline : Text.trim line = "h")
    (hreply : (answers settings roller (linesOf (bytesOf input)))[before.length]? = some reply) :
    ∃ texts entries : List String,
      Shown none before ((answers settings roller (linesOf (bytesOf input))).take before.length)
        texts ∧
      entries.length = min settings.history texts.length ∧
      (∀ i, i < entries.length → ∃ text, texts.reverse[i]? = some text ∧
        entries[i]? = some (History.numbered (i + 1) ++ ". " ++ text)) ∧
      reply.out = String.join (entries.map (· ++ "\n")) ++ "> " ∧
      ∀ (front back : List String) (other input' : String), before = front ++ other :: back →
        asked? (latestIn front) other = none →
        textLines input' = front ++ back ++ line :: later →
        (answers settings roller (linesOf (bytesOf input')))[(front ++ back).length]? =
          some reply := by
  rw [linesOf_bytesOf, hinput] at hreply ⊢
  have hlength : before.length < ((opening settings roller).replies
      (before.map some ++ (line :: later).map some)).length := by
    rw [answers, List.map_append] at hreply
    exact (List.getElem?_eq_some_iff.1 hreply).1
  obtain ⟨outputs, c, hgoes⟩ := exists_goes hlength
  obtain ⟨output, hstep, hout⟩ := out_listing c hline
  -- the line is answered with the listing of the console that is got to
  rw [hgoes.getElem?_answers hstep, Option.some_inj] at hreply
  subst hreply
  have hlast := remembers_opening settings roller
  obtain ⟨texts, hshown, hentries⟩ := hgoes.exists_shown hlast
  have hcap : (opening settings roller).history.cap = settings.history := rfl
  have hnone : (opening settings roller).history.entries = [] := rfl
  rw [hcap, hnone, List.append_nil] at hentries
  have htake : (answers settings roller ((before ++ line :: later).map some)).take before.length =
      outputs := by
    rw [answers, List.map_append, hgoes.replies_eq, ← hgoes.length_eq, List.take_left]
  refine ⟨texts, c.history.listing, htake ▸ hshown, ?_, fun i hi => ?_, hout, ?_⟩
  · rw [length_listing, hentries, List.length_take, List.length_reverse]
  · rw [length_listing] at hi
    have hget : c.history.entries[i]? = some c.history.entries[i] := List.getElem?_eq_getElem hi
    refine ⟨c.history.entries[i], ?_, ?_⟩
    · have hlt : i < settings.history := by
        rw [hentries, List.length_take] at hi
        exact Nat.lt_of_lt_of_le hi (Nat.min_le_left _ _)
      rw [← hget, hentries, List.getElem?_take_of_lt hlt]
    · rw [getElem?_listing, List.getElem?_eq_getElem hi, Option.map_some]
  · intro front back other input' hbefore hasks hinput'
    rw [hbefore] at hgoes
    obtain ⟨outputs', hdropped⟩ := hgoes.drop hlast hasks
    rw [linesOf_bytesOf, hinput']
    exact hdropped.getElem?_answers hstep

/-- A history of two lists the last two of three rolls. -/
theorem listing_is_latest_rolls_two :
    let settings := { Draft.empty.settings with history := 2 }
    let roller : Script := ⟨[3, 6, 2]⟩
    let lines := linesOf (bytesOf "d6\nr\n1d6+1\nh\n")
    let reply : Output := ⟨"  1. 1d6 (2) + 1 = 3\n  2. 1d6 (6) = 6\n> ", ""⟩
    textLines "d6\nr\n1d6+1\nh\n" = ["d6", "r", "1d6+1"] ++ "h" :: [] ∧ Text.trim "h" = "h" ∧
      (answers settings roller lines)[3]? = some reply ∧
      ∃ texts entries : List String,
        Shown none ["d6", "r", "1d6+1"] ((answers settings roller lines).take 3) texts ∧
        entries.length = min 2 texts.length ∧
        reply.out = String.join (entries.map (· ++ "\n")) ++ "> " := by
  intro settings roller lines reply
  have hinput : textLines "d6\nr\n1d6+1\nh\n" = ["d6", "r", "1d6+1"] ++ "h" :: [] := by decide
  have hline : Text.trim "h" = "h" := by decide
  have hreply : (answers settings roller lines)[3]? = some reply := by
    rw [show lines = _ from linesOf_bytesOf _]
    decide +kernel
  obtain ⟨texts, entries, hshown, hlength, -, hout, -⟩ :=
    listing_is_latest_rolls settings roller hinput hline hreply
  exact ⟨hinput, hline, hreply, texts, entries, hshown, hlength, hout⟩

end Console
end Dicebag
