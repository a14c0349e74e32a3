import Dicebag.Proofs.Console.Lines
import Dicebag.Proofs.Console.Turns
import Dicebag.Roller.Scripted

/-!
# Lines that leave no trace

A line that rolls nothing has an answer of its own, and that is all: `idle_lines_leave_no_trace`
leaves out any number of such lines from an input, and every other line is answered as before, to
the letter.  Nor does anything that stands behind a line that quits make a difference, be it text or
not.

The console after an idle line is the console before it, so one induction along the lines carries
both runs; what it needs to know of the console is only the formula that it remembers.
-/

set_option autoImplicit false

namespace Dicebag
namespace Console

/-! ## Lines that are left out -/

/-- Lines, with a mark on some of them, and each that has a mark rolls nothing where it stands.
The latest formula before all of them is `last`. -/
def OnlyIdle (last : Option Written) : List (String × Bool) → Prop
  | [] => True
  | (line, mark) :: rest => (mark = true → Idle last line) ∧ OnlyIdle (latest last line) rest

instance decidableOnlyIdle : (last : Option Written) → (marked : List (String × Bool)) →
    Decidable (OnlyIdle last marked)
  | _, [] => .isTrue trivial
  | last, (line, mark) :: rest =>
    have := decidableOnlyIdle (latest last line) rest
    inferInstanceAs (Decidable ((mark = true → Idle last line) ∧ OnlyIdle (latest last line) rest))

/-- What has no mark. -/
def unmarked {α : Type} (marked : List (α × Bool)) : List α :=
  (marked.filter fun p => !p.2).map Prod.fst

variable {σ : Type} [Roller σ]

/-- **Without the lines that have a mark, all others are answered as before.** -/
theorem replies_unmarked {c : Console σ} {last : Option Written} (hlast : c.Remembers last)
    {marked : List (String × Bool)} (h : OnlyIdle last marked) :
    c.replies ((unmarked marked).map some) =
        unmarked ((c.replies ((marked.map Prod.fst).map some)).zip (marked.map Prod.snd)) ∧
      (c.run ((unmarked marked).map some)).code =
        (c.run ((marked.map Prod.fst).map some)).code := by
  induction marked generalizing c last with
  | nil => exact ⟨rfl, rfl⟩
  | cons p rest ih =>
    obtain ⟨line, mark⟩ := p
    obtain ⟨hidle, hrest⟩ := h
    cases mark with
    | true =>
      have hstep := step_idle hlast (hidle rfl)
      rw [latest_of_idle (hidle rfl)] at hrest
      obtain ⟨hreplies, hcode⟩ := ih hlast hrest
      rw [List.map_cons, List.map_cons, replies_of_more hstep, run_of_more hstep]
      exact ⟨hreplies, hcode⟩
    | false =>
      have hunmarked : unmarked ((line, false) :: rest) = line :: unmarked rest := rfl
      rw [hunmarked, List.map_cons, List.map_cons, List.map_cons, List.map_cons]
      obtain ⟨output, code, hstep⟩ | ⟨output, c', hstep⟩ := c.exit_or_more line
      · rw [replies_of_exit hstep, replies_of_exit hstep, run_of_exit hstep, run_of_exit hstep]
        exact ⟨rfl, rfl⟩
      · obtain ⟨hreplies, hcode⟩ := ih (hlast.next hstep) hrest
        rw [replies_of_more hstep, replies_of_more hstep, run_of_more hstep, run_of_more hstep,
          hreplies]
        exact ⟨rfl, hcode⟩

/-! ## Lines behind the end -/

/-- **What comes after a line that quits has no influence.** -/
theorem run_append_of_quit {lines : List (Option String)}
    (h : ∃ line, some line ∈ lines ∧ Text.trim line = "q") (c : Console σ)
    (later : List (Option String)) : c.run (lines ++ later) = c.run lines := by
  obtain ⟨quit, hmem, hquit⟩ := h
  induction lines generalizing c with
  | nil => cases hmem
  | cons line rest ih =>
    cases line with
    | none => rfl
    | some line =>
      rw [List.cons_append]
      obtain ⟨output, code, hstep⟩ | ⟨output, c', hstep⟩ := c.exit_or_more line
      · rw [run_of_exit hstep, run_of_exit hstep]
      · have hne : quit ≠ line := by
          rintro rfl
          rw [step_quit hquit] at hstep
          cases hstep
        have hrest : some quit ∈ rest :=
          (List.mem_cons.1 hmem).resolve_left fun heq => hne (Option.some.inj heq)
        rw [run_of_more hstep, run_of_more hstep, ih c' hrest]

/-- Two inputs that are the same up to the end of a line that quits give the same run. -/
theorem transcript_of_quit (settings : Settings) (roller : σ) {before : List UInt8}
    (h : ∃ line, some line ∈ linesOf (before ++ [lineFeed]) ∧ Text.trim line = "q")
    (later : List UInt8) :
    transcript settings roller (linesOf (before ++ lineFeed :: later)) =
      transcript settings roller (linesOf (before ++ [lineFeed])) := by
  rw [linesOf_append]
  exact transcript_congr (run_append_of_quit h _ _)

/-! ## Whole runs -/

/-- **Lines that roll nothing leave no trace.**  An input is the same as another one but for some
lines that it leaves out, each of which is `h`, or a text that is rejected, or a reroll with no
formula before it.  Then every line that is left is answered as before, on both outputs, the exit
code is the same, and all that is written is the start and these answers.  And what follows on a
line that quits, text or not, has no influence on a run at all. -/
theorem idle_lines_leave_no_trace (settings : Settings) (roller : σ) {input input' : String}
    {marked : List (String × Bool)} (hidle : OnlyIdle none marked)
    (hinput : textLines input = marked.map Prod.fst) (hinput' : textLines input' = unmarked marked) :
    answers settings roller (linesOf (bytesOf input')) =
        unmarked ((answers settings roller (linesOf (bytesOf input))).zip (marked.map Prod.snd)) ∧
      (transcript settings roller (linesOf (bytesOf input'))).code =
        (transcript settings roller (linesOf (bytesOf input))).code ∧
      (∀ lines, (transcript settings roller lines).output =
        (start settings roller).output ++ .concat (answers settings roller lines)) ∧
      ∀ before later later' : List UInt8,
        (∃ line, some line ∈ linesOf (before ++ [lineFeed]) ∧ Text.trim line = "q") →
        transcript settings roller (linesOf (before ++ lineFeed :: later)) =
          transcript settings roller (linesOf (before ++ lineFeed :: later')) := by
  rw [linesOf_bytesOf, linesOf_bytesOf, hinput, hinput']
  obtain ⟨hreplies, hcode⟩ := replies_unmarked (remembers_opening settings roller) hidle
  refine ⟨hreplies, hcode, output_transcript settings roller, fun before later later' hquit => ?_⟩
  exact (transcript_of_quit settings roller hquit later).trans
    (transcript_of_quit settings roller hquit later').symm

/-- A reroll that comes too early, a text that is rejected and a listing are left out. -/
theorem idle_lines_leave_no_trace_three :
    let marked := [("r", true), ("1d6+1", false), ("2x", true), ("h", true), ("", false), ("h", false)]
    let settings := Draft.empty.settings
    let roller : Script := ⟨[3, 5]⟩
    OnlyIdle none marked ∧ textLines "r\n1d6+1\n2x\nh\n\nh\n" = marked.map Prod.fst ∧
      textLines "1d6+1\r\n\r\nh" = unmarked marked ∧
      answers settings roller (linesOf (bytesOf "1d6+1\r\n\r\nh")) =
        unmarked ((answers settings roller (linesOf (bytesOf "r\n1d6+1\n2x\nh\n\nh\n"))).zip
          (marked.map Prod.snd)) := by
  intro marked settings roller
  have hidle : OnlyIdle none marked := by decide +kernel
  have hinput : textLines "r\n1d6+1\n2x\nh\n\nh\n" = marked.map Prod.fst := by decide
  have hinput' : textLines "1d6+1\r\n\r\nh" = unmarked marked := by decide
  exact ⟨hidle, hinput, hinput',
    (idle_lines_leave_no_trace settings roller hidle hinput hinput').1⟩

end Console
end Dicebag
