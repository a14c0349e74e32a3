import Dicebag.Console

/-!
# What a line does to a console

`Console.step` compares a line with the commands and reads what is none of them as a formula.  What
that comes to depends on the console only through the formula that it rolls again, which is the
latest one that was typed (`Remembers`).  So every line that does not quit falls into one of two
classes, whatever the console:

* an `Idle` line leaves the console as it is, and something is written and a prompt
  (`step_idle`): a listing, a text that is rejected, or a reroll with nothing to reroll;
* any other line asks for a formula (`asked?`), and that is rolled (`step_asked`), whether it was
  typed or remembered.

`answers` are what is written to each line in turn, and `output_transcript` says that they are all
that is written after the first prompt.  A session comes to a first prompt just if the memory has the
room for its history (`session_eq_ok_iff`).
-/

set_option autoImplicit false

namespace Dicebag

/-! ## Output -/

namespace Output

theorem out_append (a b : Output) : (a ++ b).out = a.out ++ b.out := rfl

theorem none_append (a : Output) : none ++ a = a := by
  show (⟨"" ++ a.out, "" ++ a.err⟩ : Output) = a
  rw [String.empty_append, String.empty_append]

theorem append_none (a : Output) : a ++ none = a := by
  show (⟨a.out ++ "", a.err ++ ""⟩ : Output) = a
  rw [String.append_empty, String.append_empty]

theorem append_assoc (a b c : Output) : a ++ b ++ c = a ++ (b ++ c) := by
  show (⟨a.out ++ b.out ++ c.out, a.err ++ b.err ++ c.err⟩ : Output) =
    ⟨a.out ++ (b.out ++ c.out), a.err ++ (b.err ++ c.err)⟩
  rw [String.append_assoc, String.append_assoc]

theorem concat_cons (a : Output) (as : List Output) : concat (a :: as) = a ++ concat as := rfl

theorem concat_singleton (a : Output) : concat [a] = a := append_none a

theorem out_concat (as : List Output) : (concat as).out = String.join (as.map out) := by
  induction as with
  | nil => rfl
  | cons a as ih => rw [concat_cons, out_append, ih, List.map_cons, String.join_cons]

end Output

namespace Console

/-! ## Lines -/

/-- The line asks to roll the latest formula again. -/
def IsReroll (line : String) : Prop := Text.trim line = "" ∨ Text.trim line = "r"

instance (line : String) : Decidable (IsReroll line) := inferInstanceAs (Decidable (_ ∨ _))

/-- The formula that a line is. -/
def formula? (line : String) : Option Written := (parse (Text.trim line)).toOption

/-- The line is no command and no formula. -/
def IsRejected (line : String) : Prop :=
  Text.trim line ∉ ["", "q", "h", "r"] ∧ formula? line = none

instance (line : String) : Decidable (IsRejected line) := inferInstanceAs (Decidable (_ ∧ _))

/-- The latest formula after a line: the line itself, or else the latest before it. -/
def latest (last : Option Written) (line : String) : Option Written := (formula? line).or last

/-- The latest formula among some lines. -/
def latestIn (lines : List String) : Option Written := lines.foldl latest none

/-- The formula that a line asks for, where `last` is the latest before it. -/
def asked? (last : Option Written) (line : String) : Option Written :=
  (formula? line).or (if IsReroll line then last else none)

/-- The line rolls nothing, where `last` is the latest formula before it. -/
def Idle (last : Option Written) (line : String) : Prop :=
  Text.trim line = "h" ∨ IsRejected line ∨ IsReroll line ∧ last = none

instance (last : Option Written) (line : String) : Decidable (Idle last line) :=
  inferInstanceAs (Decidable (_ ∨ _ ∨ _ ∧ _))

theorem formula?_eq_some_iff {line : String} {w : Written} :
    formula? line = some w ↔ parse (Text.trim line) = .ok w := by
  rw [formula?]
  cases parse (Text.trim line) with
  | error e => simp [Except.toOption]
  | ok w' => simp [Except.toOption]

/-- No command is a formula. -/
theorem formula?_of_command {line : String} (h : Text.trim line ∈ ["", "q", "h", "r"]) :
    formula? line = none := by
  have hall : ∀ typed ∈ ["", "q", "h", "r"], (parse typed).toOption = none := by decide +kernel
  exact hall _ h

theorem IsReroll.command {line : String} (h : IsReroll line) :
    Text.trim line ∈ ["", "q", "h", "r"] := by
  rcases h with h | h <;> rw [h] <;> decide

theorem IsReroll.ne_quit {line : String} (h : IsReroll line) : Text.trim line ≠ "q" := by
  rcases h with h | h <;> rw [h] <;> decide

theorem IsReroll.ne_list {line : String} (h : IsReroll line) : Text.trim line ≠ "h" := by
  rcases h with h | h <;> rw [h] <;> decide

theorem formula?_of_isReroll {line : String} (h : IsReroll line) : formula? line = none :=
  formula?_of_command h.command

/-- A line that is a formula is no command. -/
theorem not_command {line : String} {w : Written} (h : formula? line = some w) :
    Text.trim line ∉ ["", "q", "h", "r"] := by
  intro hcommand
  rw [formula?_of_command hcommand] at h
  cases h

theorem latest_of_formula? {line : String} {w : Written} (h : formula? line = some w)
    (last : Option Written) : latest last line = some w := by
  rw [latest, h, Option.some_or]

theorem latest_of_none {line : String} (h : formula? line = none) (last : Option Written) :
    latest last line = last := by
  rw [latest, h, Option.none_or]

/-- What a line asks for is the latest formula after it. -/
theorem latest_of_asked? {last : Option Written} {line : String} {w : Written}
    (h : asked? last line = some w) : latest last line = some w := by
  rw [asked?, Option.or_eq_some_iff] at h
  rcases h with h | ⟨hnone, h⟩
  · exact latest_of_formula? h last
  · split at h
    · rw [latest_of_none hnone, h]
    · cases h

theorem latest_of_idle {last : Option Written} {line : String} (h : Idle last line) :
    latest last line = last := by
  rcases h with h | h | ⟨h, -⟩
  · exact latest_of_none (formula?_of_command (by rw [h]; decide)) last
  · exact latest_of_none h.2 last
  · exact latest_of_none (formula?_of_isReroll h) last

theorem asked?_of_idle {last : Option Written} {line : String} (h : Idle last line) :
    asked? last line = none := by
  rw [asked?]
  rcases h with h | h | ⟨h, rfl⟩
  · rw [formula?_of_command (by rw [h]; decide), Option.none_or,
      if_neg fun hreroll : IsReroll line => hreroll.ne_list h]
  · rw [h.2, Option.none_or, if_neg fun hreroll : IsReroll line => h.1 hreroll.command]
  · rw [formula?_of_isReroll h, Option.none_or, if_pos h]

/-- **Every line quits, rolls nothing or asks for a formula.** -/
theorem line_cases (last : Option Written) (line : String) :
    Text.trim line = "q" ∨ Idle last line ∨ ∃ w, asked? last line = some w := by
  by_cases hquit : Text.trim line = "q"
  · exact .inl hquit
  · refine .inr ?_
    cases hformula : formula? line with
    | some w => exact .inr ⟨w, by rw [asked?, hformula, Option.some_or]⟩
    | none =>
      by_cases hreroll : IsReroll line
      · cases last with
        | none => exact .inl (.inr (.inr ⟨hreroll, rfl⟩))
        | some w => exact .inr ⟨w, by rw [asked?, hformula, Option.none_or, if_pos hreroll]⟩
      · by_cases hlist : Text.trim line = "h"
        · exact .inl (.inl hlist)
        · refine .inl (.inr (.inl ⟨?_, hformula⟩))
          rw [IsReroll, not_or] at hreroll
          simp [hquit, hlist, hreroll]

/-! ## The log -/

/-- Nothing that is logged about a formula or its rolls is shown. -/
def Settings.Quiet (settings : Settings) : Prop :=
  ∀ limit, settings.logLevel = some limit → limit.shows .debug = false

/-- The log is quiet at the level that it has by default. -/
theorem quiet_of_warn {settings : Settings} (h : settings.logLevel = some .warn) :
    settings.Quiet := by
  intro limit hlimit
  rw [h] at hlimit
  cases hlimit
  rfl

theorem out_logLine (settings : Settings) (level : Level) (topic : Topic) (message : String) :
    (logLine settings level topic message).out = "" := by
  rw [logLine]
  split
  · rfl
  · split <;> rfl

/-- The log goes to the standard error. -/
theorem out_logLines (settings : Settings) (events : List Event) :
    (logLines settings events).out = "" := by
  induction events with
  | nil => rfl
  | cons e events ih =>
    rw [logLines, List.map_cons, Output.concat_cons, Output.out_append, out_logLine,
      String.empty_append]
    exact ih

theorem logLine_quiet {settings : Settings} (h : settings.Quiet) (e : Event) :
    logLine settings e.level e.topic e.message = .none := by
  rw [logLine]
  split
  · rfl
  · next limit hlimit =>
    have hdebug := h limit hlimit
    have hlevel : limit.shows e.level = false := by
      cases e <;> cases limit <;> first | rfl | exact hdebug
    rw [hlevel]
    rfl

theorem logLines_quiet {settings : Settings} (h : settings.Quiet) (events : List Event) :
    logLines settings events = .none := by
  induction events with
  | nil => rfl
  | cons e events ih =>
    rw [logLines, List.map_cons, Output.concat_cons, logLine_quiet h, Output.none_append]
    exact ih

/-! ## One line -/

variable {σ : Type}

/-- A formula under the settings of the console. -/
def request (c : Console σ) (w : Written) : Request := ⟨w, c.settings.mode, c.settings.modifier⟩

/-- What the console rolls again is the formula `last`, under its own settings. -/
def Remembers (c : Console σ) (last : Option Written) : Prop := c.last = last.map c.request

/-- A console that has just started. -/
def opening (settings : Settings) (roller : σ) : Console σ :=
  ⟨settings, .empty settings.history, none, roller⟩

theorem remembers_opening (settings : Settings) (roller : σ) :
    (opening settings roller).Remembers none := rfl

/-- The console after a roll. -/
def rolled (c : Console σ) (request : Request) (text : String) (roller : σ) : Console σ :=
  { c with history := c.history.push text, last := some request, roller := roller }

/-- What is written to an idle line. -/
def idleReply (settings : Settings) (history : History) (line : String) : Output :=
  if Text.trim line = "h" then .concat (history.listing.map .line)
  else if IsReroll line then logLine settings .warn .console "nothing to reroll yet"
  else
    match parse (Text.trim line) with
    | .error e => logLines settings (parseLog (Text.trim line)) ++ report (Text.trim line) e
    | .ok _ => .none

theorem eq_of_goOn {output output' : Output} {c c' : Console σ}
    (h : (⟨output, .more c⟩ : Turn σ) = goOn output' c') : output = output' ++ prompt ∧ c = c' := by
  rwa [goOn, Turn.mk.injEq, Next.more.injEq] at h

variable [Roller σ]

theorem step_quit {line : String} (h : Text.trim line = "q") (c : Console σ) :
    c.step line = ⟨.none, .exit 0⟩ := if_pos h

theorem step_list {line : String} (h : Text.trim line = "h") (c : Console σ) :
    c.step line = goOn (.concat (c.history.listing.map .line)) c := by
  have hquit : Text.trim line ≠ "q" := by rw [h]; decide
  exact (if_neg hquit).trans (if_pos h)

theorem step_reroll {line : String} (h : IsReroll line) (c : Console σ) :
    c.step line = match c.last with
      | some request => c.rollRequest request
      | none => goOn (logLine c.settings .warn .console "nothing to reroll yet") c :=
  (if_neg h.ne_quit).trans ((if_neg h.ne_list).trans (if_pos h))

theorem step_other {line : String} (h : Text.trim line ∉ ["", "q", "h", "r"]) (c : Console σ) :
    c.step line = match parse (Text.trim line) with
      | .error e =>
        goOn (logLines c.settings (parseLog (Text.trim line)) ++ report (Text.trim line) e) c
      | .ok w =>
        ⟨logLines c.settings (parseLog (Text.trim line)) ++ (c.rollRequest (c.request w)).output,
          (c.rollRequest (c.request w)).next⟩ := by
  simp only [List.mem_cons, List.not_mem_nil, or_false, not_or] at h
  obtain ⟨hempty, hquit, hlist, hreroll⟩ := h
  have hreroll : ¬(Text.trim line = "" ∨ Text.trim line = "r") := not_or.2 ⟨hempty, hreroll⟩
  refine (if_neg hquit).trans ((if_neg hlist).trans ((if_neg hreroll).trans ?_))
  rw [Request.parse]
  cases parse (Text.trim line) <;> rfl

/-- **An idle line leaves the console as it is**, and what is written depends on nothing else in it
than the settings and the history. -/
theorem step_idle {c : Console σ} {last : Option Written} (hlast : c.Remembers last) {line : String}
    (h : Idle last line) : c.step line = goOn (idleReply c.settings c.history line) c := by
  rcases h with h | h | ⟨h, rfl⟩
  · rw [step_list h, idleReply, if_pos h]
  · obtain ⟨hother, hnone⟩ := h
    have hlist : Text.trim line ≠ "h" := fun hlist => hother (by rw [hlist]; decide)
    rw [step_other hother, idleReply, if_neg hlist,
      if_neg fun hreroll : IsReroll line => hother hreroll.command]
    cases hparse : parse (Text.trim line) with
    | error e => rfl
    | ok w =>
      rw [formula?_eq_some_iff.2 hparse] at hnone
      cases hnone
  · rw [step_reroll h, show c.last = none from hlast, idleReply, if_neg h.ne_list, if_pos h]

/-- What is logged when a line that asks for a formula is read. -/
def readLog (line : String) : List Event :=
  if IsReroll line then [] else parseLog (Text.trim line)

/-- **A line that asks for a formula has it rolled**, whether it is typed or remembered. -/
theorem step_asked {c : Console σ} {last : Option Written} (hlast : c.Remembers last)
    {line : String} {w : Written} (h : asked? last line = some w) :
    c.step line = ⟨logLines c.settings (readLog line) ++ (c.rollRequest (c.request w)).output,
      (c.rollRequest (c.request w)).next⟩ := by
  rw [asked?, Option.or_eq_some_iff] at h
  rcases h with h | ⟨hnone, h⟩
  · have hother := not_command h
    rw [readLog, if_neg fun hreroll : IsReroll line => hother hreroll.command, step_other hother,
      formula?_eq_some_iff.1 h]
  · split at h
    · next hreroll =>
      rw [readLog, if_pos hreroll, step_reroll hreroll, show c.last = _ from hlast, h]
      show c.rollRequest (c.request w) = ⟨.none ++ _, _⟩
      rw [Output.none_append]
    · cases h

/-- A roll stops the console, or its line is shown and the console goes on with it. -/
theorem rollRequest_cases (c : Console σ) (request : Request) :
    (∃ output, c.rollRequest request = ⟨output, .exit faultCode⟩) ∨
      ∃ log text roller, log.out = "" ∧
        c.rollRequest request = goOn (log ++ .line text) (c.rolled request text roller) := by
  rw [rollRequest]
  cases (request.roll.run c.roller).answer with
  | error fault => exact .inl ⟨_, rfl⟩
  | ok roll => exact .inr ⟨_, _, _, out_logLines c.settings _, rfl⟩

/-- **What a line can do**: it ends the console, or it is idle and leaves the console as it is, or
it asks for a formula, and the line for its roll is shown and pushed to the history. -/
theorem step_cases {c : Console σ} {last : Option Written} (hlast : c.Remembers last)
    (line : String) :
    (∃ output code, c.step line = ⟨output, .exit code⟩) ∨
      (Idle last line ∧ c.step line = goOn (idleReply c.settings c.history line) c) ∨
      ∃ w log text roller, asked? last line = some w ∧ log.out = "" ∧
        c.step line = goOn (log ++ .line text) (c.rolled (c.request w) text roller) := by
  rcases line_cases last line with h | h | ⟨w, h⟩
  · exact .inl ⟨_, _, step_quit h c⟩
  · exact .inr (.inl ⟨h, step_idle hlast h⟩)
  · rw [step_asked hlast h]
    rcases c.rollRequest_cases (c.request w) with ⟨output, hroll⟩ | ⟨log, text, roller, hlog, hroll⟩
    · exact .inl ⟨_, faultCode, by rw [hroll]⟩
    · refine .inr (.inr ⟨w, logLines c.settings (readLog line) ++ log, text, roller, h, ?_, ?_⟩)
      · rw [Output.out_append, out_logLines, hlog, String.empty_append]
      · rw [hroll, goOn, goOn, Output.append_assoc, Output.append_assoc, Output.append_assoc]

/-- **A console goes on remembering the latest formula.** -/
theorem Remembers.next {c c' : Console σ} {last : Option Written} (hlast : c.Remembers last)
    {line : String} {output : Output} (h : c.step line = ⟨output, .more c'⟩) :
    c'.Remembers (latest last line) := by
  rcases step_cases hlast line with ⟨_, _, hstep⟩ | ⟨hidle, hstep⟩ | ⟨w, _, _, _, hw, _, hstep⟩
  · rw [h] at hstep
    cases hstep
  · obtain ⟨-, rfl⟩ := eq_of_goOn (h.symm.trans hstep)
    rwa [latest_of_idle hidle]
  · obtain ⟨-, rfl⟩ := eq_of_goOn (h.symm.trans hstep)
    rw [latest_of_asked? hw]
    rfl

/-! ## Whole inputs -/

/-- What is written to each line in turn, as far as there are answers. -/
def replies (c : Console σ) : List (Option String) → List Output
  | [] => []
  | none :: _ => [notText]
  | some line :: rest =>
    let turn := c.step line
    match turn.next with
    | .exit _ => [turn.output]
    | .more after => turn.output :: after.replies rest

theorem replies_of_exit {c : Console σ} {line : String} {output : Output} {code : Nat}
    (h : c.step line = ⟨output, .exit code⟩) (rest : List (Option String)) :
    c.replies (some line :: rest) = [output] := by
  rw [replies, h]

theorem replies_of_more {c c' : Console σ} {line : String} {output : Output}
    (h : c.step line = ⟨output, .more c'⟩) (rest : List (Option String)) :
    c.replies (some line :: rest) = output :: c'.replies rest := by
  rw [replies, h]

theorem run_of_exit {c : Console σ} {line : String} {output : Output} {code : Nat}
    (h : c.step line = ⟨output, .exit code⟩) (rest : List (Option String)) :
    c.run (some line :: rest) = ⟨output, code⟩ := by
  rw [run, h]

theorem run_of_more {c c' : Console σ} {line : String} {output : Output}
    (h : c.step line = ⟨output, .more c'⟩) (rest : List (Option String)) :
    c.run (some line :: rest) = ⟨output ++ (c'.run rest).output, (c'.run rest).code⟩ := by
  rw [run, h]

/-- After a line a console ends or goes on. -/
theorem exit_or_more (c : Console σ) (line : String) :
    (∃ output code, c.step line = ⟨output, .exit code⟩) ∨
      ∃ output c', c.step line = ⟨output, .more c'⟩ := by
  cases hstep : c.step line with
  | mk output next =>
    cases next with
    | exit code => exact .inl ⟨output, code, rfl⟩
    | more c' => exact .inr ⟨output, c', rfl⟩

/-- What a console writes are its replies. -/
theorem output_run (c : Console σ) (lines : List (Option String)) :
    (c.run lines).output = .concat (c.replies lines) := by
  induction lines generalizing c with
  | nil => rfl
  | cons line rest ih =>
    cases line with
    | none => exact (Output.concat_singleton notText).symm
    | some line =>
      obtain ⟨output, code, hstep⟩ | ⟨output, c', hstep⟩ := c.exit_or_more line
      · rw [run_of_exit hstep, replies_of_exit hstep, Output.concat_singleton]
      · rw [run_of_more hstep, replies_of_more hstep, Output.concat_cons, ih]

/-- The replies of a whole run. -/
def answers (settings : Settings) (roller : σ) (lines : List (Option String)) : List Output :=
  (opening settings roller).replies lines

theorem transcript_eq (settings : Settings) (roller : σ) (lines : List (Option String)) :
    transcript settings roller lines =
      ⟨(start settings roller).output ++ ((opening settings roller).run lines).output,
        ((opening settings roller).run lines).code⟩ := rfl

/-- Two inputs that are the same to a console that has just started give the same run. -/
theorem transcript_congr {settings : Settings} {roller : σ} {lines lines' : List (Option String)}
    (h : (opening settings roller).run lines = (opening settings roller).run lines') :
    transcript settings roller lines = transcript settings roller lines' := by
  rw [transcript_eq, transcript_eq, h]

/-- **A session has a run of a console just if the memory gives it the room for its history.** -/
theorem session_eq_ok_iff {ρ : Type} {memory : Memory ρ} {settings : Settings} {roller : σ}
    {lines : List (Option String)} {t : Transcript} :
    session memory settings roller lines = .ok t ↔
      memory.roomFor settings.history = .ok () ∧ transcript settings roller lines = t := by
  rw [session]
  cases memory.roomFor settings.history <;> simp [Except.map]

/-- **After the first prompt a run writes its answers and nothing else.** -/
theorem output_transcript (settings : Settings) (roller : σ) (lines : List (Option String)) :
    (transcript settings roller lines).output =
      (start settings roller).output ++ .concat (answers settings roller lines) := by
  rw [transcript_eq, output_run, answers]

end Console
end Dicebag
