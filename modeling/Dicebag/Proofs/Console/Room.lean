import Dicebag.Proofs.Console.Turns

/-!
# A history with room to spare

How many lines a history may hold does not matter to a run that never makes so many rolls
(`transcript_eq_of_unreached`).  It does matter to the memory, which is asked for the room of the
whole history before the first prompt.  So two sessions whose histories are never full are the same
exactly if the memory answers both in the same way (`session_eq_iff_of_unreached`).

* `rolls` counts the rolls and rerolls of a console along its input.
* Two consoles are `SameButCap` if nothing but the greatest length of their histories differs.  A
  line does the same in both (`SameButCap.step_alike`), and keeps them so as long as neither history
  is full.
* By induction on the input both consoles have the same run if each history has room for the rolls
  to come (`SameButCap.run_eq`).
-/

set_option autoImplicit false

namespace Dicebag
namespace Console

variable {σ : Type}

/-! ## Two consoles -/

/-- Two consoles of which nothing differs but how many lines their histories may hold. -/
structure SameButCap (c c' : Console σ) : Prop where
  /-- Their other settings are the same. -/
  settings : c'.settings = { c.settings with history := c'.settings.history }
  /-- Their histories have the same lines. -/
  entries : c'.history.entries = c.history.entries
  /-- They will roll the same formula again. -/
  last : c'.last = c.last
  /-- Their dice come from the same source in the same state. -/
  roller : c'.roller = c.roller

namespace SameButCap

variable {c c' : Console σ} (h : SameButCap c c')

include h

theorem request_eq (w : Written) : c'.request w = c.request w := by
  rw [request, request, h.settings]

theorem remembers {last : Option Written} (hlast : c.Remembers last) : c'.Remembers last := by
  rw [Remembers, h.last, funext h.request_eq]
  exact hlast

theorem logLine_eq (level : Level) (topic : Topic) (message : String) :
    logLine c'.settings level topic message = logLine c.settings level topic message := by
  rw [logLine, logLine, h.settings]

theorem logLines_eq (events : List Event) :
    logLines c'.settings events = logLines c.settings events := by
  rw [logLines, logLines]
  simp only [h.logLine_eq]

theorem listing_eq : c'.history.listing = c.history.listing := by
  rw [History.listing, History.listing, h.entries]

theorem idleReply_eq (line : String) :
    idleReply c'.settings c'.history line = idleReply c.settings c.history line := by
  rw [idleReply, idleReply, h.listing_eq]
  simp only [h.logLine_eq, h.logLines_eq]

theorem style_eq : c'.settings.style = c.settings.style := by
  rw [Settings.style, Settings.style, h.settings]

/-- A roll keeps two consoles the same if neither history is full, since both of them then have its
line in front of the others. -/
theorem rolled (hroom : c.history.entries.length < c.history.cap)
    (hroom' : c'.history.entries.length < c'.history.cap) (request : Request) (text : String)
    (roller : σ) : SameButCap (c.rolled request text roller) (c'.rolled request text roller) where
  settings := h.settings
  entries := by
    have hpush : (c.history.push text).entries = text :: c.history.entries :=
      List.take_of_length_le hroom
    have hpush' : (c'.history.push text).entries = text :: c'.history.entries :=
      List.take_of_length_le hroom'
    rw [Console.rolled, Console.rolled, hpush, hpush', h.entries]
  last := rfl
  roller := rfl

end SameButCap

/-- A roll adds one line to the history at most. -/
theorem length_entries_rolled (c : Console σ) (request : Request) (text : String) (roller : σ) :
    (c.rolled request text roller).history.entries.length ≤ c.history.entries.length + 1 := by
  show ((text :: c.history.entries).take c.history.cap).length ≤ _
  rw [List.length_take]
  exact Nat.min_le_right _ _

/-! ## The same line in both -/

/-- What the same line does in two consoles, where `last` is the latest formula before it: the
outputs are the same, and what becomes of the one console becomes of the other. -/
inductive SameTurn (last : Option Written) (line : String) (c c' : Console σ) :
    Turn σ → Turn σ → Prop
  /-- Both consoles end. -/
  | exit (output : Output) (code : Nat) :
      SameTurn last line c c' ⟨output, .exit code⟩ ⟨output, .exit code⟩
  /-- Both consoles stay as they are. -/
  | idle (output : Output) (hasks : asked? last line = none) :
      SameTurn last line c c' ⟨output, .more c⟩ ⟨output, .more c'⟩
  /-- Both consoles make the same roll. -/
  | roll (output : Output) (text : String) (roller : σ) {w : Written}
      (hasks : asked? last line = some w) :
      SameTurn last line c c' ⟨output, .more (c.rolled (c.request w) text roller)⟩
        ⟨output, .more (c'.rolled (c.request w) text roller)⟩

variable [Roller σ]

/-- **The same line does the same**, whatever the histories may hold. -/
theorem SameButCap.step_alike {c c' : Console σ} (h : SameButCap c c') {last : Option Written}
    (hlast : c.Remembers last) (line : String) :
    SameTurn last line c c' (c.step line) (c'.step line) := by
  rcases line_cases last line with hquit | hidle | ⟨w, hw⟩
  · rw [step_quit hquit, step_quit hquit]
    exact .exit _ _
  · rw [step_idle hlast hidle, step_idle (h.remembers hlast) hidle, h.idleReply_eq]
    exact .idle _ (asked?_of_idle hidle)
  · rw [step_asked hlast hw, step_asked (h.remembers hlast) hw, h.logLines_eq, rollRequest,
      rollRequest, h.roller, h.logLines_eq, h.style_eq, h.request_eq]
    cases ((c.request w).roll.run c.roller).answer with
    | error fault => exact .exit _ _
    | ok roll => exact .roll _ _ _ hw

/-! ## Counting rolls -/

/-- The number of rolls, rerolls included, that a console makes along its input, where `last` is the
latest formula before it.  A roll that ends the console does not count. -/
def rolls (last : Option Written) (c : Console σ) : List (Option String) → Nat
  | [] => 0
  | none :: _ => 0
  | some line :: rest =>
    match (c.step line).next with
    | .exit _ => 0
    | .more after =>
      after.rolls (latest last line) rest + if (asked? last line).isSome then 1 else 0

/-- The number of rolls of a whole run. -/
def rollCount (settings : Settings) (roller : σ) (lines : List (Option String)) : Nat :=
  (opening settings roller).rolls none lines

theorem rolls_of_idle {c c' : Console σ} {last : Option Written} {line : String} {output : Output}
    (h : c.step line = ⟨output, .more c'⟩) (hasks : asked? last line = none)
    (rest : List (Option String)) :
    c.rolls last (some line :: rest) = c'.rolls (latest last line) rest := by
  rw [rolls, h, hasks]
  rfl

theorem rolls_of_roll {c c' : Console σ} {last : Option Written} {line : String} {output : Output}
    {w : Written} (h : c.step line = ⟨output, .more c'⟩) (hasks : asked? last line = some w)
    (rest : List (Option String)) :
    c.rolls last (some line :: rest) = c'.rolls (latest last line) rest + 1 := by
  rw [rolls, h, hasks]
  rfl

/-! ## The same input for both -/

/-- **Two consoles have the same run** if the histories of both have room for the rolls to come. -/
theorem SameButCap.run_eq {c c' : Console σ} (h : SameButCap c c') {last : Option Written}
    (hlast : c.Remembers last) {lines : List (Option String)}
    (hroom : c.history.entries.length + c.rolls last lines ≤ c.history.cap)
    (hroom' : c'.history.entries.length + c'.rolls last lines ≤ c'.history.cap) :
    c'.run lines = c.run lines := by
  induction lines generalizing c c' last with
  | nil => rfl
  | cons line rest ih =>
    cases line with
    | none => rfl
    | some line =>
      have hturn := h.step_alike hlast line
      generalize hstep : c.step line = turn at hturn
      generalize hstep' : c'.step line = turn' at hturn
      cases hturn with
      | exit output code => rw [run_of_exit hstep, run_of_exit hstep']
      | idle output hasks =>
        rw [rolls_of_idle hstep hasks] at hroom
        rw [rolls_of_idle hstep' hasks] at hroom'
        rw [run_of_more hstep, run_of_more hstep', ih h (hlast.next hstep) hroom hroom']
      | @roll output text roller w hasks =>
        rw [rolls_of_roll hstep hasks] at hroom
        rw [rolls_of_roll hstep' hasks] at hroom'
        have hnext := h.rolled (by omega) (by omega) (c.request w) text roller
        -- each history has one line more, and there is one roll less to come
        have hlength := length_entries_rolled c (c.request w) text roller
        have hlength' := length_entries_rolled c' (c.request w) text roller
        rw [run_of_more hstep, run_of_more hstep', ih hnext (hlast.next hstep)
          (Nat.le_trans (by omega) hroom) (Nat.le_trans (by omega) hroom')]

/-! ## Whole runs -/

section

variable {settings : Settings} {cap cap' : Nat} {roller : σ} {lines : List (Option String)}

/-- **A history that is never full does not matter.**  Two runs differ in how many lines their
histories may hold, and each of them makes at most so many rolls, rerolls included.  Then they write
the same to both outputs and end with the same exit code. -/
theorem transcript_eq_of_unreached
    (henough : rollCount { settings with history := cap } roller lines ≤ cap)
    (henough' : rollCount { settings with history := cap' } roller lines ≤ cap') :
    transcript { settings with history := cap } roller lines =
      transcript { settings with history := cap' } roller lines := by
  have hsame : SameButCap (opening { settings with history := cap } roller)
      (opening { settings with history := cap' } roller) := ⟨rfl, rfl, rfl, rfl⟩
  rw [← Nat.zero_add (rollCount ..)] at henough henough'
  have hrun := hsame.run_eq (remembers_opening _ _) henough henough'
  rw [transcript_eq, transcript_eq, hrun]
  rfl

theorem map_const_eq_iff {ρ α : Type} {a : α} {x y : Except ρ Unit} :
    (x.map fun _ => a) = (y.map fun _ => a) ↔ x = y := by
  cases x <;> cases y <;> simp [Except.map]

/-- **A history that is never full matters by its room alone.**  Two sessions differ in how many
lines their histories may hold, and neither would make more rolls than that, rerolls included.  Then
they are the same exactly if the memory gives both the room for their histories, or refuses it to
both in the same way. -/
theorem session_eq_iff_of_unreached {ρ : Type} (memory : Memory ρ)
    (henough : rollCount { settings with history := cap } roller lines ≤ cap)
    (henough' : rollCount { settings with history := cap' } roller lines ≤ cap') :
    session memory { settings with history := cap } roller lines =
        session memory { settings with history := cap' } roller lines ↔
      memory.roomFor cap = memory.roomFor cap' := by
  rw [session, session, transcript_eq_of_unreached henough henough', map_const_eq_iff]

/-- In a memory of so many bytes, such sessions are the same exactly if both of their histories fit
into it, or if they do not even differ in the lines that their histories may hold. -/
theorem session_ofSize_eq_iff_of_unreached (size : Nat)
    (henough : rollCount { settings with history := cap } roller lines ≤ cap)
    (henough' : rollCount { settings with history := cap' } roller lines ≤ cap') :
    session (.ofSize size) { settings with history := cap } roller lines =
        session (.ofSize size) { settings with history := cap' } roller lines ↔
      (24 * cap ≤ size ∧ 24 * cap' ≤ size) ∨ cap = cap' := by
  rw [session_eq_iff_of_unreached _ henough henough']
  show (if 24 * cap ≤ size then .ok () else .error (24 * cap) : Except Nat Unit) =
    (if 24 * cap' ≤ size then .ok () else .error (24 * cap')) ↔ _
  by_cases hfits : 24 * cap ≤ size
  · by_cases hfits' : 24 * cap' ≤ size
    · rw [if_pos hfits, if_pos hfits']
      exact iff_of_true rfl (.inl ⟨hfits, hfits'⟩)
    · rw [if_pos hfits, if_neg hfits']
      exact iff_of_false (by simp) (by omega)
  · by_cases hfits' : 24 * cap' ≤ size
    · rw [if_neg hfits, if_pos hfits']
      exact iff_of_false (by simp) (by omega)
    · rw [if_neg hfits, if_neg hfits', Except.error.injEq]
      omega

end

/-- A session that keeps no history starts in any memory. -/
theorem session_eq_of_history_zero {ρ : Type} (memory : Memory ρ) {settings : Settings}
    (h : settings.history = 0) (roller : σ) (lines : List (Option String)) :
    session memory settings roller lines = .ok (transcript settings roller lines) := by
  have hroom : memory.roomFor settings.history = .ok () := by
    rw [Memory.roomFor, h, Nat.mul_zero, memory.setAside_zero]
  exact session_eq_ok_iff.2 ⟨hroom, rfl⟩

end Console
end Dicebag
