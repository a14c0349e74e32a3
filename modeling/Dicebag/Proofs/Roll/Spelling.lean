import Dicebag.Rendering
import Dicebag.Request
import Dicebag.Roller.Scripted
import Dicebag.Proofs.Formula.RoundTrip

/-!
# What the spelling of a formula decides

Formulas are compared by what they mean, and the text that a formula was read from is kept beside it
only to be shown again.  This module says that the comparison can be made on canonical spellings,
and that rolling tells two readings apart just when the comparison does.

* No two well-formed formulas share a canonical spelling (`eq_of_text_eq`), although the constant
  stands first in some spellings and is left out of others: each is read back as its own formula.
* `Request.Indistinct` is what two requests have in common if nothing about a roll depends on how
  their formulas were spelled.  It is about one roller in one state, which may stop at any die.
* Conversely, the last message of a roll that comes to an end has the canonical spelling in it.
  There is no blank in a canonical spelling, so the first blank behind it says where it ends
  (`text_eq_of_message_eq`).
-/

set_option autoImplicit false

namespace Dicebag

variable {σ τ : Type} [Roller σ] [Roller τ]

/-! ## Canonical spellings -/

/-- Two readings mean the same: they have the same groups in the same order, and the same constant,
however they were spelled. -/
def Written.Same (w w' : Written) : Prop := w.groups = w'.groups ∧ w.constant = w'.constant

theorem same_iff {w w' : Written} : w.Same w' ↔ w.toFormula = w'.toFormula := by
  refine ⟨fun ⟨hgroups, hconstant⟩ => ?_, fun h => ⟨by rw [h], by rw [h]⟩⟩
  obtain ⟨⟨groups, constant, hne⟩, raw⟩ := w
  obtain ⟨⟨groups', constant', hne'⟩, raw'⟩ := w'
  obtain rfl : groups = groups' := hgroups
  obtain rfl : constant = constant' := hconstant
  rfl

/-- **No two well-formed formulas have the same canonical spelling.** -/
theorem eq_of_text_eq {f g : Formula} (hf : f.WellFormed) (hg : g.WellFormed)
    (h : f.text = g.text) : f = g := by
  have hread := parse_text hf
  rw [h, parse_text hg, Except.ok.injEq, Written.mk.injEq] at hread
  exact hread.1.symm

theorem same_iff_text_eq {a b : String} {w w' : Written} (ha : parse a = .ok w)
    (hb : parse b = .ok w') : w.Same w' ↔ w.text = w'.text := by
  rw [same_iff]
  exact ⟨congrArg Formula.text, eq_of_text_eq (wellFormed_of_parse ha) (wellFormed_of_parse hb)⟩

/-! ## Rolls of either spelling -/

/-- Nothing tells the two requests apart when they are rolled with this roller: the rolls end in the
same way, with a result or with a fault, leave the same log and the same roller, and a result is
shown on the same line in whatever style. -/
structure Request.Indistinct (p q : Request) (roller : σ) : Prop where
  /-- Both end with the same roll, or with the same fault. -/
  answer : (p.roll.run roller).answer = (q.roll.run roller).answer
  /-- They log the same, up to a fault if there is one. -/
  log : (p.roll.run roller).log = (q.roll.run roller).log
  /-- They draw the same dice, and leave the roller as it is after that. -/
  roller : (p.roll.run roller).roller = (q.roll.run roller).roller
  /-- A roll is shown in the same way next to either formula. -/
  shown : ∀ (style : Style) (r : Roll), style.render p.formula r = style.render q.formula r

/-- Only the meaning of a formula is rolled, and only the meaning is shown. -/
theorem indistinct_of_same {w w' : Written} (h : w.Same w') (mode : Mode) (modifier : Int)
    (roller : σ) : Request.Indistinct ⟨w, mode, modifier⟩ ⟨w', mode, modifier⟩ roller := by
  obtain ⟨f, raw⟩ := w
  obtain ⟨g, raw'⟩ := w'
  obtain rfl : f = g := same_iff.1 h
  exact ⟨rfl, rfl, rfl, fun _ _ => rfl⟩

/-- Requests under the same settings are the same if their formulas mean the same. -/
theorem beq_request_iff {w w' : Written} (mode : Mode) (modifier : Int) :
    ((⟨w, mode, modifier⟩ : Request) == ⟨w', mode, modifier⟩) = true ↔ w.Same w' := by
  rw [same_iff]
  show (w.toFormula == w'.toFormula && mode == mode && modifier == modifier) = true ↔ _
  simp

/-! ## The spelling in the log -/

/-- A roll that comes to an end says so in its last record, and names its formula there. -/
theorem exists_log_of_ok {f : Formula} {mode : Mode} {modifier : Int} {roller : σ} {r : Roll}
    (h : ((f.roll mode modifier).run roller).answer = .ok r) :
    ∃ events, ((f.roll mode modifier).run roller).log =
      events ++ [.rolledFormula f mode modifier r.dice.length r.subtotal r.total] := by
  cases hthrows : ((rollThrows 0 0 (f.throws mode)).run roller).answer with
  | error fault =>
    rw [Formula.roll, Rolling.run_bind_of_error hthrows] at h
    cases h
  | ok table =>
    rw [Formula.roll, Rolling.run_bind_of_ok hthrows] at h ⊢
    obtain rfl : Roll.ofTable f mode modifier table = r := Except.ok.inj h
    exact ⟨_, rfl⟩

/-- A text without blanks is known from a text that it begins, if a blank comes behind it. -/
theorem eq_of_append_blank {cs ds xs ys : List Char} {c : Char} (hc : Text.isBlank c = true)
    (hcs : Unblank cs) (hds : Unblank ds) (h : cs ++ c :: xs = ds ++ c :: ys) : cs = ds := by
  have hfirst : ∀ {es zs : List Char}, Unblank es →
      (es ++ c :: zs).takeWhile (fun e => !Text.isBlank e) = es := by
    intro es zs hes
    rw [List.takeWhile_append_of_pos fun e he => by simp [hes e he],
      List.takeWhile_cons_of_neg (by simp [hc]), List.append_nil]
  calc cs = (cs ++ c :: xs).takeWhile (fun e => !Text.isBlank e) := (hfirst hcs).symm
    _ = (ds ++ c :: ys).takeWhile (fun e => !Text.isBlank e) := by rw [h]
    _ = ds := hfirst hds

theorem unblank_text {f : Formula} (h : f.WellFormed) : Unblank f.text.toList := by
  obtain ⟨p, ps, -, -, htext⟩ := text_eq_line h.leading
  rw [htext]
  exact unblank_line p ps

/-- The message of a roll opens with the canonical spelling of what was rolled, and a blank. -/
theorem exists_message_eq (f : Formula) (mode : Mode) (modifier : Int) (dice : Nat)
    (subtotal total : Int) :
    ∃ rest, (Event.rolledFormula f mode modifier dice subtotal total).message.toList =
      "rolled ".toList ++ (f.text.toList ++ ' ' :: rest) := by
  show ∃ rest, ("rolled " ++ f.text ++ " (" ++ mode.label ++ ", " ++ Total.signed modifier ++
    "): " ++ toString dice ++ " dice, subtotal " ++ toString subtotal ++ ", total " ++
    toString total).toList = _
  simp only [String.toList_append, List.append_assoc]
  exact ⟨_, rfl⟩

/-- **Rolls with the same message are rolls of formulas with the same spelling.** -/
theorem text_eq_of_message_eq {f g : Formula} (hf : f.WellFormed) (hg : g.WellFormed)
    {mode mode' : Mode} {modifier modifier' subtotal subtotal' total total' : Int}
    {dice dice' : Nat}
    (h : (Event.rolledFormula f mode modifier dice subtotal total).message =
      (Event.rolledFormula g mode' modifier' dice' subtotal' total').message) :
    f.text = g.text := by
  obtain ⟨rest, hmessage⟩ := exists_message_eq f mode modifier dice subtotal total
  obtain ⟨rest', hmessage'⟩ := exists_message_eq g mode' modifier' dice' subtotal' total'
  have hblank : Text.isBlank ' ' = true := by decide
  rw [h, hmessage', List.append_cancel_left_eq] at hmessage
  exact String.toList_inj.1
    (eq_of_append_blank hblank (unblank_text hg) (unblank_text hf) hmessage).symm

/-- Rolls that come to an end with the same messages are rolls of the same formula. -/
theorem same_of_messages_eq {a b : String} {w w' : Written} (ha : parse a = .ok w)
    (hb : parse b = .ok w') {mode mode' : Mode} {modifier modifier' : Int} {roller : σ}
    {roller' : τ} {r r' : Roll}
    (h : ((Request.roll ⟨w, mode, modifier⟩).run roller).answer = .ok r)
    (h' : ((Request.roll ⟨w', mode', modifier'⟩).run roller').answer = .ok r')
    (hlog : ((Request.roll ⟨w, mode, modifier⟩).run roller).log.map Event.message =
      ((Request.roll ⟨w', mode', modifier'⟩).run roller').log.map Event.message) :
    w.Same w' := by
  obtain ⟨events, hevents⟩ := exists_log_of_ok h
  obtain ⟨events', hevents'⟩ := exists_log_of_ok h'
  rw [show ((Request.roll ⟨w, mode, modifier⟩).run roller).log = _ from hevents,
    show ((Request.roll ⟨w', mode', modifier'⟩).run roller').log = _ from hevents',
    List.map_append, List.map_append, List.map_singleton, List.map_singleton] at hlog
  have hmessage := List.singleton_inj.1
    (List.append_inj_right' hlog (List.length_singleton.trans List.length_singleton.symm))
  exact (same_iff_text_eq ha hb).2
    (text_eq_of_message_eq (wellFormed_of_parse ha) (wellFormed_of_parse hb) hmessage)

/-- **Two texts mean the same just when they have the same canonical spelling, and just then no roll
tells them apart.**  Readings of the same meaning make the same requests, and under whatever
settings and with whatever roller, one that stops midway included, these are rolled and shown alike.
Readings of different meanings never leave the same messages in the log, in rolls that come to an
end, under whatever settings and with whatever rollers. -/
theorem parse_same_iff {a b : String} {w w' : Written} (ha : parse a = .ok w)
    (hb : parse b = .ok w') :
    (w.Same w' ↔ w.text = w'.text) ∧
      (∀ mode modifier,
        ((⟨w, mode, modifier⟩ : Request) == ⟨w', mode, modifier⟩) = true ↔ w.text = w'.text) ∧
      (w.text = w'.text → ∀ mode modifier (roller : σ),
        Request.Indistinct ⟨w, mode, modifier⟩ ⟨w', mode, modifier⟩ roller) ∧
      ∀ mode mode' modifier modifier' (roller : σ) (roller' : τ) r r',
        ((Request.roll ⟨w, mode, modifier⟩).run roller).answer = .ok r →
        ((Request.roll ⟨w', mode', modifier'⟩).run roller').answer = .ok r' →
        ((Request.roll ⟨w, mode, modifier⟩).run roller).log.map Event.message =
          ((Request.roll ⟨w', mode', modifier'⟩).run roller').log.map Event.message →
        w.text = w'.text := by
  have hsame := same_iff_text_eq ha hb
  refine ⟨hsame, fun mode modifier => ?_, fun htext mode modifier roller => ?_, ?_⟩
  · rw [beq_request_iff, hsame]
  · exact indistinct_of_same (hsame.2 htext) mode modifier roller
  · intro mode mode' modifier modifier' roller roller' r r' h h' hlog
    exact hsame.1 (same_of_messages_eq ha hb h h' hlog)

/-- Two spellings with the constant at either end, rolled twice over with a script that has one face
left. -/
theorem parse_same_iff_leading :
    ∃ w w' : Written, parse "5 + D20" = .ok w ∧ parse "1d20+5" = .ok w' ∧ w.raw ≠ w'.raw ∧
      w.text = w'.text ∧ w.Same w' ∧
      Request.Indistinct ⟨w, .advantage, 2⟩ ⟨w', .advantage, 2⟩ (⟨[7]⟩ : Script) := by
  have ha : parse "5 + D20" = .ok ⟨⟨[⟨.plus, 1, 20, none⟩], 5, by simp⟩, "5 + D20"⟩ := by
    decide +kernel
  have hb : parse "1d20+5" = .ok ⟨⟨[⟨.plus, 1, 20, none⟩], 5, by simp⟩, "1d20+5"⟩ := by
    decide +kernel
  obtain ⟨hsame, -, hroll, -⟩ := parse_same_iff (σ := Script) (τ := Script) ha hb
  exact ⟨_, _, ha, hb, by decide, rfl, hsame.2 rfl, hroll rfl .advantage 2 ⟨[7]⟩⟩

end Dicebag
