import Dicebag.Proofs.Rendering.Readout
import Dicebag.Proofs.Roll.Record

/-!
# Rebuilding a roll from its log

The log of a roll has every die with the face that it showed, and every die that was set aside, but
it does not say where one group ends and the next begins.  `rebuild` puts the dice of the roll
together again from the records in words and nothing else, and `log_replays_roll` says that they are
the dice of the roll, in their order, with the same of them set aside.

* `Note.ofRecord?` reads a record: a die that was rolled, or one that was set aside.  A keep suffix
  gives the place of the die within its group, advantage and disadvantage only the face that it
  shows.
* `Replay.step` takes one record at a time.  Dice that were set aside are collected until the next
  die comes, because how many there are says how large the group was: a keep suffix sets aside all
  but the dice that it keeps.  `Replay.settle` then marks them, counted from the end of the row.
* The invariant of the replay is about the row as it looks when settled.  The records of one throw
  add the dice that the throw left (`settle_throw`), and so those of all throws add all of them
  (`settle_deal`).
-/

set_option autoImplicit false

namespace Dicebag

variable {σ : Type} [Roller σ]

/-! ## Reading records -/

/-- What a record says of a die that was set aside. -/
inductive Drop
  /-- A keep suffix that keeps so many dice has set aside the die at this place of its group. -/
  | keep (amount place : Nat)
  /-- Of two dice one was set aside that shows this face. -/
  | twin (value : Nat)
deriving DecidableEq, Repr

/-- What a record says of the dice. -/
inductive Note
  /-- A die was rolled. -/
  | die (sides value : Nat)
  /-- A die was set aside. -/
  | drop (what : Drop)
deriving DecidableEq, Repr

/-- Reads a record off its words. -/
def Note.ofWords? : List (List Char) → Option Note
  | [sides, ['-', '>'], value] => some (die (Readout.number sides) (Readout.number value))
  | [_, _, value] => some (drop (.twin (Readout.number value)))
  | [amount, _, _, place, _] =>
    some (drop (.keep (Readout.number amount) (Readout.number place)))
  | _ => none

/-- Reads a record. -/
def Note.ofRecord? (record : Level × String) : Option Note :=
  if record.1 = .trace then Note.ofWords? (Readout.words record.2.toList) else none

/-! ## Rebuilding -/

/-- How far the dice are rebuilt. -/
structure Replay where
  /-- The dice up to here, where the last group is not settled yet. -/
  row : List Die
  /-- What was set aside of the last group, as far as it was read. -/
  drops : List Drop
deriving DecidableEq, Repr

/-- The place in the row of a die that was set aside, where the row ends with the group of the die
and so many dice of that group were set aside. -/
def Drop.place (row : List Die) (count : Nat) : Drop → Nat
  | keep amount place => row.length - (amount + count) + place
  | twin value =>
    if row.getLast?.map Die.value = some value then row.length - 1 else row.length - 2

/-- The dice with those marked that were set aside. -/
def Replay.settle (p : Replay) : List Die :=
  setAside (p.drops.map (Drop.place p.row p.drops.length)) p.row

/-- Takes in one more record. -/
def Replay.step (p : Replay) : Note → Replay
  | .die sides value => ⟨p.settle ++ [Die.fresh sides value], []⟩
  | .drop d => ⟨p.row, p.drops ++ [d]⟩

/-- Puts the dice of a roll together from its records. -/
def rebuild (records : List (Level × String)) : List Die :=
  ((records.filterMap Note.ofRecord?).foldl Replay.step ⟨[], []⟩).settle

/-! ## Records and what they say -/

/-- A word with a number in it, and nothing before or after that is a digit or a blank. -/
structure IsNumbered (word : List Char) (n : Nat) : Prop where
  /-- There is no blank. -/
  blank : ' ' ∉ word
  /-- The number is read off it. -/
  number : Readout.number word = n

theorem isNumbered_append {before after : List Char}
    (hbefore : ∀ c ∈ before, c.isDigit = false ∧ c ≠ ' ') (n : Nat)
    (hafter : ∀ c ∈ after, c.isDigit = false ∧ c ≠ ' ') :
    IsNumbered (before ++ (Nat.toDigits 10 n ++ after)) n where
  blank h := by
    rcases List.mem_append.1 h with h | h
    · exact (hbefore _ h).2 rfl
    · rcases List.mem_append.1 h with h | h
      · exact Readout.not_mem_toDigits rfl h
      · exact (hafter _ h).2 rfl
  number := Readout.number_append (fun c hc => (hbefore c hc).1) n fun c hc => (hafter c hc).1

/-- The same where the number is at the end of the word. -/
theorem isNumbered_before {before : List Char}
    (hbefore : ∀ c ∈ before, c.isDigit = false ∧ c ≠ ' ') (n : Nat) :
    IsNumbered (before ++ Nat.toDigits 10 n) n := by
  have h := isNumbered_append hbefore n (List.forall_mem_nil _)
  rwa [List.append_nil] at h

theorem toList_natText (n : Nat) : (toString n).toList = Nat.toDigits 10 n := by
  rw [Nat.toString_eq_repr, Nat.toList_repr]

theorem ofRecord?_shown {e : Event} (h : e.level = .trace) :
    Note.ofRecord? e.shown = Note.ofWords? (Readout.words e.message.toList) := if_pos h

theorem ofRecord?_rolledDie (sides value : Nat) :
    Note.ofRecord? (Event.rolledDie sides value).shown = some (.die sides value) := by
  have hsides : IsNumbered (['d'] ++ Nat.toDigits 10 sides) sides := isNumbered_before (by simp) _
  have hvalue : IsNumbered ([] ++ Nat.toDigits 10 value) value := isNumbered_before (by simp) _
  have htext : (Event.rolledDie sides value).message.toList = (['d'] ++ Nat.toDigits 10 sides) ++
      ' ' :: (['-', '>'] ++ ' ' :: ([] ++ Nat.toDigits 10 value)) := by
    show ("d" ++ toString sides ++ " -> " ++ toString value).toList = _
    simp only [String.toList_append, toList_natText, List.append_assoc, List.nil_append]
    rfl
  rw [ofRecord?_shown rfl, htext, Readout.words_append hsides.blank,
    Readout.words_append (by simp), Readout.words_last hvalue.blank, Note.ofWords?, hsides.number,
    hvalue.number]

theorem ofRecord?_droppedTwin (mode : Mode) (value : Nat) :
    Note.ofRecord? (Event.droppedTwin mode value).shown = some (.drop (.twin value)) := by
  have hlabel : ' ' ∉ mode.label.toList := by cases mode <;> decide
  have hvalue : IsNumbered ([] ++ Nat.toDigits 10 value) value := isNumbered_before (by simp) _
  have htext : (Event.droppedTwin mode value).message.toList = mode.label.toList ++
      ' ' :: (['d', 'r', 'o', 'p', 's'] ++ ' ' :: ([] ++ Nat.toDigits 10 value)) := by
    show (mode.label ++ " drops " ++ toString value).toList = _
    simp only [String.toList_append, toList_natText, List.append_assoc, List.nil_append]
    rfl
  rw [ofRecord?_shown rfl, htext, Readout.words_append hlabel, Readout.words_append (by simp),
    Readout.words_last hvalue.blank, Note.ofWords?, hvalue.number]
  simp

theorem isNumbered_keepText (k : Keep) : IsNumbered k.text.toList k.amount := by
  rw [Keep.text, String.toList_append, toList_natText]
  refine isNumbered_before ?_ k.amount
  cases k.mode <;> simp

theorem ofRecord?_droppedDie (k : Keep) (place value : Nat) :
    Note.ofRecord? (Event.droppedDie k place value).shown =
      some (.drop (.keep k.amount place)) := by
  have hkeep := isNumbered_keepText k
  have hplace : IsNumbered (['#'] ++ Nat.toDigits 10 place) place := isNumbered_before (by simp) _
  have hvalue : IsNumbered (['('] ++ (Nat.toDigits 10 value ++ [')'])) value :=
    isNumbered_append (by simp) _ (by simp)
  have htext : (Event.droppedDie k place value).message.toList = k.text.toList ++
      ' ' :: (['d', 'r', 'o', 'p', 's'] ++ ' ' :: (['d', 'i', 'e'] ++
        ' ' :: ((['#'] ++ Nat.toDigits 10 place) ++
          ' ' :: (['('] ++ (Nat.toDigits 10 value ++ [')']))))) := by
    show (k.text ++ " drops die #" ++ toString place ++ " (" ++ toString value ++ ")").toList = _
    simp only [String.toList_append, toList_natText, List.append_assoc]
    rfl
  rw [ofRecord?_shown rfl, htext, Readout.words_append hkeep.blank,
    Readout.words_append (by simp), Readout.words_append (by simp),
    Readout.words_append hplace.blank, Readout.words_last hvalue.blank, Note.ofWords?,
    hkeep.number, hplace.number]

/-! ## Marking at the end of a row -/

theorem setAside_nil (dice : List Die) : setAside [] dice = dice := by
  refine List.ext_getElem? fun i => ?_
  rw [getElem?_setAside]
  exact Option.map_id'

/-- **Places that are counted from the end of a row lie among the dice that end it.** -/
theorem setAside_append (row dice : List Die) (places : List Nat) :
    setAside (places.map fun place => row.length + place) (row ++ dice) =
      row ++ setAside places dice := by
  refine List.ext_getElem? fun i => ?_
  rw [getElem?_setAside]
  by_cases hi : i < row.length
  · have hout : (places.map fun place => row.length + place).contains i = false := by
      rw [Bool.eq_false_iff]
      intro h
      obtain ⟨place, -, rfl⟩ := List.mem_map.1 (List.contains_iff_mem.1 h)
      omega
    rw [hout, List.getElem?_append_left hi, List.getElem?_append_left hi]
    exact Option.map_id'
  · obtain ⟨j, rfl⟩ := Nat.exists_eq_add_of_le (Nat.le_of_not_lt hi)
    have hin : (places.map fun place => row.length + place).contains (row.length + j) =
        places.contains j := by
      rw [Bool.eq_iff_iff, List.contains_iff_mem, List.contains_iff_mem, List.mem_map]
      refine ⟨?_, fun h => ⟨j, h, rfl⟩⟩
      rintro ⟨place, hplace, heq⟩
      rwa [← Nat.add_left_cancel heq]
    rw [hin, List.getElem?_append_right (Nat.le_add_right _ _),
      List.getElem?_append_right (Nat.le_add_right _ _), Nat.add_sub_cancel_left, getElem?_setAside]

/-! ## The records of one throw -/

/-- What the records of some events say. -/
def notes (events : List Event) : List Note :=
  (events.map Event.shown).filterMap Note.ofRecord?

theorem notes_append (events events' : List Event) :
    notes (events ++ events') = notes events ++ notes events' := by
  rw [notes, List.map_append, List.filterMap_append]
  rfl

/-- What the notes of a throw say of the dice that were set aside. -/
def Throw.drops (t : Throw) (share : List Nat) : List Drop :=
  match t.rule with
  | .all => []
  | .keep k => (k.dropped (share.map (Die.fresh t.sides))).map fun d => .keep k.amount d.2
  | .pick mode =>
    match share with
    | [first, second] => [.twin (if mode.secondWins first second then first else second)]
    | _ => []

theorem notes_rolledDie (sides : Nat) (faces : List Nat) :
    notes (faces.map (Event.rolledDie sides)) = faces.map (Note.die sides) := by
  rw [notes, List.map_map, List.filterMap_map, ← List.filterMap_eq_map]
  refine List.filterMap_congr fun value _ => ?_
  simp only [Function.comp_apply, ofRecord?_rolledDie]

theorem notes_droppedDie (k : Keep) (dropped : List (Die × Nat)) :
    notes (dropped.map fun d => Event.droppedDie k d.2 d.1.value) =
      dropped.map fun d => Note.drop (.keep k.amount d.2) := by
  rw [notes, List.map_map, List.filterMap_map, ← List.filterMap_eq_map]
  refine List.filterMap_congr fun d _ => ?_
  simp only [Function.comp_apply, ofRecord?_droppedDie]

/-- **The notes of a throw are its dice, and then what was set aside.** -/
theorem Throw.notes_events {t : Throw} (ht : t.Sound) {share : List Nat}
    (hshare : share.length = t.count) :
    notes (t.events share) = share.map (Note.die t.sides) ++ (t.drops share).map Note.drop := by
  rw [Throw.events, notes_append, notes_rolledDie, Throw.drops]
  refine congrArg _ ?_
  cases hrule : t.rule with
  | all => rfl
  | keep k =>
    rw [List.map_map]
    exact notes_droppedDie k _
  | pick mode =>
    obtain ⟨hmode, hcount⟩ := ht mode hrule
    obtain ⟨first, second, rfl⟩ := List.length_eq_two.1 (hshare.trans hcount)
    have hevents : ((Rule.pick mode).apply ([first, second].map (Die.fresh t.sides))).2 =
        [.droppedTwin mode (if mode.secondWins first second then first else second)] :=
      events_pick_pair hmode (Die.fresh t.sides first) (Die.fresh t.sides second)
    rw [hevents, notes, List.map_singleton, List.filterMap_cons, ofRecord?_droppedTwin]
    rfl

/-! ## Settling a throw -/

/-- A keep suffix sets aside all but the dice that it keeps, so the places count from the start of
the group. -/
theorem place_keep (k : Keep) (row dice : List Die) {d : Die × Nat} (hd : d ∈ k.dropped dice) :
    Drop.place (row ++ dice) (k.dropped dice).length (.keep k.amount d.2) = row.length + d.2 := by
  have hlength : (k.dropped dice).length = dice.length - k.amount := by
    rw [Keep.dropped, List.length_drop, Keep.ranking, List.length_mergeSort, List.length_zipIdx]
  have hpos := List.length_pos_of_mem hd
  show (row ++ dice).length - (k.amount + (k.dropped dice).length) + d.2 = _
  rw [List.length_append]
  omega

theorem ne_of_secondWins {mode : Mode} {first second : Nat}
    (h : mode.secondWins first second = true) : first ≠ second := by
  cases mode <;> simp only [Mode.secondWins, decide_eq_true_eq] at h
  · cases h
  · omega
  · omega

/-- Of two dice at the end of a row the one that a mode sets aside is known by its face: if it shows
the face of the last die, it is the last. -/
theorem place_twin (mode : Mode) (row : List Die) (sides first second count : Nat) :
    Drop.place (row ++ [Die.fresh sides first, Die.fresh sides second]) count
        (.twin (if mode.secondWins first second then first else second)) =
      row.length + if mode.secondWins first second then 0 else 1 := by
  have hlast : (row ++ [Die.fresh sides first, Die.fresh sides second]).getLast?.map Die.value =
      some second := by
    rw [List.getLast?_append]
    rfl
  rw [Drop.place, hlast, List.length_append]
  by_cases hwins : mode.secondWins first second = true
  · rw [if_pos hwins, if_pos hwins, if_neg fun h => ne_of_secondWins hwins (Option.some.inj h).symm]
    rfl
  · rw [if_neg hwins, if_neg hwins, if_pos rfl]
    rfl

/-- The dice that a keep suffix sets aside are marked in a row that ends with them. -/
theorem settle_keep (k : Keep) (row dice : List Die) :
    Replay.settle ⟨row ++ dice, (k.dropped dice).map fun d => .keep k.amount d.2⟩ =
      row ++ ((Rule.keep k).apply dice).1 := by
  have hplaces : ((k.dropped dice).map fun d =>
        Drop.place (row ++ dice) (k.dropped dice).length (.keep k.amount d.2)) =
      ((k.dropped dice).map Prod.snd).map fun place => row.length + place := by
    rw [List.map_map]
    exact List.map_congr_left fun d hd => place_keep k row dice hd
  rw [Replay.settle, List.map_map, List.length_map]
  show setAside ((k.dropped dice).map fun d => Drop.place _ _ (.keep k.amount d.2)) _ = _
  rw [hplaces, setAside_append]
  rfl

/-- The die that a mode sets aside is marked in a row that ends with the two. -/
theorem settle_pick {mode : Mode} (hmode : mode ≠ .normal) (row : List Die)
    (sides first second : Nat) :
    Replay.settle ⟨row ++ [Die.fresh sides first, Die.fresh sides second],
        [.twin (if mode.secondWins first second then first else second)]⟩ =
      row ++ ((Rule.pick mode).apply [Die.fresh sides first, Die.fresh sides second]).1 := by
  rw [apply_pick_eq_setAside hmode, ← setAside_append, Replay.settle, List.map_singleton,
    List.map_singleton, place_twin]
  rfl

/-- **The dice of a throw are settled as its rule has it**, whatever lies in the row before them. -/
theorem settle_drops {t : Throw} (ht : t.Sound) {share : List Nat} (hshare : share.length = t.count)
    (row : List Die) :
    Replay.settle ⟨row ++ share.map (Die.fresh t.sides), t.drops share⟩ =
      row ++ t.settle share := by
  rw [Throw.drops, Throw.settle]
  cases hrule : t.rule with
  | all => exact setAside_nil _
  | keep k => exact settle_keep k row _
  | pick mode =>
    obtain ⟨hmode, hcount⟩ := ht mode hrule
    obtain ⟨first, second, rfl⟩ := List.length_eq_two.1 (hshare.trans hcount)
    exact settle_pick hmode row t.sides first second

theorem foldl_dice (row : List Die) (sides : Nat) (faces : List Nat) :
    (faces.map (Note.die sides)).foldl Replay.step ⟨row, []⟩ =
      ⟨row ++ faces.map (Die.fresh sides), []⟩ := by
  induction faces generalizing row with
  | nil => rw [List.map_nil, List.foldl_nil, List.map_nil, List.append_nil]
  | cons value faces ih =>
    have hstep : Replay.step ⟨row, []⟩ (.die sides value) =
        ⟨row ++ [Die.fresh sides value], []⟩ := by
      show (⟨setAside [] row ++ _, []⟩ : Replay) = _
      rw [setAside_nil]
    rw [List.map_cons, List.foldl_cons, hstep, ih, List.append_assoc]
    rfl

theorem foldl_drops (p : Replay) (drops : List Drop) :
    (drops.map Note.drop).foldl Replay.step p = ⟨p.row, p.drops ++ drops⟩ := by
  induction drops generalizing p with
  | nil => rw [List.append_nil]; rfl
  | cons d drops ih =>
    rw [List.map_cons, List.foldl_cons, ih]
    show (⟨p.row, (p.drops ++ [d]) ++ drops⟩ : Replay) = _
    rw [List.append_assoc]
    rfl

/-- **The notes of a throw add the dice that it left**, once they are settled. -/
theorem settle_throw {t : Throw} (ht : t.Sound) (hcount : 0 < t.count) {share : List Nat}
    (hshare : share.length = t.count) (p : Replay) :
    ((notes (t.events share)).foldl Replay.step p).settle = p.settle ++ t.settle share := by
  obtain ⟨value, rest, rfl⟩ := List.exists_cons_of_length_pos (hshare.symm ▸ hcount)
  have hdice : ((value :: rest).map (Note.die t.sides)).foldl Replay.step p =
      ⟨p.settle ++ (value :: rest).map (Die.fresh t.sides), []⟩ := by
    -- the first die settles what came before, and those after it find nothing to settle
    have hfirst : p.step (.die t.sides value) = ⟨p.settle ++ [Die.fresh t.sides value], []⟩ := rfl
    rw [List.map_cons, List.foldl_cons, hfirst, foldl_dice, List.append_assoc]
    rfl
  rw [Throw.notes_events ht hshare, List.foldl_append, hdice, foldl_drops, List.nil_append,
    settle_drops ht hshare]

/-- **The notes of throws add the dice of all of them.** -/
theorem settle_deal {ts : List Throw} (hts : ∀ t ∈ ts, t.Sound ∧ 0 < t.count) {faces : List Nat}
    (hfaces : faces.length = (ts.flatMap Throw.sizes).length) (p : Replay) :
    ((notes (dealEvents ts faces)).foldl Replay.step p).settle =
      p.settle ++ (deal ts faces).flatten := by
  induction ts generalizing faces p with
  | nil =>
    rw [deal, List.flatten_nil, List.append_nil]
    rfl
  | cons t ts ih =>
    obtain ⟨⟨hsound, hcount⟩, hts⟩ := List.forall_mem_cons.1 hts
    obtain ⟨hshare, hrest⟩ := length_share hfaces
    rw [dealEvents, notes_append, List.foldl_append, ih hts hrest,
      settle_throw hsound hcount hshare, deal, List.flatten_cons, List.append_assoc]

/-! ## The whole roll -/

theorem count_pos_of_mem_throws {f : Formula} (hf : f.Playable) {mode : Mode} {t : Throw}
    (ht : t ∈ f.throws mode) : 0 < t.count := by
  obtain ⟨p, hp, rfl⟩ := List.mem_map.1 ht
  have hcount := (hf p.1 (List.fst_mem_of_mem_zipIdx hp)).count.1
  show 0 < (f.throwAt mode p.2 p.1).count
  rw [f.count_throwAt, Formula.diceThrown]
  rw [Group.minCount] at hcount
  omega

/-- **The records of a roll give its dice back.** -/
theorem rebuild_rollEvents {f : Formula} (hf : f.Playable) (mode : Mode) (modifier : Int)
    {faces : List Nat} (hfaces : faces.length = (f.sizes mode).length) :
    rebuild ((f.rollEvents mode modifier faces).map Event.shown) =
      (f.outcome mode modifier faces).dice := by
  rw [← f.flatMap_sizes_throws] at hfaces
  have hdice := settle_deal (fun t ht => ⟨sound_throws f mode t ht, count_pos_of_mem_throws hf ht⟩)
    hfaces ⟨[], []⟩
  rw [rebuild, ← notes, Formula.rollEvents, notes_append]
  -- the last record is not about a single die
  show Replay.settle ((_ ++ []).foldl Replay.step ⟨[], []⟩) = _
  rw [List.append_nil, hdice]
  rfl

/-- A pool with a die set aside, and a lone d20 with advantage. -/
example : rebuild [(.trace, "d6 -> 1"), (.trace, "d6 -> 5"), (.trace, "kh1 drops die #0 (1)"),
      (.trace, "d20 -> 12"), (.trace, "d20 -> 7"), (.trace, "advantage drops 7"),
      (.debug, "rolled 2d6kh1 + 1d20 (advantage, +0): 4 dice, subtotal 17, total 17")] =
    [⟨6, 1, true⟩, ⟨6, 5, false⟩, ⟨20, 12, false⟩, ⟨20, 7, true⟩] := by
  decide +kernel

/-- **The log replays the roll.**  Whatever formula is rolled of those that play can make, in
whatever mode, with whatever modifier and on whatever roller, either all draws are good or one is
the first that is not.  If all are good, the roll ends with a result, and the log has the records of
the groups in order, each with its dice as they were drawn and then those that it set aside, and at
the end the number of dice, the subtotal and the total; from these records alone `rebuild` gives the
dice of the result, with the same of them set aside.  If a draw is bad, the log has the records of
the groups that were complete by then and of the dice that the next one had drawn, and no other. -/
theorem log_replays_roll {f : Formula} (hf : f.Available) (hlength : f.groups.length ≤ 2 ^ 40)
    (mode : Mode) (modifier : Int) (roller : σ) :
    ((∀ i < (f.sizes mode).length, GoodDraw roller (f.sizes mode) i) ∨
        ∃ i fault, FirstBadDraw roller (f.sizes mode) i fault) ∧
      ((∀ i < (f.sizes mode).length, GoodDraw roller (f.sizes mode) i) →
        ∃ r log after, (f.roll mode modifier).run roller = ⟨.ok r, log, after⟩ ∧
          Logged f mode modifier roller r log ∧ rebuild (log.map Event.shown) = r.dice) ∧
      ∀ i fault, FirstBadDraw roller (f.sizes mode) i fault →
        ∃ log after, (f.roll mode modifier).run roller = ⟨.error fault, log, after⟩ ∧
          LoggedUpTo f mode roller i log := by
  rcases deals_or_stops roller (f.sizes mode) with ⟨faces, after, h⟩ | ⟨fault, after, h⟩
  · have hgood := h.goodDraw.1
    exact ⟨.inl hgood,
      fun _ => ⟨_, _, after, Formula.run_roll hf.playable hlength modifier h,
        logged_outcome f modifier h, rebuild_rollEvents hf.playable mode modifier h.length_eq⟩,
      fun i fault hbad => absurd (hgood i hbad.bad.lt) hbad.bad.not_goodDraw⟩
  · obtain ⟨log, hcut, hrun⟩ := Formula.run_roll_cutShort hf.playable hlength modifier h
    obtain ⟨i, hbad, hlog⟩ := loggedUpTo_of_cutShort hf.playable hlength hcut
    refine ⟨.inr ⟨i, fault, hbad⟩,
      fun hgood => absurd (hgood i hbad.bad.lt) hbad.bad.not_goodDraw, fun i' fault' hbad' => ?_⟩
    obtain ⟨rfl, rfl⟩ := hbad'.unique hbad
    exact ⟨log, after, hrun, hlog⟩

/-- A formula with a keep suffix and a lone d20, with advantage: from a script with a face to spare,
and from one with a face that no d20 has. -/
theorem log_replays_roll_mixed :
    Formula.mixed.Available ∧ Formula.mixed.groups.length ≤ 2 ^ 40 ∧
      (∃ r log after, (Formula.mixed.roll .advantage 2).run
            (⟨[1, 2, 3, 4, 5, 15, 1, 4, 9]⟩ : Script) = ⟨.ok r, log, after⟩ ∧
        Logged .mixed .advantage 2 (⟨[1, 2, 3, 4, 5, 15, 1, 4, 9]⟩ : Script) r log ∧
        rebuild (log.map Event.shown) = r.dice) ∧
      ∃ log after, (Formula.mixed.roll .advantage 2).run
            (⟨[1, 2, 3, 4, 5, 21, 1, 1]⟩ : Script) =
          ⟨.error (.impossibleFace 21 20), log, after⟩ ∧
        LoggedUpTo .mixed .advantage (⟨[1, 2, 3, 4, 5, 21, 1, 1]⟩ : Script) 5 log := by
  have hlength : Formula.mixed.groups.length ≤ 2 ^ 40 := by decide
  have hfaces : List.Forall₂ (fun sides value => 1 ≤ value ∧ value ≤ sides)
      (Formula.mixed.sizes .advantage) [1, 2, 3, 4, 5, 15, 1, 4] := by decide
  have hgood := (Deals.script hfaces [9]).goodDraw.1
  have hbad : FirstBadDraw (⟨[1, 2, 3, 4, 5, 21, 1, 1]⟩ : Script)
      (Formula.mixed.sizes .advantage) 5 (.impossibleFace 21 20) := by
    refine ⟨fun j hj => ?_, .impossible rfl (by decide)⟩
    have hj : j = 0 ∨ j = 1 ∨ j = 2 ∨ j = 3 ∨ j = 4 := by omega
    rcases hj with rfl | rfl | rfl | rfl | rfl <;> exact ⟨_, _, rfl, by decide, by decide⟩
  exact ⟨available_mixed, hlength,
    (log_replays_roll available_mixed hlength .advantage 2
      (⟨[1, 2, 3, 4, 5, 15, 1, 4, 9]⟩ : Script)).2.1 hgood,
    (log_replays_roll available_mixed hlength .advantage 2
      (⟨[1, 2, 3, 4, 5, 21, 1, 1]⟩ : Script)).2.2 5 _ hbad⟩

end Dicebag
