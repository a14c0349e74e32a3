import Dicebag.Uniform
import Dicebag.Proofs.Roll.Stopping

/-!
# Rolling with random words

A sampler turns random words into faces, and rejects some of the words.  Nothing that it answers can
end a roll: the dice of a formula that can be rolled have sides, and the upper half of the product
of a word and a number of sides is below that number.  The one thing that may happen is that the
words run out.

* `Serves` says that a source has words enough for a row of dice, and which of them are accepted.
  It looks at the words only, one after another, and knows nothing of rolls.
* A sampler whose source serves the dice deals them, with the faces that the accepted words stand
  for (`Serves.deals`); any other runs out of words (`serves_or_exhausted`).
* `roll_sampled` says what that means for rolls, and that two sources with the same accepted words
  make the same roll, whatever they had to reject in between.
-/

set_option autoImplicit false

namespace Dicebag

variable {σ : Type} [WordSource σ]

/-! ## Words enough -/

/-- The source has words for dice of these sizes: for each in turn some words are rejected, and then
one is accepted.  Listed are the accepted words, and the last source is what is left. -/
inductive Serves : σ → List Nat → List UInt32 → σ → Prop
  /-- There are no dice. -/
  | nil (source : σ) : Serves source [] [] source
  /-- The next word is no face of the next die, and the word after it is looked at. -/
  | reject {source next after : σ} {word : UInt32} {sides : Nat} {sizes : List Nat}
      {accepted : List UInt32} (taken : WordSource.next source = some (word, next))
      (rejected : Uniform.face? sides word.toNat = none)
      (rest : Serves next (sides :: sizes) accepted after) :
      Serves source (sides :: sizes) accepted after
  /-- The next word is a face of the next die, and there are words for the others. -/
  | accept {source next after : σ} {word : UInt32} {sides face : Nat} {sizes : List Nat}
      {accepted : List UInt32} (taken : WordSource.next source = some (word, next))
      (faced : Uniform.face? sides word.toNat = some face)
      (rest : Serves next sizes accepted after) :
      Serves source (sides :: sizes) (word :: accepted) after

/-- The faces that accepted words stand for, on dice of these sizes. -/
def acceptedFaces (sizes : List Nat) (accepted : List UInt32) : List Nat :=
  List.zipWith (fun sides word => 1 + word.toNat * sides / Uniform.wordCount) sizes accepted

theorem face?_eq_some {sides word face : Nat} (h : Uniform.face? sides word = some face) :
    face = 1 + word * sides / Uniform.wordCount := by
  rw [Uniform.face?] at h
  split at h
  · exact (Option.some.inj h).symm
  · cases h

/-! ## Drawing words -/

/-- One word at a time. -/
theorem draw_eq (sides : Nat) (source : σ) :
    Uniform.draw sides source =
      match WordSource.next source with
      | none => (.error .exhausted, source)
      | some (word, next) =>
        match Uniform.face? sides word.toNat with
        | some face => (.ok face, next)
        | none => Uniform.draw sides next := by
  rw [Uniform.draw]
  split
  · rename_i hnext
    exact hnext ▸ rfl
  · rename_i hnext
    exact hnext ▸ rfl

/-- A sampler draws words for every die with sides. -/
theorem roll_sampler {sides : Nat} (hsides : 1 ≤ sides) (source : σ) :
    Roller.roll sides (⟨source⟩ : Sampler σ) =
      ((Uniform.draw sides source).1, ⟨(Uniform.draw sides source).2⟩) :=
  if_neg (Nat.ne_of_gt hsides)

section

variable {source next : σ} {word : UInt32} {sides : Nat} (hsides : 1 ≤ sides)

include hsides

theorem roll_of_empty (empty : WordSource.next source = none) :
    Roller.roll sides (⟨source⟩ : Sampler σ) = (.error .exhausted, ⟨source⟩) := by
  rw [roll_sampler hsides, draw_eq, empty]

theorem roll_of_accept {face : Nat} (taken : WordSource.next source = some (word, next))
    (faced : Uniform.face? sides word.toNat = some face) :
    Roller.roll sides (⟨source⟩ : Sampler σ) = (.ok face, ⟨next⟩) := by
  rw [roll_sampler hsides, draw_eq, taken]
  simp only [faced]

/-- A rejected word leaves no trace. -/
theorem roll_of_reject (taken : WordSource.next source = some (word, next))
    (rejected : Uniform.face? sides word.toNat = none) :
    Roller.roll sides (⟨source⟩ : Sampler σ) = Roller.roll sides (⟨next⟩ : Sampler σ) := by
  rw [roll_sampler hsides, roll_sampler hsides, draw_eq, taken]
  simp only [rejected]

end

/-! ## Dealing and running out -/

/-- Rollers that answer alike for the first die deal alike. -/
theorem Deals.of_roll_eq {ρ : Type} [Roller ρ] {roller roller' after : ρ} {sides : Nat}
    {sizes faces : List Nat} (h : Deals roller (sides :: sizes) faces after)
    (heq : Roller.roll sides roller' = Roller.roll sides roller) :
    Deals roller' (sides :: sizes) faces after := by
  obtain _ | ⟨drawn, least, most, rest⟩ := h
  exact .cons (heq.trans drawn) least most rest

/-- Rollers that answer alike for the first die stop alike. -/
theorem Stops.of_roll_eq {ρ : Type} [Roller ρ] {roller roller' after : ρ} {sides : Nat}
    {sizes : List Nat} {fault : Fault} (h : Stops roller (sides :: sizes) fault after)
    (heq : Roller.roll sides roller' = Roller.roll sides roller) :
    Stops roller' (sides :: sizes) fault after := by
  cases h with
  | missing drawn => exact .missing (heq.trans drawn)
  | impossible drawn out => exact .impossible (heq.trans drawn) out
  | later drawn least most rest => exact .later (heq.trans drawn) least most rest

/-- **A sampler with words enough deals the faces that the accepted words stand for.** -/
theorem Serves.deals {source after : σ} {sizes : List Nat} {accepted : List UInt32}
    (h : Serves source sizes accepted after) (hsizes : ∀ sides ∈ sizes, 1 ≤ sides) :
    Deals (⟨source⟩ : Sampler σ) sizes (acceptedFaces sizes accepted) ⟨after⟩ := by
  induction h with
  | nil source => exact .nil _
  | @reject _ _ _ _ sides _ _ taken rejected _ ih =>
    have hsides := hsizes sides List.mem_cons_self
    exact (ih hsizes).of_roll_eq (roll_of_reject hsides taken rejected)
  | @accept _ _ _ word sides _ _ _ taken faced _ ih =>
    obtain ⟨hsides, hrest⟩ := List.forall_mem_cons.1 hsizes
    obtain ⟨least, most⟩ := Uniform.face?_mem hsides word.toNat_lt faced
    obtain rfl := face?_eq_some faced
    exact .cons (roll_of_accept hsides taken faced) least most (ih hrest)

/-- **A sampler has words enough, or it runs out of words.** -/
theorem serves_or_exhausted {sizes : List Nat} (hsizes : ∀ sides ∈ sizes, 1 ≤ sides) (source : σ) :
    (∃ accepted after, Serves source sizes accepted after) ∨
      ∃ after, Stops (⟨source⟩ : Sampler σ) sizes .exhausted after := by
  induction sizes generalizing source with
  | nil => exact .inl ⟨[], source, .nil source⟩
  | cons sides sizes ih =>
    obtain ⟨hsides, hrest⟩ := List.forall_mem_cons.1 hsizes
    -- a rejected word leaves the row of dice as it is, and fewer words
    induction hremaining : WordSource.remaining source using Nat.strongRecOn
      generalizing source with
    | ind n ihWords =>
      cases taken : WordSource.next source with
      | none => exact .inr ⟨⟨source⟩, .missing (roll_of_empty hsides taken)⟩
      | some pair =>
        obtain ⟨word, next⟩ := pair
        cases faced : Uniform.face? sides word.toNat with
        | some face =>
          obtain ⟨least, most⟩ := Uniform.face?_mem hsides word.toNat_lt faced
          rcases ih hrest next with ⟨accepted, after, h⟩ | ⟨after, h⟩
          · exact .inl ⟨word :: accepted, after, .accept taken faced h⟩
          · exact .inr ⟨after, .later (roll_of_accept hsides taken faced) least most h⟩
        | none =>
          have hlt := WordSource.remaining_next taken
          rcases ihWords _ (hremaining ▸ hlt) next rfl with ⟨accepted, after, h⟩ | ⟨after, h⟩
          · exact .inl ⟨accepted, after, .reject taken faced h⟩
          · exact .inr ⟨after, h.of_roll_eq (roll_of_reject hsides taken faced)⟩

/-! ## The roll -/

/-- **Rolling with random words cannot fail but for want of words.**  A roll has no fault save that
the words run out, and it has that one just when the source does not serve the dice of the formula.
If it does, the roll ends with a result whose dice show the faces of the accepted words, each
between one and the sides of its die, and the words that are left are those behind the last accepted
one.  Any other source with the same accepted words, whatever it has to reject in between, makes the
same roll. -/
theorem roll_sampled {f : Formula} (hf : f.Available) (hlength : f.groups.length ≤ 2 ^ 40)
    (mode : Mode) (modifier : Int) (source : σ) :
    (∀ fault, ((f.roll mode modifier).run (⟨source⟩ : Sampler σ)).answer = .error fault ↔
      fault = .exhausted ∧ ¬∃ accepted after, Serves source (f.sizes mode) accepted after) ∧
    ∀ accepted after, Serves source (f.sizes mode) accepted after →
      ∃ r log, (f.roll mode modifier).run (⟨source⟩ : Sampler σ) = ⟨.ok r, log, ⟨after⟩⟩ ∧
        r.dice.map Die.face =
          (f.sizes mode).zip (acceptedFaces (f.sizes mode) accepted) ∧
        (∀ d ∈ r.dice, 1 ≤ d.value ∧ d.value ≤ d.sides) ∧
        ∀ {τ : Type} [WordSource τ] (source' after' : τ),
          Serves source' (f.sizes mode) accepted after' →
            (f.roll mode modifier).run (⟨source'⟩ : Sampler τ) = ⟨.ok r, log, ⟨after'⟩⟩ := by
  have hsizes := Formula.sides_pos_of_mem_sizes hf.playable mode
  refine ⟨fun fault => ?_, fun accepted after h => ?_⟩
  · rcases serves_or_exhausted hsizes source with ⟨accepted, after, h⟩ | ⟨after, hstops⟩
    · rw [Formula.run_roll hf.playable hlength modifier (h.deals hsizes)]
      refine ⟨fun herror => ?_, fun hnone => absurd ⟨accepted, after, h⟩ hnone.2⟩
      cases herror
    · obtain ⟨log, hrun⟩ := Formula.run_roll_of_stops hf.playable hlength modifier hstops
      have hnone : ¬∃ accepted after, Serves source (f.sizes mode) accepted after := by
        rintro ⟨accepted, after', h⟩
        have hok := Formula.run_roll hf.playable hlength modifier (h.deals hsizes)
        rw [hrun] at hok
        cases hok
      rw [hrun]
      exact ⟨fun herror => ⟨(Except.error.inj herror).symm, hnone⟩, fun h => by rw [h.1]⟩
  · have hdeals := h.deals hsizes
    have hshowing : (f.outcome mode modifier (acceptedFaces (f.sizes mode) accepted)).dice.map
        Die.face = (f.sizes mode).zip (acceptedFaces (f.sizes mode) accepted) :=
      map_face_pools hdeals.length_eq
    refine ⟨_, _, Formula.run_roll hf.playable hlength modifier hdeals, hshowing, fun d hd => ?_,
      fun source' after' h' => Formula.run_roll hf.playable hlength modifier (h'.deals hsizes)⟩
    have hmem : (d.sides, d.value) ∈
        (f.sizes mode).zip (acceptedFaces (f.sizes mode) accepted) := by
      rw [← hshowing]
      exact List.mem_map_of_mem hd
    exact (List.forall₂_iff_zip.1 hdeals.forall₂).2 hmem

/-- Two dice of a doubled d6, from words of which the first is rejected, and a word to spare. -/
theorem roll_sampled_doubled :
    (StandardDie.d6.formula 1).doubled.Available ∧
      (StandardDie.d6.formula 1).doubled.groups.length ≤ 2 ^ 40 ∧
      Serves ([4294967295, 0, 715827883, 7] : List UInt32)
        ((StandardDie.d6.formula 1).doubled.sizes .normal) [0, 715827883] [7] ∧
      ∃ r log, ((StandardDie.d6.formula 1).doubled.roll .normal 3).run
          (⟨[4294967295, 0, 715827883, 7]⟩ : Sampler (List UInt32)) = ⟨.ok r, log, ⟨[7]⟩⟩ ∧
        r.dice.map Die.face = [(6, 1), (6, 2)] := by
  have hf : (StandardDie.d6.formula 1).doubled.Available := .doubled (.tray .d6 1)
  have hlength : (StandardDie.d6.formula 1).doubled.groups.length ≤ 2 ^ 40 := by decide
  have hlast : Uniform.face? 6 4294967295 = none := by decide
  have hleast : Uniform.face? 6 0 = some 1 := by decide
  have hsecond : Uniform.face? 6 715827883 = some 2 := by decide
  have hserves : Serves ([4294967295, 0, 715827883, 7] : List UInt32)
      ((StandardDie.d6.formula 1).doubled.sizes .normal) [0, 715827883] [7] :=
    .reject rfl hlast (.accept rfl hleast (.accept rfl hsecond (.nil _)))
  obtain ⟨r, log, hrun, hfaces, -⟩ := (roll_sampled hf hlength .normal 3
    ([4294967295, 0, 715827883, 7] : List UInt32)).2 _ _ hserves
  exact ⟨hf, hlength, hserves, r, log, hrun, hfaces⟩

end Dicebag
