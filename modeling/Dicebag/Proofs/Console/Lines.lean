import Dicebag.Console.Lines

/-!
# Lines of text

Input is cut into lines before anything is known of its encoding.  This module says what that does
to input that is text: `textLines` cuts the text itself, at its line feeds, and `linesOf_bytesOf`
says that the lines of its bytes are the bytes of its lines, so that every one of them is text again.
All of it rests on one property of UTF-8, `eq_singleton_or_le`: a byte below 128 stands for the
character of that number and is never a part of another.

What stands behind a line feed has no influence on the lines before it, whether it is text or not
(`linesOf_append`).
-/

set_option autoImplicit false

namespace Dicebag
namespace Console

/-! ## Bytes of text -/

/-- The bytes of characters. -/
def encode (cs : List Char) : List UInt8 := cs.flatMap String.utf8EncodeChar

/-- The bytes of a text. -/
def bytesOf (text : String) : List UInt8 := text.toUTF8.data.toList

theorem encode_append (cs ds : List Char) : encode (cs ++ ds) = encode cs ++ encode ds :=
  List.flatMap_append

theorem encode_singleton (c : Char) : encode [c] = String.utf8EncodeChar c := List.flatMap_singleton _ _

theorem toByteArray_encode (cs : List Char) : (encode cs).toByteArray = cs.utf8Encode := rfl

theorem bytesOf_eq (text : String) : bytesOf text = encode text.toList := by
  show text.toByteArray.data.toList = _
  rw [← String.utf8Encode_toList, ← toByteArray_encode, List.toList_data_toByteArray]

theorem decode_encode (cs : List Char) : decode (encode cs) = some (String.ofList cs) := by
  have hbytes : (⟨(encode cs).toArray⟩ : ByteArray) = cs.utf8Encode := by
    rw [← toByteArray_encode, ← List.data_toByteArray]
  rw [decode, hbytes]
  exact dif_pos ByteArray.isValidUTF8_utf8Encode

/-! ## Bytes of a character -/

theorem le_toNat_or (x : UInt8) {y : UInt8} (h : 128 ≤ y.toNat) : 128 ≤ (x ||| y).toNat := by
  rw [UInt8.toNat_or]
  exact Nat.le_trans h Nat.right_le_or

/-- A character is a single byte, which is its number, or all of its bytes are 128 or more. -/
theorem eq_singleton_or_le (c : Char) :
    (String.utf8EncodeChar c = [c.val.toUInt8] ∧ c.val.toNat < 128) ∨
      ∀ b ∈ String.utf8EncodeChar c, 128 ≤ b.toNat := by
  have hsize : c.utf8Size = 1 ∨ c.utf8Size = 2 ∨ c.utf8Size = 3 ∨ c.utf8Size = 4 := by
    have hleast := c.utf8Size_pos
    have hmost := c.utf8Size_le_four
    omega
  -- a byte behind the first has its highest bit set, and so has a first byte with others behind it
  have htail : ∀ x : UInt8, 128 ≤ (x ||| 0x80).toNat := fun x => le_toNat_or x (by decide)
  rcases hsize with h | h | h | h
  · have hval := Char.utf8Size_eq_one_iff.1 h
    rw [UInt32.le_iff_toNat_le] at hval
    exact .inl ⟨String.utf8EncodeChar_eq_singleton h, Nat.lt_succ_of_le hval⟩
  · have hfirst : ∀ x : UInt8, 128 ≤ (x ||| 0xc0).toNat := fun x => le_toNat_or x (by decide)
    rw [String.utf8EncodeChar_eq_cons_cons h]
    simp only [List.forall_mem_cons, hfirst, htail, true_and]
    exact .inr (List.forall_mem_nil _)
  · have hfirst : ∀ x : UInt8, 128 ≤ (x ||| 0xe0).toNat := fun x => le_toNat_or x (by decide)
    rw [String.utf8EncodeChar_eq_cons_cons_cons h]
    simp only [List.forall_mem_cons, hfirst, htail, true_and]
    exact .inr (List.forall_mem_nil _)
  · have hfirst : ∀ x : UInt8, 128 ≤ (x ||| 0xf0).toNat := fun x => le_toNat_or x (by decide)
    rw [String.utf8EncodeChar_eq_cons_cons_cons_cons h]
    simp only [List.forall_mem_cons, hfirst, htail, true_and]
    exact .inr (List.forall_mem_nil _)

/-- **A byte below 128 is in no other character than that of its number.** -/
theorem eq_of_mem_encode {c d : Char} (hd : d.val.toNat < 128)
    (h : d.val.toUInt8 ∈ String.utf8EncodeChar c) : c = d := by
  have htoNat : d.val.toUInt8.toNat = d.val.toNat := by
    rw [UInt32.toNat_toUInt8]
    omega
  rcases eq_singleton_or_le c with ⟨hc, hlt⟩ | hc
  · rw [hc, List.mem_singleton] at h
    have hval := congrArg UInt8.toNat h
    rw [UInt32.toNat_toUInt8, UInt32.toNat_toUInt8] at hval
    refine Char.ext (UInt32.toNat.inj ?_)
    omega
  · have hle := hc _ h
    omega

theorem lineFeed_not_mem {c : Char} (h : c ≠ '\n') : lineFeed ∉ String.utf8EncodeChar c :=
  fun hmem => h (eq_of_mem_encode (d := '\n') (by decide) hmem)

theorem carriageReturn_not_mem {c : Char} (h : c ≠ '\r') :
    carriageReturn ∉ String.utf8EncodeChar c :=
  fun hmem => h (eq_of_mem_encode (d := '\r') (by decide) hmem)

/-! ## Lines -/

/-- The characters of a line whose end was found, given in reverse. -/
def endedText (reversed : List Char) : List Char :=
  match reversed with
  | [] => []
  | c :: rest => if c = '\r' then rest.reverse else reversed.reverse

/-- Cuts characters into lines; `reversed` are the characters of the line under way, the last one
first. -/
def cutTextFrom (reversed : List Char) : List Char → List (List Char)
  | [] => if reversed.isEmpty then [] else [reversed.reverse]
  | c :: rest =>
    if c = '\n' then endedText reversed :: cutTextFrom [] rest else cutTextFrom (c :: reversed) rest

/-- The lines of a text.  A line ends at a line feed, which is not part of it, nor is one carriage
return before it; the last line may end with the text instead. -/
def textLines (text : String) : List String := (cutTextFrom [] text.toList).map String.ofList

example : textLines "4d6kh3\r\n\nr" = ["4d6kh3", "", "r"] := by decide

theorem encode_reverse_cons (c : Char) (cs : List Char) :
    encode (c :: cs).reverse = encode cs.reverse ++ String.utf8EncodeChar c := by
  rw [List.reverse_cons, encode_append, encode_singleton]

theorem ended_encode (reversed : List Char) :
    ended (encode reversed.reverse).reverse = encode (endedText reversed) := by
  cases reversed with
  | nil => rfl
  | cons c rest =>
    rw [encode_reverse_cons, List.reverse_append, endedText]
    by_cases hc : c = '\r'
    · subst hc
      have hbytes : (String.utf8EncodeChar '\r').reverse = [carriageReturn] := by decide
      rw [hbytes, if_pos rfl, List.singleton_append, ended, if_pos rfl, List.reverse_reverse]
    · obtain ⟨b, bs, hbytes⟩ := List.exists_cons_of_ne_nil
        (List.reverse_ne_nil_iff.2 (String.utf8EncodeChar_ne_nil (c := c)))
      have hb : b ≠ carriageReturn := by
        rintro rfl
        refine carriageReturn_not_mem hc (List.mem_reverse.1 ?_)
        rw [hbytes]
        exact List.mem_cons_self
      rw [if_neg hc, encode_reverse_cons, hbytes, List.cons_append, ended, if_neg hb,
        ← List.cons_append, ← hbytes, ← List.reverse_append, List.reverse_reverse]

/-- Bytes without a line feed belong to the line under way. -/
theorem cutFrom_append {bs : List UInt8} (h : lineFeed ∉ bs) (reversed rest : List UInt8) :
    cutFrom reversed (bs ++ rest) = cutFrom (bs.reverse ++ reversed) rest := by
  induction bs generalizing reversed with
  | nil => rfl
  | cons b bs ih =>
    rw [List.mem_cons, not_or] at h
    rw [List.cons_append, cutFrom, if_neg (Ne.symm h.1), ih h.2, List.reverse_cons,
      List.append_assoc, List.singleton_append]

theorem cutFrom_encode (reversed cs : List Char) :
    cutFrom (encode reversed.reverse).reverse (encode cs) =
      (cutTextFrom reversed cs).map encode := by
  induction cs generalizing reversed with
  | nil =>
    cases reversed with
    | nil => rfl
    | cons c rest =>
      have hne : (encode (c :: rest).reverse).reverse.isEmpty = false := by
        rw [encode_reverse_cons, List.reverse_append]
        simp
      show (if _ then _ else _) = _
      rw [hne]
      simp [cutTextFrom]
  | cons c cs ih =>
    rw [← List.singleton_append, encode_append, encode_singleton, List.singleton_append]
    by_cases hc : c = '\n'
    · subst hc
      have hbytes : String.utf8EncodeChar '\n' = [lineFeed] := by decide
      have hrest := ih []
      rw [hbytes, List.singleton_append, cutFrom, if_pos rfl, cutTextFrom, if_pos rfl, List.map_cons,
        ended_encode, ← hrest]
      rfl
    · have hrest := ih (c :: reversed)
      rw [encode_reverse_cons, List.reverse_append] at hrest
      rw [cutFrom_append (lineFeed_not_mem hc), hrest, cutTextFrom, if_neg hc]

/-- **The lines of the bytes of a text are the lines of the text.** -/
theorem linesOf_bytesOf (text : String) : linesOf (bytesOf text) = (textLines text).map some := by
  have hcut : cutFrom [] (encode text.toList) = _ := cutFrom_encode [] text.toList
  rw [linesOf, bytesOf_eq, hcut, textLines, List.map_map, List.map_map]
  exact List.map_congr_left fun cs _ => decode_encode cs

/-! ## What stands behind a line feed -/

theorem cutFrom_lineFeed (reversed before later : List UInt8) :
    cutFrom reversed (before ++ lineFeed :: later) =
      cutFrom reversed (before ++ [lineFeed]) ++ cutFrom [] later := by
  induction before generalizing reversed with
  | nil => simp [cutFrom]
  | cons b before ih =>
    rw [List.cons_append, List.cons_append, cutFrom, cutFrom]
    split
    · rw [ih, List.cons_append]
    · exact ih (b :: reversed)

/-- **A line feed divides input into what can be read on its own.** -/
theorem linesOf_append (before later : List UInt8) :
    linesOf (before ++ lineFeed :: later) = linesOf (before ++ [lineFeed]) ++ linesOf later := by
  rw [linesOf, cutFrom_lineFeed, List.map_append]
  rfl

end Console
end Dicebag
