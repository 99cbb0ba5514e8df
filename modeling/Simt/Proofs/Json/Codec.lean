-- Codecs whose reader undoes their writer. The law of such a codec lets any text
-- stand after the value, as long as it does not go on with a number, because the
-- items of a list and the members of an object are read one after another. It is
-- shown of the single values, and it passes from a codec to lists of its values and
-- to types that are written as them.
import Simt.Json.Codec
import Simt.Proofs.Json.Number
import Simt.Proofs.Json.Text

namespace Simt.Json

open Numeral (chars digitChar signedChars)

/-- A character that a value may begin with, so that it is neither passed over as a blank
nor taken for the end of a list. -/
def Opens (c : Char) : Prop :=
  isBlank c = false ∧ c ≠ ']'

structure Codec.Faithful {α : Type} (codec : Codec α) : Prop where
  reads : ∀ (a : α) {rest : List Char}, Apart rest →
    codec.run (codec.write a ++ rest) = .ok (a, rest)
  opens : ∀ a : α, ∃ c r, codec.write a = c :: r ∧ Opens c

/-! ## Between values -/

variable {α β : Type} {c : Char} {r rest : List Char}

theorem skipBlanks_cons (hc : isBlank c = false) : skipBlanks (c :: r) = c :: r := by
  rw [skipBlanks, List.dropWhile_cons_of_neg (by simp [hc])]

theorem mark_cons (hc : isBlank c = false) : mark c (c :: r) = .ok r := by
  simp [mark, skipBlanks_cons hc]

theorem opens_of_isDigit (h : c.isDigit = true) : Opens c := by
  refine ⟨?_, by rintro rfl; simp at h⟩
  simp only [isBlank, Bool.or_eq_false_iff, beq_eq_false_iff_ne]
  refine ⟨⟨⟨?_, ?_⟩, ?_⟩, ?_⟩ <;> (rintro rfl; simp at h)

/-- The items of a list as they stand after its opening bracket, or after items before
them. -/
def joined : (first : Bool) → List (List Char) → List Char
  | _, [] => []
  | first, item :: items => (if first then [] else [',']) ++ item ++ joined false items

theorem intercalate_eq_joined (items : List (List Char)) :
    [','].intercalate items = joined true items := by
  cases items with
  | nil => rfl
  | cons item items =>
    rw [joined, if_pos rfl, List.nil_append]
    induction items generalizing item with
    | nil => simp [joined]
    | cons next items ih =>
      rw [List.intercalate_cons_cons, ih, joined, if_neg (by simp)]
      simp

theorem apart_joined {close : Char} {items : List (List Char)}
    (hclose : close = ']' ∨ close = '}') : Apart (joined false items ++ close :: rest) := by
  cases items with
  | nil => rcases hclose with rfl | rfl <;> exact apart_cons rest (by decide)
  | cons item items => exact apart_cons _ (by decide)

/-! ## Single values -/

namespace Codec

variable {codec item : Codec α}

theorem Faithful.decode_encode (h : codec.Faithful) (a : α) :
    codec.decode (codec.encode a) = .ok a := by
  have hread := h.reads a apart_nil
  rw [List.append_nil] at hread
  rw [decode, encode, String.toList_ofList, Reader.parse, hread]
  rfl

theorem readWhole_number {accept : Number → Option α} {n : Number} {a : α} {s : List Char}
    (hopens : ∃ c t, s = c :: t ∧ (c = '-' ∨ c.isDigit = true))
    (hread : readNumber s = .ok (n, rest)) (ha : accept n = some a) :
    readWhole accept s = .ok (a, rest) := by
  obtain ⟨c, t, rfl, hc⟩ := hopens
  have hblank : isBlank c = false := by
    rcases hc with rfl | hc
    · rfl
    · exact (opens_of_isDigit hc).1
  simp [readWhole, skipBlanks_cons hblank, hc, hread, ha]

/-- The text of a whole number begins with a digit or a minus sign. -/
theorem signedChars_eq_cons (i : Int) :
    ∃ c t, signedChars i = c :: t ∧ (c = '-' ∨ c.isDigit = true) := by
  rw [signedChars]
  split
  · exact ⟨'-', _, rfl, .inl rfl⟩
  · obtain ⟨c, t, he, hc⟩ := Numeral.chars_eq_cons i.natAbs
    exact ⟨c, t, he, .inr hc⟩

theorem u32_faithful : u32.Faithful where
  reads n rest hrest := by
    obtain ⟨c, t, he, hc⟩ := Numeral.chars_eq_cons n.toNat
    have hfit : n.toNat < UInt64.size := Nat.lt_trans n.toNat_lt (by decide)
    refine readWhole_number ⟨c, t ++ rest, by simp [u32, he], .inr hc⟩
      (readNumber_chars hfit hrest) ?_
    simp [n.toNat_lt]
  opens n := by
    obtain ⟨c, t, he, hc⟩ := Numeral.chars_eq_cons n.toNat
    exact ⟨c, t, he, opens_of_isDigit hc⟩

theorem u64_faithful : u64.Faithful where
  reads n rest hrest := by
    obtain ⟨c, t, he, hc⟩ := Numeral.chars_eq_cons n.toNat
    refine readWhole_number ⟨c, t ++ rest, by simp [u64, he], .inr hc⟩
      (readNumber_chars n.toNat_lt hrest) ?_
    simp
  opens n := by
    obtain ⟨c, t, he, hc⟩ := Numeral.chars_eq_cons n.toNat
    exact ⟨c, t, he, opens_of_isDigit hc⟩

theorem i32_faithful : i32.Faithful where
  reads i rest hrest := by
    obtain ⟨c, t, he, hc⟩ := signedChars_eq_cons i.toInt
    have hlow := i.le_toInt
    have hhigh := i.toInt_lt
    have hfit : i.toInt.natAbs ≤ 1 <<< 63 := by simp only [Nat.reduceShiftLeft]; omega
    refine readWhole_number ⟨c, t ++ rest, by simp [i32, he], hc⟩
      (readNumber_signedChars hfit hrest) ?_
    rcases Int.lt_or_le i.toInt 0 with hneg | hpos
    · have hback : -(i.toInt.natAbs : Int) = i.toInt := by omega
      have hsmall : i.toInt.natAbs ≤ 1 <<< 31 := by simp only [Nat.reduceShiftLeft]; omega
      simp only [Number.ofInt, if_pos hneg, if_pos hsmall, hback, Int32.ofInt_toInt]
    · have hback : (i.toInt.natAbs : Int) = i.toInt := by omega
      have hsmall : i.toInt.natAbs < 1 <<< 31 := by simp only [Nat.reduceShiftLeft]; omega
      simp only [Number.ofInt, if_neg (Int.not_lt.mpr hpos), if_pos hsmall,
        ← Int32.ofInt_eq_ofNat, hback, Int32.ofInt_toInt]
  opens i := by
    obtain ⟨c, t, he, hc⟩ := signedChars_eq_cons i.toInt
    refine ⟨c, t, he, ?_⟩
    rcases hc with rfl | hc
    · exact ⟨rfl, by decide⟩
    · exact opens_of_isDigit hc

theorem bool_faithful : bool.Faithful where
  reads b rest _ := by cases b <;> rfl
  opens b := by cases b <;> exact ⟨_, _, rfl, rfl, by decide⟩

theorem string_faithful : string.Faithful where
  reads s rest _ := by
    obtain ⟨t, he, ht⟩ := readText_writeText (r := rest) s.toList
    have hread : readString (writeText s.toList ++ rest) = .ok (s.toList, rest) := by
      rw [he, readString, skipBlanks_cons rfl]
      exact ht
    simp [string, hread, Except.map]
  opens s := ⟨_, _, rfl, rfl, by decide⟩

/-! ## Choices -/

/-- A choice is read back where its name finds itself among the choices. -/
theorem choice_faithful {choices : List α} {label : α → String}
    (hfind : ∀ a, choices.find? (fun b => (label b).toList = (label a).toList) = some a) :
    (choice choices label).Faithful where
  reads a rest _ := by
    obtain ⟨t, he, ht⟩ := readText_writeText (r := rest) (label a).toList
    have hchosen : chosen choices label (label a).toList = .ok a := by rw [chosen, hfind]
    change readChoice choices label (writeText (label a).toList ++ rest) = _
    rw [he, readChoice, skipBlanks_cons rfl]
    simp [ht, hchosen, bind, Except.bind, pure, Except.pure]
  opens a := ⟨_, _, rfl, rfl, by decide⟩

/-! ## Types that are written as others -/

theorem Faithful.via {of : α → β} {back : β → α} (h : codec.Faithful)
    (hback : ∀ b, of (back b) = b) : (codec.via of back).Faithful where
  reads b rest hrest := by
    change (codec.run (codec.write (back b) ++ rest)).map _ = _
    rw [h.reads (back b) hrest]
    simp [Except.map, hback]
  opens b := h.opens (back b)

/-! ## Lists -/

theorem nextItem_close (first : Bool) : nextItem first (']' :: rest) = .ok none := by
  rw [nextItem, skipBlanks_cons rfl]
  rfl

/-- The text at an item of a list. -/
theorem nextItem_joined (h : item.Faithful) (first : Bool) (a : α) (s : List Char) :
    nextItem first ((if first then [] else [',']) ++ item.write a ++ s) =
      .ok (some (item.write a ++ s)) := by
  obtain ⟨c, r, he, hblank, hclose⟩ := h.opens a
  have hskip : skipBlanks (c :: (r ++ s)) = c :: (r ++ s) := skipBlanks_cons hblank
  cases first
  · simp [he, nextItem, skipBlanks_cons (c := ',') rfl, hskip, hclose]
  · simp [he, nextItem, hskip, hclose]

theorem readItems_close (taken : List α) (first : Bool) :
    readItems item.toReader taken first (']' :: rest) = .ok (taken.reverse, rest) := by
  rw [readItems]
  split <;> rename_i hn <;> rw [nextItem_close] at hn <;> cases hn
  rw [mark_cons rfl]
  rfl

theorem readItems_item {taken : List α} {first : Bool} {s t : List Char} {a : α}
    (hnext : nextItem first s = .ok (some t)) (hread : item.run t = .ok (a, r)) :
    readItems item.toReader taken first s = readItems item.toReader (a :: taken) false r := by
  rw [readItems]
  split <;> rename_i hn <;> rw [hnext] at hn <;> cases hn
  split <;> rename_i hr <;> rw [hread] at hr <;> cases hr
  rfl

theorem readItems_joined (h : item.Faithful) (as taken : List α) (first : Bool)
    (rest : List Char) :
    readItems item.toReader taken first (joined first (as.map item.write) ++ ']' :: rest) =
      .ok (taken.reverse ++ as, rest) := by
  induction as generalizing taken first with
  | nil => rw [List.append_nil]; exact readItems_close taken first
  | cons a as ih =>
    rw [List.map_cons, joined, List.append_assoc,
      readItems_item (nextItem_joined h first a _) (h.reads a (apart_joined (.inl rfl))), ih,
      List.reverse_cons, List.append_assoc]
    rfl

theorem list_faithful (h : item.Faithful) : (list item).Faithful where
  reads as rest _ := by
    have := readItems_joined h as [] true rest
    simpa [list, afterBracket, bracketed, intercalate_eq_joined, skipBlanks_cons, isBlank]
      using this
  opens as := ⟨_, _, rfl, rfl, by decide⟩

theorem readVector_item {n : Nat} {first : Bool} {s t : List Char} {a : α}
    (hnext : nextItem first s = .ok (some t)) (hread : item.run t = .ok (a, r)) :
    readVector item.toReader (n + 1) first s =
      (readVector item.toReader n false r).map fun p =>
        (⟨(a :: p.1.toList).toArray, by simp⟩, p.2) := by
  simp [readVector, hnext, hread]

theorem readVector_joined (h : item.Faithful) {n : Nat} (v : Vector α n) (first : Bool)
    (rest : List Char) :
    readVector item.toReader n first (joined first (v.toList.map item.write) ++ ']' :: rest) =
      .ok (v, rest) := by
  induction n generalizing first with
  | zero =>
    obtain rfl : v = #v[] := Vector.eq_empty
    change (mark ']' (']' :: rest)).map _ = _
    rw [mark_cons rfl]
    rfl
  | succ n ih =>
    obtain ⟨⟨as⟩, hlength⟩ := v
    cases as with
    | nil => simp at hlength
    | cons a as =>
      have hrest := ih ⟨⟨as⟩, by simpa using hlength⟩ false
      rw [Vector.toList_mk] at hrest ⊢
      rw [List.map_cons, joined, List.append_assoc,
        readVector_item (nextItem_joined h first a _) (h.reads a (apart_joined (.inl rfl))), hrest]
      rfl

theorem vector_faithful (n : Nat) (h : item.Faithful) : (vector n item).Faithful where
  reads v rest _ := by
    have := readVector_joined h v true rest
    simpa [vector, afterBracket, bracketed, intercalate_eq_joined, skipBlanks_cons, isBlank]
      using this
  opens v := ⟨_, _, rfl, rfl, by decide⟩

end Codec

end Simt.Json
