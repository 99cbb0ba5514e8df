-- The grammar of JSON, as texts that are put together from smaller texts. Blanks may stand between
-- any two tokens. Two kinds of strings are told apart: one that has to stand for characters, where
-- surrogates come in pairs, and one that nobody decodes, where any four digits will do.
import Simt.Json.Skip

namespace Simt.Json

/-- Blanks between two tokens, any number of them. -/
def Blanks (s : List Char) : Prop := ∀ c ∈ s, isBlank c = true

instance : DecidablePred Blanks := fun s => decidable_of_iff (s.all isBlank = true) List.all_eq_true

/-! ## Numbers -/

/-- Digits, and at least one of them. -/
def Digits (s : List Char) : Prop := s ≠ [] ∧ ∀ c ∈ s, c.isDigit = true

/-- Only a lone zero begins with a zero. -/
inductive WholePart : List Char → Prop
  | zero : WholePart ['0']
  | digits {c : Char} {ds : List Char} (hc : c.isDigit = true) (hzero : c ≠ '0')
      (hds : ∀ d ∈ ds, d.isDigit = true) : WholePart (c :: ds)

inductive FractionPart : List Char → Prop
  | none : FractionPart []
  | point {ds : List Char} (hds : Digits ds) : FractionPart ('.' :: ds)

inductive ExponentPart : List Char → Prop
  | none : ExponentPart []
  | mark {e : Char} {sign ds : List Char} (he : e = 'e' ∨ e = 'E')
      (hsign : sign = [] ∨ sign = ['+'] ∨ sign = ['-']) (hds : Digits ds) :
      ExponentPart (e :: sign ++ ds)

inductive NumberText : List Char → Prop
  | mk {sign whole fraction exponent : List Char} (hsign : sign = [] ∨ sign = ['-'])
      (hwhole : WholePart whole) (hfraction : FractionPart fraction)
      (hexponent : ExponentPart exponent) : NumberText (sign ++ whole ++ fraction ++ exponent)

/-! ## Strings -/

/-- Four hexadecimal digits, and the number they make. -/
inductive UnitText : List Char → Nat → Prop
  | mk {a b c d : Char} {w x y z : Nat} (ha : hexValue a = some w) (hb : hexValue b = some x)
      (hc : hexValue c = some y) (hd : hexValue d = some z) :
      UnitText [a, b, c, d] (((w * 16 + x) * 16 + y) * 16 + z)

/-- A character that stands for itself in a string. -/
def Plain (c : Char) : Prop := c ≠ '"' ∧ c ≠ '\\' ∧ isControl c = false

instance : DecidablePred Plain := fun c =>
  inferInstanceAs (Decidable (c ≠ '"' ∧ c ≠ '\\' ∧ isControl c = false))

/-- What may stand between the quotes of a string that nobody decodes. -/
inductive StringText : List Char → Prop
  | nil : StringText []
  | plain {c : Char} {s : List Char} (hc : Plain c) (hs : StringText s) : StringText (c :: s)
  | letter {c d : Char} {s : List Char} (hc : letterEscape c = some d) (hs : StringText s) :
      StringText ('\\' :: c :: s)
  | unit {u s : List Char} {n : Nat} (hu : UnitText u n) (hs : StringText s) :
      StringText ('\\' :: 'u' :: u ++ s)

/-- What stands between the quotes of a string, and the characters it spells. -/
inductive Spells : List Char → List Char → Prop
  | nil : Spells [] []
  | plain {c : Char} {s cs : List Char} (hc : Plain c) (hs : Spells s cs) :
      Spells (c :: s) (c :: cs)
  | letter {c d : Char} {s cs : List Char} (hc : letterEscape c = some d) (hs : Spells s cs) :
      Spells ('\\' :: c :: s) (d :: cs)
  | unit {u s cs : List Char} {n : Nat} (hu : UnitText u n) (hlead : isLeading n = false)
      (htrail : isTrailing n = false) (hs : Spells s cs) :
      Spells ('\\' :: 'u' :: u ++ s) (Char.ofNat n :: cs)
  | pair {u v s cs : List Char} {lead trail : Nat} (hu : UnitText u lead) (hv : UnitText v trail)
      (hlead : isLeading lead = true) (htrail : isTrailing trail = true) (hs : Spells s cs) :
      Spells ('\\' :: 'u' :: u ++ '\\' :: 'u' :: v ++ s) (ofPair lead trail :: cs)

theorem spells_self {cs : List Char} (h : cs.all (Plain ·) = true) : Spells cs cs := by
  induction cs with
  | nil => exact .nil
  | cons c cs ih =>
    rw [List.all_cons, Bool.and_eq_true, decide_eq_true_eq] at h
    exact .plain h.1 (ih h.2)

/-! ## Values -/

def Bracket.opening : Bracket → Char
  | list => '['
  | object => '{'

def Bracket.closing : Bracket → Char
  | list => ']'
  | object => '}'

/-- The parts of a JSON text: a value, one item between the brackets of a list or an object, and
all of the items with the blanks and commas around them. -/
inductive Part where
  | value
  | item (bracket : Bracket)
  | items (bracket : Bracket)

def words : List (List Char) :=
  [['t', 'r', 'u', 'e'], ['f', 'a', 'l', 's', 'e'], ['n', 'u', 'l', 'l']]

/-- The text is such a part. -/
inductive IsText : Part → List Char → Prop
  | word {s : List Char} (h : s ∈ words) : IsText .value s
  | number {s : List Char} (h : NumberText s) : IsText .value s
  | string {s : List Char} (h : StringText s) : IsText .value ('"' :: s ++ ['"'])
  | empty {bracket : Bracket} {s : List Char} (h : Blanks s) :
      IsText .value (bracket.opening :: s ++ [bracket.closing])
  | filled {bracket : Bracket} {s : List Char} (h : IsText (.items bracket) s) :
      IsText .value (bracket.opening :: s ++ [bracket.closing])
  | element {s : List Char} (h : IsText .value s) : IsText (.item .list) s
  | member {name before after s : List Char} (hname : StringText name) (hbefore : Blanks before)
      (hafter : Blanks after) (h : IsText .value s) :
      IsText (.item .object) ('"' :: name ++ '"' :: before ++ ':' :: after ++ s)
  | last {bracket : Bracket} {before s after : List Char} (hbefore : Blanks before)
      (h : IsText (.item bracket) s) (hafter : Blanks after) :
      IsText (.items bracket) (before ++ s ++ after)
  | more {bracket : Bracket} {before s after rest : List Char} (hbefore : Blanks before)
      (h : IsText (.item bracket) s) (hafter : Blanks after) (hmore : IsText (.items bracket) rest) :
      IsText (.items bracket) (before ++ s ++ after ++ ',' :: rest)

end Simt.Json
