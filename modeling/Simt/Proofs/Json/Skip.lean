-- Passing over a value stops right after it. The text of a value takes the machine from the phase
-- where a value has to follow to the phase where one is complete, with the brackets that were open
-- before. This holds of every value whose end can be told, so of a value within values as well.
import Simt.Proofs.Json.Codec
import Simt.Proofs.Json.Grammar

namespace Simt.Json

variable {phase phase' : Phase} {stack stack' : List Bracket} {bracket : Bracket} {part : Part}
  {c : Char} {s r rest : List Char}

/-! ## One character -/

theorem skip_go (h : step phase stack c r = go phase' stack') :
    skip phase stack (c :: r) = skip phase' stack' r := by
  rw [skip, h]
  rfl

theorem isBlank_iff : isBlank c = true ↔ c = ' ' ∨ c = '\n' ∨ c = '\t' ∨ c = '\r' := by
  simp [isBlank, or_assoc]

/-- Phases between two tokens. -/
inductive Idle : Phase → List Bracket → Prop
  | value (stack : List Bracket) : Idle .value stack
  | listStart (stack : List Bracket) : Idle .listStart stack
  | objectStart (stack : List Bracket) : Idle .objectStart stack
  | name (stack : List Bracket) : Idle .name stack
  | colon (stack : List Bracket) : Idle .colon stack
  | complete (bracket : Bracket) (stack : List Bracket) : Idle .complete (bracket :: stack)

theorem Idle.step_blank (h : Idle phase stack) (hc : isBlank c = true) :
    step phase stack c r = go phase stack := by
  cases h <;> rcases isBlank_iff.mp hc with rfl | rfl | rfl | rfl <;> rfl

theorem Idle.skip_blanks (h : Idle phase stack) (hs : Blanks s) :
    skip phase stack (s ++ rest) = skip phase stack rest := by
  induction s with
  | nil => rfl
  | cons c s ih =>
    rw [List.cons_append, skip_go (h.step_blank (hs c List.mem_cons_self))]
    exact ih fun d hd => hs d (List.mem_cons_of_mem c hd)

/-! ## Numbers -/

/-- Phases in which a number may have come to its end. -/
inductive MayEnd : Phase → Prop
  | zero : MayEnd .zero
  | whole : MayEnd .whole
  | fraction : MayEnd .fraction
  | exponent : MayEnd .exponent

theorem MayEnd.skip_apart (h : MayEnd phase) (hrest : Apart rest) :
    skip phase stack rest = skip .complete stack rest := by
  cases rest with
  | nil => cases h <;> rfl
  | cons c r =>
    obtain ⟨hdigit, hpoint, he, hE⟩ := hrest c rfl
    have hstep : step phase stack c r = step .complete stack c r := by
      cases h <;> simp [step, pointStep, exponentStep, hdigit, hpoint, he, hE]
    rw [skip, skip, hstep]

/-- A phase that digits do not end. -/
theorem skip_digits (hphase : ∀ c r, c.isDigit = true → step phase stack c r = go phase stack)
    (hs : ∀ c ∈ s, c.isDigit = true) : skip phase stack (s ++ rest) = skip phase stack rest := by
  induction s with
  | nil => rfl
  | cons c s ih =>
    rw [List.cons_append, skip_go (hphase c _ (hs c List.mem_cons_self))]
    exact ih fun d hd => hs d (List.mem_cons_of_mem c hd)

theorem step_whole (hc : c.isDigit = true) : step .whole stack c r = go .whole stack := by
  simp [step, hc]

theorem step_fraction (hc : c.isDigit = true) : step .fraction stack c r = go .fraction stack := by
  simp [step, hc]

theorem step_exponent (hc : c.isDigit = true) : step .exponent stack c r = go .exponent stack := by
  simp [step, hc]

/-- A digit that is not zero begins a whole part. -/
theorem valueStep_digit (hc : c.isDigit = true) (hzero : c ≠ '0') :
    valueStep phase stack c = go .whole stack := by
  have hblank : isBlank c = false := (opens_of_isDigit hc).1
  unfold valueStep
  rw [if_neg (by simp [hblank])]
  split <;> simp_all

/-- The whole part of a number, where a number or its minus sign was before. -/
theorem WholePart.skip (h : WholePart s) (hphase : phase = .value ∨ phase = .minus)
    (stack : List Bracket) :
    ∃ ended, (ended = .zero ∨ ended = .whole) ∧
      ∀ rest, Json.skip phase stack (s ++ rest) = Json.skip ended stack rest := by
  cases h with
  | zero =>
    refine ⟨.zero, .inl rfl, fun rest => skip_go ?_⟩
    rcases hphase with rfl | rfl <;> rfl
  | @digits c ds hc hzero hds =>
    refine ⟨.whole, .inr rfl, fun rest => ?_⟩
    have hfirst : step phase stack c (ds ++ rest) = go .whole stack := by
      rcases hphase with rfl | rfl
      · exact valueStep_digit hc hzero
      · simp [step, digitStep, hzero, hc]
    rw [List.cons_append, skip_go hfirst]
    exact skip_digits (fun _ _ => step_whole) hds

theorem FractionPart.skip (h : FractionPart s) (hphase : phase = .zero ∨ phase = .whole)
    (stack : List Bracket) :
    ∃ ended, (ended = .zero ∨ ended = .whole ∨ ended = .fraction) ∧
      ∀ rest, Json.skip phase stack (s ++ rest) = Json.skip ended stack rest := by
  cases h with
  | none => exact ⟨phase, hphase.imp_right .inl, fun _ => rfl⟩
  | @point ds hds =>
    obtain ⟨hne, hall⟩ := hds
    obtain ⟨d, ds, rfl⟩ := List.exists_cons_of_ne_nil hne
    refine ⟨.fraction, by simp, fun rest => ?_⟩
    have hpoint : step phase stack '.' (d :: (ds ++ rest)) = go .point stack := by
      rcases hphase with rfl | rfl <;> rfl
    have hfirst : step .point stack d (ds ++ rest) = go .fraction stack := by
      simp [step, digitStep, hall d List.mem_cons_self]
    rw [List.cons_append, List.cons_append, skip_go hpoint, skip_go hfirst]
    exact skip_digits (fun _ _ => step_fraction) fun e he => hall e (List.mem_cons_of_mem d he)

theorem ExponentPart.skip (h : ExponentPart s)
    (hphase : phase = .zero ∨ phase = .whole ∨ phase = .fraction) (stack : List Bracket) :
    ∃ ended, MayEnd ended ∧
      ∀ rest, Json.skip phase stack (s ++ rest) = Json.skip ended stack rest := by
  cases h with
  | none =>
    refine ⟨phase, ?_, fun _ => rfl⟩
    rcases hphase with rfl | rfl | rfl
    · exact .zero
    · exact .whole
    · exact .fraction
  | @mark e sign ds he hsign hds =>
    obtain ⟨hne, hall⟩ := hds
    obtain ⟨d, ds, rfl⟩ := List.exists_cons_of_ne_nil hne
    refine ⟨.exponent, .exponent, fun rest => ?_⟩
    have hd : d.isDigit = true := hall d List.mem_cons_self
    have hmark : step phase stack e (sign ++ d :: (ds ++ rest)) = go .exponentMark stack := by
      rcases hphase with rfl | rfl | rfl <;> rcases he with rfl | rfl <;> rfl
    have hfirst : Json.skip .exponentMark stack (sign ++ d :: (ds ++ rest)) =
        Json.skip .exponent stack (ds ++ rest) := by
      have hplain : d ≠ '+' ∧ d ≠ '-' := by
        constructor <;> (rintro rfl; simp at hd)
      rcases hsign with rfl | rfl | rfl
      · exact skip_go (by simp [step, digitStep, hd, hplain])
      · exact (skip_go rfl).trans (skip_go (by simp [step, digitStep, hd]))
      · exact (skip_go rfl).trans (skip_go (by simp [step, digitStep, hd]))
    simp only [List.cons_append, List.append_assoc]
    rw [skip_go hmark, hfirst]
    exact skip_digits (fun _ _ => step_exponent) fun e he => hall e (List.mem_cons_of_mem d he)

theorem NumberText.skip (h : NumberText s) (hrest : Apart rest) :
    Json.skip .value stack (s ++ rest) = Json.skip .complete stack rest := by
  obtain ⟨hsign, hwhole, hfraction, hexponent⟩ := h
  rename_i sign whole fraction exponent
  obtain ⟨p, hp, hsign⟩ : ∃ phase, (phase = .value ∨ phase = .minus) ∧
      ∀ rest, Json.skip .value stack (sign ++ rest) = Json.skip phase stack rest := by
    rcases hsign with rfl | rfl
    · exact ⟨.value, .inl rfl, fun _ => rfl⟩
    · exact ⟨.minus, .inr rfl, fun _ => skip_go rfl⟩
  obtain ⟨q, hq, hwhole⟩ := hwhole.skip hp stack
  obtain ⟨t, ht, hfraction⟩ := hfraction.skip hq stack
  obtain ⟨u, hu, hexponent⟩ := hexponent.skip ht stack
  rw [List.append_assoc, List.append_assoc, List.append_assoc, hsign, hwhole, hfraction, hexponent,
    hu.skip_apart hrest]

/-! ## Strings -/

theorem codeUnit_of_unitText {u : List Char} {n : Nat} (h : UnitText u n) :
    codeUnit (u ++ rest) = .ok n := by
  obtain ⟨ha, hb, hc, hd⟩ := h
  rename_i a b c d _ _ _ _
  have hbytes := fun e : Char => e.utf8Size_pos
  have hlong := And.intro (hbytes a) (And.intro (hbytes b) (And.intro (hbytes c) (hbytes d)))
  rw [codeUnit, if_neg]
  · simp [ha, hb, hc, hd]
  · simp only [List.cons_append, List.nil_append, List.take_succ_cons, List.take_zero,
      List.foldl_cons, List.foldl_nil]
    omega

/-- A string is passed over up to its closing quote. -/
theorem StringText.skip (h : StringText s) (key : Bool) :
    Json.skip (.text key) stack (s ++ '"' :: rest) =
      Json.skip (if key then .colon else .complete) stack rest := by
  induction h with
  | nil => exact skip_go rfl
  | @plain c s hc hs ih =>
    obtain ⟨hquote, hslash, hcontrol⟩ := hc
    have hself : step (.text key) stack c (s ++ '"' :: rest) = go (.text key) stack := by
      simp [step, hquote, hslash, hcontrol]
    rw [List.cons_append, skip_go hself, ih]
  | @letter c d s hc hs ih =>
    have hu : c ≠ 'u' := by
      rintro rfl
      cases hc
    have hescape : step (.escape key) stack c (s ++ '"' :: rest) = go (.text key) stack := by
      simp [step, hu, hc]
    rw [List.cons_append, skip_go rfl, List.cons_append, skip_go hescape, ih]
  | @unit u s n hu hs ih =>
    have hunit : step (.escape key) stack 'u' (u ++ (s ++ '"' :: rest)) = go (.digits 4 key) stack := by
      simp [step, codeUnit_of_unitText hu]
    obtain ⟨_, _, _, _⟩ := hu
    simp only [List.cons_append, List.append_assoc] at hunit ⊢
    rw [skip_go rfl, skip_go hunit, skip_go rfl, skip_go rfl, skip_go rfl, skip_go rfl]
    exact ih

/-! ## Items -/

/-- The phase after the opening bracket. -/
def Bracket.start : Bracket → Phase
  | list => .listStart
  | object => .objectStart

/-- The phase after a comma. -/
def Bracket.next : Bracket → Phase
  | list => .value
  | object => .name

/-- Phases in which an item may follow. -/
def Bracket.Awaits (bracket : Bracket) (phase : Phase) : Prop :=
  phase = bracket.start ∨ phase = bracket.next

theorem Bracket.Awaits.idle (h : bracket.Awaits phase) (stack : List Bracket) :
    Idle phase stack := by
  cases bracket <;> rcases h with rfl | rfl <;> constructor

theorem step_opening (bracket : Bracket) :
    step .value stack bracket.opening r = go bracket.start (bracket :: stack) := by
  cases bracket <;> rfl

theorem step_closing_start (bracket : Bracket) :
    step bracket.start (bracket :: stack) bracket.closing r = go .complete stack := by
  cases bracket <;> rfl

theorem step_closing (bracket : Bracket) :
    step .complete (bracket :: stack) bracket.closing r = go .complete stack := by
  cases bracket <;> rfl

theorem step_comma (bracket : Bracket) :
    step .complete (bracket :: stack) ',' r = go bracket.next (bracket :: stack) := by
  cases bracket <;> rfl

theorem apart_closing (bracket : Bracket) (rest : List Char) : Apart (bracket.closing :: rest) := by
  cases bracket <;> exact apart_cons rest (by decide)

theorem apart_comma (rest : List Char) : Apart (',' :: rest) :=
  apart_cons rest (by decide)

theorem apart_blanks (hs : Blanks s) (hrest : Apart rest) : Apart (s ++ rest) := by
  cases s with
  | nil => exact hrest
  | cons c s =>
    rcases isBlank_iff.mp (hs c List.mem_cons_self) with rfl | rfl | rfl | rfl <;>
      exact apart_cons _ (by decide)

/-! ## Values -/

theorem NumberText.opens (h : NumberText s) : ∃ c r, s = c :: r ∧ Opens c := by
  obtain ⟨hsign, hwhole, _, _⟩ := h
  rcases hsign with rfl | rfl
  · cases hwhole with
    | zero => exact ⟨'0', _, rfl, rfl, by decide⟩
    | digits hc _ _ => exact ⟨_, _, rfl, opens_of_isDigit hc⟩
  · exact ⟨'-', _, rfl, rfl, by decide⟩

theorem IsText.opens (h : IsText .value s) : ∃ c r, s = c :: r ∧ Opens c := by
  have hopening : ∀ bracket : Bracket, Opens bracket.opening := by
    intro bracket
    cases bracket <;> exact ⟨rfl, by decide⟩
  cases h with
  | word h =>
    simp only [words, List.mem_cons, List.not_mem_nil, or_false] at h
    rcases h with rfl | rfl | rfl <;> exact ⟨_, _, rfl, rfl, by decide⟩
  | number h => exact h.opens
  | string h => exact ⟨'"', _, rfl, rfl, by decide⟩
  | empty h => exact ⟨_, _, rfl, hopening _⟩
  | filled h => exact ⟨_, _, rfl, hopening _⟩

/-- At the first item of a list, a value that opens is no closing bracket. -/
theorem skip_listStart (h : Opens c) :
    skip .listStart stack (c :: r) = skip .value stack (c :: r) := by
  obtain ⟨hblank, hclose⟩ := h
  have hstep : step .listStart stack c r = step .value stack c r := by
    simp only [step, if_neg hclose, valueStep, hblank]
    rfl
  rw [skip, skip, hstep]

/-- What becomes of the machine on a part of a text: after a value or an item something is
complete, and after all items, with their closing bracket, the value that they are in. -/
def Passed : Part → List Char → Prop
  | .value, s => ∀ stack rest, Apart rest →
      skip .value stack (s ++ rest) = skip .complete stack rest
  | .item bracket, s => ∀ phase stack rest, bracket.Awaits phase → Apart rest →
      skip phase (bracket :: stack) (s ++ rest) = skip .complete (bracket :: stack) rest
  | .items bracket, s => ∀ phase stack rest, bracket.Awaits phase →
      skip phase (bracket :: stack) (s ++ bracket.closing :: rest) = skip .complete stack rest

theorem IsText.passed (h : IsText part s) : Passed part s := by
  -- along the grammar, one case for each way to put a part together
  induction h with
  | word h =>
    intro stack rest _
    simp only [words, List.mem_cons, List.not_mem_nil, or_false] at h
    rcases h with rfl | rfl | rfl <;> rfl
  | number h => exact fun stack rest hrest => h.skip hrest
  | @string s h =>
    intro stack rest _
    simp only [List.cons_append, List.append_assoc, List.nil_append]
    exact (skip_go rfl).trans (h.skip false)
  | @empty bracket s h =>
    intro stack rest _
    have hidle : Idle bracket.start (bracket :: stack) := Bracket.Awaits.idle (.inl rfl) _
    simp only [List.cons_append, List.append_assoc, List.nil_append]
    rw [skip_go (step_opening bracket), hidle.skip_blanks h, skip_go (step_closing_start bracket)]
  | @filled bracket s h ih =>
    intro stack rest _
    simp only [List.cons_append, List.append_assoc, List.nil_append]
    rw [skip_go (step_opening bracket), ih bracket.start stack rest (.inl rfl)]
  | @element s h ih =>
    intro phase stack rest hphase hrest
    rcases hphase with rfl | rfl
    · obtain ⟨c, r, rfl, hopens⟩ := h.opens
      exact (skip_listStart hopens).trans (ih (.list :: stack) rest hrest)
    · exact ih (.list :: stack) rest hrest
  | @member name before after s hname hbefore hafter h ih =>
    intro phase stack rest hphase hrest
    have hquote : ∀ r, step phase (.object :: stack) '"' r = go (.text true) (.object :: stack) := by
      intro r
      rcases hphase with rfl | rfl <;> rfl
    simp only [List.cons_append, List.append_assoc]
    rw [skip_go (hquote _), hname.skip true, if_pos rfl, (Idle.colon _).skip_blanks hbefore,
      skip_go rfl, (Idle.value _).skip_blanks hafter, ih (.object :: stack) rest hrest]
  | @last bracket before s after hbefore h hafter ih =>
    intro phase stack rest hphase
    have hrest : Apart (after ++ bracket.closing :: rest) :=
      apart_blanks hafter (apart_closing bracket rest)
    rw [List.append_assoc, List.append_assoc, (hphase.idle _).skip_blanks hbefore,
      ih phase stack _ hphase hrest, (Idle.complete bracket stack).skip_blanks hafter,
      skip_go (step_closing bracket)]
  | @more bracket before s after more hbefore h hafter hmore ih ih' =>
    intro phase stack rest hphase
    have hrest : Apart (after ++ ',' :: (more ++ bracket.closing :: rest)) :=
      apart_blanks hafter (apart_comma _)
    simp only [List.append_assoc, List.cons_append]
    rw [(hphase.idle _).skip_blanks hbefore, ih phase stack _ hphase hrest,
      (Idle.complete bracket stack).skip_blanks hafter, skip_go (step_comma bracket),
      ih' bracket.next stack rest (.inr rfl)]

/-- A value that nobody wants is passed over to its end, and not further. -/
theorem skipValue_isText {before : List Char} (hbefore : Blanks before) (h : IsText .value s)
    (hrest : Apart rest) :
    skipValue (before ++ (s ++ rest)) = .ok rest := by
  rw [skipValue, (Idle.value []).skip_blanks hbefore, h.passed [] rest hrest]
  cases rest <;> rfl

end Simt.Json
