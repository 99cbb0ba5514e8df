-- A record is read from any object that has its members, in any order, however their names are
-- spelled and wherever blanks stand. A member of another name is passed over, whatever it holds.
-- So what a record is made of is told by a list of names with the texts of their values.
import Simt.Proofs.Json.Record
import Simt.Proofs.Json.Skip

namespace Simt.Json

variable {α β : Type} {taken s r rest before after cs : List Char} {c d : Char}

/-! ## Strings -/

theorem escape_letter (h : letterEscape c = some d) : escape (c :: r) = .ok (d, 1) := by
  have hu : c ≠ 'u' := by
    rintro rfl
    cases h
  unfold escape
  split <;> simp_all

theorem escape_unit {u : List Char} {n : Nat} (h : UnitText u n) (hlead : isLeading n = false)
    (htrail : isTrailing n = false) : escape ('u' :: (u ++ r)) = .ok (Char.ofNat n, 5) := by
  simp [escape, codeUnit_of_unitText h, hlead, htrail, bind, Except.bind]

theorem length_of_unitText {u : List Char} {n : Nat} (h : UnitText u n) : u.length = 4 := by
  cases h
  rfl

theorem escape_pair {u v : List Char} {lead trail : Nat} (hu : UnitText u lead)
    (hv : UnitText v trail) (hlead : isLeading lead = true) (htrail : isTrailing trail = true) :
    escape ('u' :: (u ++ '\\' :: 'u' :: (v ++ r))) = .ok (ofPair lead trail, 11) := by
  have hnot : isTrailing lead = false := by
    simp only [isLeading, isTrailing, Bool.and_eq_true, Bool.and_eq_false_iff, decide_eq_true_eq,
      decide_eq_false_iff_not] at hlead ⊢
    omega
  have hdrop : (u ++ '\\' :: 'u' :: (v ++ r)).drop 4 = '\\' :: 'u' :: (v ++ r) :=
    List.drop_left' (length_of_unitText hu)
  simp [escape, codeUnit_of_unitText hu, codeUnit_of_unitText hv, hdrop, hlead, hnot, htrail, bind,
    Except.bind]

/-- A string is read as the characters that it spells. -/
theorem Spells.read (h : Spells s cs) :
    readText taken (s ++ '"' :: rest) = .ok (taken.reverse ++ cs, rest) := by
  induction h generalizing taken with
  | nil => rw [List.nil_append, readText, if_pos rfl, List.append_nil]
  | @plain c s cs hc hs ih =>
    obtain ⟨hquote, hslash, hcontrol⟩ := hc
    rw [List.cons_append, readText_plain hquote hslash hcontrol, ih, List.reverse_cons,
      List.append_assoc]
    rfl
  | @letter c d s cs hc hs ih =>
    rw [List.cons_append, List.cons_append, readText_escape (escape_letter hc), List.drop_one,
      List.tail_cons, ih, List.reverse_cons, List.append_assoc]
    rfl
  | @unit u s cs n hu hlead htrail hs ih =>
    have hdrop : ('u' :: (u ++ (s ++ '"' :: rest))).drop 5 = s ++ '"' :: rest :=
      @List.drop_left' _ ('u' :: u) _ 5 (by simp [length_of_unitText hu])
    simp only [List.cons_append, List.append_assoc]
    rw [readText_escape (escape_unit hu hlead htrail), hdrop, ih, List.reverse_cons,
      List.append_assoc]
    rfl
  | @pair u v s cs lead trail hu hv hlead htrail hs ih =>
    have hdrop : ('u' :: (u ++ '\\' :: 'u' :: (v ++ (s ++ '"' :: rest)))).drop 11 = s ++ '"' :: rest := by
      have hlength : ('u' :: (u ++ '\\' :: 'u' :: v)).length = 11 := by
        simp [length_of_unitText hu, length_of_unitText hv]
      simpa using @List.drop_left' _ _ (s ++ '"' :: rest) _ hlength
    simp only [List.cons_append, List.append_assoc]
    rw [readText_escape (escape_pair hu hv hlead htrail), hdrop, ih, List.reverse_cons,
      List.append_assoc]
    rfl

/-! ## Blanks before a token -/

theorem skipBlanks_append (h : Blanks before) : skipBlanks (before ++ s) = skipBlanks s :=
  List.dropWhile_append_of_pos h

theorem mark_blanks (h : Blanks before) (hc : isBlank c = false) :
    mark c (before ++ c :: r) = .ok r := by
  rw [mark, skipBlanks_append h, skipBlanks_cons hc]
  simp

/-- The reader takes the text for a value, with any blanks before it. -/
def Reader.Takes (reader : Reader α) (s : List Char) (a : α) : Prop :=
  ∀ before rest : List Char, Blanks before → Apart rest →
    reader.run (before ++ (s ++ rest)) = .ok (a, rest)

theorem u64_takes (n : UInt64) : Codec.u64.Takes (Numeral.chars 10 n.toNat) n := by
  intro before rest hbefore hrest
  have hread := Codec.u64_faithful.reads n hrest
  change readWhole _ (before ++ (Numeral.chars 10 n.toNat ++ rest)) = _
  rw [readWhole, skipBlanks_append hbefore]
  exact hread

theorem string_takes {text : String} (h : Spells s text.toList) :
    Codec.string.Takes ('"' :: s ++ ['"']) text := by
  intro before rest hbefore _
  have hread : readString (before ++ ('"' :: s ++ ['"'] ++ rest)) = .ok (text.toList, rest) := by
    rw [readString, skipBlanks_append hbefore]
    simp only [List.cons_append, List.append_assoc, List.nil_append]
    rw [skipBlanks_cons rfl]
    exact h.read
  simp only [Codec.string, hread, Except.map, String.ofList_toList]

/-! ## The text of an object -/

/-- One member with the blanks around it: its name, and the text of its value. -/
inductive MemberText : List Char × List Char → List Char → Prop
  | mk {lead name key before after value trail : List Char} (hlead : Blanks lead)
      (hname : Spells name key) (hbefore : Blanks before) (hafter : Blanks after)
      (htrail : Blanks trail) :
      MemberText (key, value)
        (lead ++ '"' :: name ++ '"' :: before ++ ':' :: after ++ value ++ trail)

inductive MembersText : List (List Char × List Char) → List Char → Prop
  | last {m : List Char × List Char} {s : List Char} (h : MemberText m s) : MembersText [m] s
  | more {m : List Char × List Char} {ms : List (List Char × List Char)} {s rest : List Char}
      (h : MemberText m s) (hmore : MembersText ms rest) : MembersText (m :: ms) (s ++ ',' :: rest)

/-- An object with these members, and with blanks before and after it. -/
inductive ObjectText : List (List Char × List Char) → List Char → Prop
  | empty {before inside after : List Char} (hbefore : Blanks before) (hinside : Blanks inside)
      (hafter : Blanks after) : ObjectText [] (before ++ '{' :: inside ++ '}' :: after)
  | filled {members : List (List Char × List Char)} {before inside after : List Char}
      (hbefore : Blanks before) (hinside : MembersText members inside) (hafter : Blanks after) :
      ObjectText members (before ++ '{' :: inside ++ '}' :: after)

namespace Record

variable {fields : List (Field α)} {field : Field α} {seen : List String} {record made : α}
  {first : Bool} {m : List Char × List Char} {members : List (List Char × List Char)}

/-! ## What the members make up -/

/-- Reading the members one by one takes a record to another one. A member either has the name of
a field that was not seen before, or its name is no field's and its value is any value. -/
inductive Fills (fields : List (Field α)) :
    List (List Char × List Char) → List String → α → α → Prop
  | ends {seen : List String} {record : α}
      (hall : ∀ field ∈ fields, field.required = true → field.name ∈ seen) :
      Fills fields [] seen record record
  | field {field : Field α} {value : List Char} {members : List (List Char × List Char)}
      {seen : List String} {record next made : α} (hmem : field ∈ fields)
      (hnew : field.name ∉ seen) (htakes : (field.read record).Takes value next)
      (hmore : Fills fields members (field.name :: seen) next made) :
      Fills fields ((field.name.toList, value) :: members) seen record made
  | other {key value : List Char} {members : List (List Char × List Char)} {seen : List String}
      {record made : α} (hkey : ∀ field ∈ fields, field.name.toList ≠ key)
      (hvalue : IsText .value value) (hmore : Fills fields members seen record made) :
      Fills fields ((key, value) :: members) seen record made

theorem optional_takes {codec : Codec β} {name : String} {get : α → β} {set : α → β → α} {b : β}
    (h : codec.Takes s b) :
    ((Field.ofOptional name codec get set).read record).Takes s (set record b) := by
  intro before rest hbefore hrest
  change (codec.run (before ++ (s ++ rest))).map _ = _
  rw [h before rest hbefore hrest]
  rfl

/-! ## Reading the members -/

/-- What stands before a member: nothing at the first one, and a comma after the others. -/
def Joint : (first : Bool) → List Char → Prop
  | true, s => s = []
  | false, s => ∃ before, Blanks before ∧ s = before ++ [',']

theorem nextMember_joint {joint : List Char} (hjoint : Joint first joint) (hbefore : Blanks before) :
    nextMember first (joint ++ (before ++ '"' :: s)) = .ok (some s) := by
  cases first with
  | true =>
    obtain rfl : joint = [] := hjoint
    rw [nextMember, List.nil_append, skipBlanks_append hbefore, skipBlanks_cons rfl]
    rfl
  | false =>
    obtain ⟨lead, hlead, rfl⟩ := hjoint
    rw [nextMember, List.append_assoc, skipBlanks_append hlead, List.cons_append,
      skipBlanks_cons rfl]
    simp [skipBlanks_append hbefore, skipBlanks_cons (c := '"') rfl]

theorem nextMember_end (first : Bool) (hbefore : Blanks before) :
    nextMember first (before ++ '}' :: rest) = .ok none := by
  rw [nextMember, skipBlanks_append hbefore, skipBlanks_cons rfl]
  rfl

theorem readMembers_end (first : Bool) (hbefore : Blanks before)
    (hall : ∀ field ∈ fields, field.required = true → field.name ∈ seen) :
    readMembers fields record seen first (before ++ '}' :: rest) = .ok (record, rest) := by
  have hrequired : (fields.all fun field => !field.required || seen.contains field.name) = true := by
    rw [List.all_eq_true]
    intro field hmem
    cases hr : field.required with
    | false => rfl
    | true => simpa using hall field hmem hr
  rw [readMembers]
  split <;> rename_i hn <;> rw [nextMember_end first hbefore] at hn <;> cases hn
  rw [if_pos hrequired, mark_blanks hbefore rfl]
  rfl

theorem readMember_field {value : List Char} (hnames : (fields.map (·.name)).Nodup)
    (hmem : field ∈ fields) (hnew : field.name ∉ seen)
    (htakes : (field.read record).Takes value made) (hbefore : Blanks before)
    (hafter : Blanks after) (hrest : Apart rest) :
    readMember fields record seen field.name.toList (before ++ ':' :: (after ++ (value ++ rest))) =
      .ok ((made, field.name :: seen), rest) := by
  have hmark := mark_blanks (c := ':') (r := after ++ (value ++ rest)) hbefore rfl
  simp [readMember, find?_name hnames hmem, hnew, hmark, htakes after rest hafter hrest, bind, Except.bind,
    pure, Except.pure]

theorem readMember_other {key value : List Char} (hkey : ∀ field ∈ fields, field.name.toList ≠ key)
    (hvalue : IsText .value value) (hbefore : Blanks before) (hafter : Blanks after)
    (hrest : Apart rest) :
    readMember fields record seen key (before ++ ':' :: (after ++ (value ++ rest))) =
      .ok ((record, seen), rest) := by
  have hnone : fields.find? (fun field => field.name.toList = key) = none := by
    simpa [List.find?_eq_none] using hkey
  have hmark := mark_blanks (c := ':') (r := after ++ (value ++ rest)) hbefore rfl
  simp [readMember, hnone, hmark, skipValue_isText hafter hvalue hrest, bind, Except.bind, pure,
    Except.pure]

/-- One member is read. What is left begins with the blanks after it. -/
theorem readMembers_memberText (hnames : (fields.map (·.name)).Nodup) (hm : MemberText m s)
    (hfills : Fills fields (m :: members) seen record made) {joint : List Char}
    (hjoint : Joint first joint) :
    ∃ next seen' trail, Fills fields members seen' next made ∧ Blanks trail ∧
      ∀ rest, Apart rest → readMembers fields record seen first (joint ++ (s ++ rest)) =
        readMembers fields next seen' false (trail ++ rest) := by
  obtain ⟨hlead, hname, hbefore, hafter, htrail⟩ := hm
  rename_i trail
  cases hfills with
  | field hmem hnew htakes hmore =>
    refine ⟨_, _, trail, hmore, htrail, fun rest hrest => ?_⟩
    simp only [List.append_assoc, List.cons_append]
    exact readMembers_member (nextMember_joint hjoint hlead) hname.read
      (readMember_field hnames hmem hnew htakes hbefore hafter (apart_blanks htrail hrest))
  | other hkey hvalue hmore =>
    refine ⟨_, _, trail, hmore, htrail, fun rest hrest => ?_⟩
    simp only [List.append_assoc, List.cons_append]
    exact readMembers_member (nextMember_joint hjoint hlead) hname.read
      (readMember_other hkey hvalue hbefore hafter (apart_blanks htrail hrest))

theorem readMembers_membersText (hnames : (fields.map (·.name)).Nodup)
    (hmembers : MembersText members s) (hfills : Fills fields members seen record made)
    {joint : List Char} (hjoint : Joint first joint) :
    readMembers fields record seen first (joint ++ (s ++ '}' :: rest)) = .ok (made, rest) := by
  induction hmembers generalizing seen record first joint with
  | last hm =>
    have hapart : Apart ('}' :: rest) := apart_closing .object rest
    obtain ⟨next, seen', trail, hmore, htrail, hread⟩ :=
      readMembers_memberText hnames hm hfills hjoint
    obtain ⟨hall⟩ := hmore
    rw [hread _ hapart, readMembers_end false htrail hall]
  | more hm _ ih =>
    obtain ⟨next, seen', trail, hmore, htrail, hread⟩ :=
      readMembers_memberText hnames hm hfills hjoint
    have hcomma : Joint false (trail ++ [',']) := ⟨trail, htrail, rfl⟩
    have hnext := ih hmore hcomma
    rw [List.append_assoc] at hnext
    rw [List.append_assoc, List.cons_append, hread _ (apart_comma _)]
    exact hnext

end Record

/-- A record is read from the members of an object, whatever their order and their blanks are. -/
theorem Codec.record_decode {blank made : α} {fields : List (Field α)} {text : String}
    {members : List (List Char × List Char)} (hnames : (fields.map (·.name)).Nodup)
    (htext : ObjectText members text.toList) (hfills : Record.Fills fields members [] blank made) :
    (Codec.record blank fields).decode text = .ok made := by
  have hparse : ∀ {before inside after : List Char}, Blanks before → Blanks after →
      Record.readMembers fields blank [] true (inside ++ '}' :: after) = .ok (made, after) →
      (Codec.record blank fields).parse (before ++ '{' :: inside ++ '}' :: after) = .ok made := by
    intro before inside after hbefore hafter hread
    have hrun : (Codec.record blank fields).run (before ++ '{' :: inside ++ '}' :: after) =
        .ok (made, after) := by
      change Record.read blank fields _ = _
      rw [Record.read, List.append_assoc, skipBlanks_append hbefore, List.cons_append,
        skipBlanks_cons rfl]
      exact hread
    have hend : skipBlanks after = [] := by
      rw [← List.append_nil after, skipBlanks_append hafter]
      rfl
    rw [Reader.parse, hrun]
    simp [hend]
  rw [decode]
  generalize text.toList = s at htext
  cases htext with
  | empty hbefore hinside hafter =>
    obtain ⟨hall⟩ := hfills
    exact hparse hbefore hafter (Record.readMembers_end true hinside hall)
  | filled hbefore hinside hafter =>
    have hfirst : Record.Joint true [] := rfl
    exact hparse hbefore hafter (Record.readMembers_membersText hnames hinside hfills hfirst)

end Simt.Json
