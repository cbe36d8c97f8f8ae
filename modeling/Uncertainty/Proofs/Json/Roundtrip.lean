import Mathlib.Data.List.DropRight
import Uncertainty.Proofs.Json.Tokens

namespace Uncertainty.Json

inductive Printable : Json → Prop
  | null : Printable null
  | bool (b : Bool) : Printable (bool b)
  | number {literal : String} : IsNumeral literal → Printable (number literal)
  | string (text : String) : Printable (string text)
  | array {items : List Json} : (∀ item ∈ items, Printable item) → Printable (array items)
  | object {members : List (String × Json)} : (∀ member ∈ members, Printable member.2) → Printable (object members)

section Blanks

variable {blanks cs : List Char}

lemma skipBlank_append (h : ∀ c ∈ blanks, isBlank c = true) : skipBlank (blanks ++ cs) = skipBlank cs :=
  List.dropWhile_append_of_pos h

lemma valueRest?_blanks (h : ∀ c ∈ blanks, isBlank c = true) (fuel : Nat) :
    valueRest? fuel (blanks ++ cs) = valueRest? fuel cs := by
  cases fuel with
  | zero => rfl
  | succ fuel => rw [valueRest?, valueRest?, skipBlank_append h]

lemma itemsRest?_skipBlank (fuel : Nat) (done : List Json) :
    itemsRest? fuel done (skipBlank cs) = itemsRest? fuel done cs := by
  cases fuel with
  | zero => rfl
  | succ fuel =>
    have hvalue : valueRest? fuel (skipBlank cs) = valueRest? fuel cs := by
      cases fuel with
      | zero => rfl
      | succ fuel =>
        have hskip : skipBlank (skipBlank cs) = skipBlank cs := List.dropWhile_idempotent _ _
        rw [valueRest?, valueRest?, hskip]
    rw [itemsRest?, itemsRest?, hvalue]

lemma toList_lineBreak (depth : Nat) : (lineBreak depth).toList = '\n' :: List.replicate (2 * depth) ' ' := by
  simp [lineBreak]

lemma isBlank_lineBreak (depth : Nat) : ∀ c ∈ (lineBreak depth).toList, isBlank c = true := by
  rw [toList_lineBreak]
  intro c hc
  rcases List.mem_cons.mp hc with rfl | hc
  · rfl
  · rw [List.eq_of_mem_replicate hc]
    rfl

lemma ends_lineBreak (depth : Nat) (cs : List Char) : Ends ((lineBreak depth).toList ++ cs) := by
  rw [toList_lineBreak]
  rintro _ ⟨⟩
  decide

lemma ends_comma (cs : List Char) : Ends (',' :: cs) := by
  rintro _ ⟨⟩
  decide

end Blanks

/-- The text is read as the value, with fuel enough for its length, wherever no number goes on after it. -/
def Reads (text : List Char) (j : Json) : Prop :=
  ∀ fuel rest, text.length ≤ fuel → Ends rest → valueRest? fuel (text ++ rest) = some (j, rest)

section Leaves

lemma reads_null : Reads "null".toList null := by
  intro fuel rest hf _
  cases fuel with
  | zero => cases hf
  | succ fuel => rfl

lemma reads_bool (b : Bool) : Reads (if b then "true" else "false").toList (bool b) := by
  intro fuel rest hf _
  cases b <;> cases fuel with
  | zero => cases hf
  | succ fuel => rfl

lemma reads_string (text : String) : Reads (quote text).toList (string text) := by
  intro fuel rest hf _
  rw [toList_quote] at hf ⊢
  cases fuel with
  | zero => cases hf
  | succ fuel =>
    rw [List.cons_append, List.append_assoc]
    exact stringRest_quote text

lemma reads_number {literal : String} (h : IsNumeral literal) : Reads literal.toList (number literal) := by
  obtain ⟨c, cs, hcs, hc⟩ := h.head
  intro fuel rest hf hrest
  rw [← h.reads rest hrest]
  rw [hcs] at hf ⊢
  cases fuel with
  | zero => cases hf
  | succ fuel =>
    have hne (d : Char) (hd : isDigit d = false) (hd' : d ≠ '-') : c ≠ d := by
      rintro rfl
      rcases hc with hc | rfl
      · rw [hd] at hc
        cases hc
      · exact hd' rfl
    have hblank : isBlank c = false := by
      simp [isBlank, hne ' ' rfl (by decide), hne '\n' rfl (by decide), hne '\t' rfl (by decide),
        hne '\r' rfl (by decide)]
    have hskip : skipBlank (c :: cs ++ rest) = c :: cs ++ rest := List.dropWhile_cons_of_neg (by simp [hblank])
    rw [valueRest?, hskip]
    split
    · exact absurd (List.cons.inj ‹_›).1 (hne _ rfl (by decide))
    · exact absurd (List.cons.inj ‹_›).1 (hne _ rfl (by decide))
    · exact absurd (List.cons.inj ‹_›).1 (hne _ rfl (by decide))
    · exact absurd (List.cons.inj ‹_›).1 (hne _ rfl (by decide))
    · exact absurd (List.cons.inj ‹_›).1 (hne _ rfl (by decide))
    · exact absurd (List.cons.inj ‹_›).1 (hne _ rfl (by decide))
    · rfl

end Leaves

section Lists

variable {depth : Nat} {blanks rest : List Char}

def itemsText (depth : Nat) (items : List Json) : List Char :=
  (("," ++ lineBreak depth).intercalate (prettyItems depth items)).toList

def membersText (depth : Nat) (members : List (String × Json)) : List Char :=
  (("," ++ lineBreak depth).intercalate (prettyMembers depth members)).toList

lemma itemsText_singleton (item : Json) : itemsText depth [item] = (item.pretty depth).toList := by
  rw [itemsText, prettyItems, prettyItems, String.intercalate_singleton]

lemma itemsText_cons_cons (item item' : Json) (items : List Json) : itemsText depth (item :: item' :: items) =
    (item.pretty depth).toList ++ ',' :: ((lineBreak depth).toList ++ itemsText depth (item' :: items)) := by
  rw [itemsText, prettyItems, prettyItems, String.intercalate_cons_cons, String.toList_append, String.toList_append,
    String.toList_append, List.append_assoc, List.append_assoc, itemsText, prettyItems]
  rfl

lemma itemsRest?_text {items : List Json} (hitems : ∀ item ∈ items, Reads (item.pretty depth).toList item)
    (hne : items ≠ []) (hblanks : ∀ c ∈ blanks, isBlank c = true) (outer : Nat) (done : List Json) (fuel : Nat)
    (hf : (itemsText depth items).length < fuel) :
    itemsRest? fuel done (blanks ++ (itemsText depth items ++ ((lineBreak outer).toList ++ ']' :: rest))) =
      some (array (done.reverse ++ items), rest) := by
  -- Each item uses one of the fuel, and its text has one character at least.
  induction items generalizing done fuel blanks with
  | nil => exact absurd rfl hne
  | cons item items ih =>
    rw [List.forall_mem_cons] at hitems
    cases fuel with
    | zero => cases hf
    | succ fuel =>
      rw [itemsRest?, valueRest?_blanks hblanks]
      cases items with
      | nil =>
        rw [itemsText_singleton] at hf ⊢
        rw [hitems.1 fuel _ (Nat.le_of_lt_succ hf) (ends_lineBreak _ _)]
        dsimp only
        rw [skipBlank_append (isBlank_lineBreak outer)]
        change some (array (item :: done).reverse, rest) = _
        rw [List.reverse_cons]
      | cons item' items =>
        rw [itemsText_cons_cons, List.length_append, List.length_cons, List.length_append] at hf
        rw [itemsText_cons_cons, List.append_assoc, List.cons_append, List.append_assoc,
          hitems.1 fuel _ (by omega) (ends_comma _)]
        have hrest := ih hitems.2 (List.cons_ne_nil _ _) (isBlank_lineBreak depth) (item :: done) fuel (by omega)
        rw [List.reverse_cons, List.append_assoc] at hrest
        exact hrest

lemma membersText_singleton (name : String) (value : Json) : membersText depth [(name, value)] =
    '"' :: (name.toList.flatMap escape ++ '"' :: ':' :: ' ' :: (value.pretty depth).toList) := by
  rw [membersText, prettyMembers, prettyMembers, String.intercalate_singleton, String.toList_append,
    String.toList_append, toList_quote]
  simp

lemma membersText_cons_cons (name : String) (value : Json) (member : String × Json) (members : List (String × Json)) :
    membersText depth ((name, value) :: member :: members) =
      '"' :: (name.toList.flatMap escape ++ '"' :: ':' :: ' ' :: ((value.pretty depth).toList ++
        ',' :: ((lineBreak depth).toList ++ membersText depth (member :: members)))) := by
  obtain ⟨name', value'⟩ := member
  rw [membersText, prettyMembers, prettyMembers, String.intercalate_cons_cons, String.toList_append,
    String.toList_append, String.toList_append, String.toList_append, String.toList_append, toList_quote, membersText,
    prettyMembers]
  simp

lemma membersRest?_step {name : String} {value : Json} {text : List Char} (hvalue : Reads text value)
    (hblanks : ∀ c ∈ blanks, isBlank c = true) (done : List (Json × Json)) {fuel : Nat} (hf : text.length ≤ fuel)
    (hrest : Ends rest) :
    membersRest? (fuel + 1) done
        (blanks ++ '"' :: (name.toList.flatMap escape ++ '"' :: ':' :: ' ' :: (text ++ rest))) =
      match skipBlank rest with
      | ',' :: rest => membersRest? fuel ((string name, value) :: done) rest
      | '\x7d' :: rest => some (ofMembers ((string name, value) :: done).reverse, rest)
      | _ => none := by
  have hquote (cs : List Char) : skipBlank ('"' :: cs) = '"' :: cs := rfl
  have hcolon (cs : List Char) : skipBlank (':' :: cs) = ':' :: cs := rfl
  have hspace : valueRest? fuel (' ' :: (text ++ rest)) = some (value, rest) := by
    rw [← hvalue fuel rest hf hrest]
    exact valueRest?_blanks (List.forall_mem_singleton.mpr rfl : ∀ c ∈ [' '], isBlank c = true) fuel
  simp only [membersRest?, skipBlank_append hblanks, hquote, stringRest_quote, hcolon]
  generalize valueRest? fuel (' ' :: (text ++ rest)) = value? at hspace ⊢
  subst hspace
  rfl

lemma membersRest?_text {members : List (String × Json)}
    (hmembers : ∀ member ∈ members, Reads (member.2.pretty depth).toList member.2) (hne : members ≠ [])
    (hblanks : ∀ c ∈ blanks, isBlank c = true) (outer : Nat) (done : List (Json × Json)) (fuel : Nat)
    (hf : (membersText depth members).length < fuel) :
    membersRest? fuel done (blanks ++ (membersText depth members ++ ((lineBreak outer).toList ++ '\x7d' :: rest))) =
      some (ofMembers (done.reverse ++ members.map fun member => (string member.1, member.2)), rest) := by
  induction members generalizing done fuel blanks with
  | nil => exact absurd rfl hne
  | cons member members ih =>
    obtain ⟨name, value⟩ := member
    rw [List.forall_mem_cons] at hmembers
    have hvalue : Reads (value.pretty depth).toList value := hmembers.1
    cases fuel with
    | zero => cases hf
    | succ fuel =>
      cases members with
      | nil =>
        rw [membersText_singleton] at hf ⊢
        simp only [List.length_cons, List.length_append] at hf
        simp only [List.cons_append, List.append_assoc]
        rw [membersRest?_step hvalue hblanks done (by omega) (ends_lineBreak _ _),
          skipBlank_append (isBlank_lineBreak outer)]
        change some (ofMembers ((string name, value) :: done).reverse, rest) = _
        rw [List.reverse_cons, List.map_singleton]
      | cons member members =>
        rw [membersText_cons_cons] at hf ⊢
        simp only [List.length_cons, List.length_append] at hf
        simp only [List.cons_append, List.append_assoc]
        rw [membersRest?_step hvalue hblanks done (by omega) (ends_comma _)]
        have hrest := ih hmembers.2 (List.cons_ne_nil _ _) (isBlank_lineBreak depth) ((string name, value) :: done) fuel
          (by omega)
        rw [List.reverse_cons, List.append_assoc] at hrest
        exact hrest

lemma ofMembers_strings (members : List (String × Json)) :
    ofMembers (members.map fun member => (string member.1, member.2)) = object members := by
  have hnames (f : Json × Json → Option (String × Json))
      (hf : ∀ name value, f (string name, value) = some (name, value)) :
      (members.map fun member => (string member.1, member.2)).mapM f = some members := by
    induction members with
    | nil => rfl
    | cons member members ih =>
      rw [List.map_cons, List.mapM_cons, ih, hf]
      rfl
  rw [ofMembers, hnames _ fun _ _ => rfl]

end Lists

section Values

variable {depth : Nat}

lemma valueRest?_array (fuel : Nat) (cs : List Char) : valueRest? (fuel + 1) ('[' :: cs) =
    match skipBlank cs with
    | ']' :: rest => some (array [], rest)
    | rest => itemsRest? fuel [] rest := rfl

lemma valueRest?_object (fuel : Nat) (cs : List Char) : valueRest? (fuel + 1) ('\x7b' :: cs) =
    match skipBlank cs with
    | '\x7d' :: rest => some (object [], rest)
    | rest => membersRest? fuel [] rest := rfl

lemma reads_array {items : List Json} (hitems : ∀ item ∈ items, Reads (item.pretty (depth + 1)).toList item) :
    Reads ((array items).pretty depth).toList (array items) := by
  intro fuel rest hf _
  cases items with
  | nil =>
    rw [pretty] at hf ⊢
    cases fuel with
    | zero => cases hf
    | succ fuel => rfl
  | cons item items =>
    have htext : ((array (item :: items)).pretty depth).toList = '[' :: ((lineBreak (depth + 1)).toList ++
        (itemsText (depth + 1) (item :: items) ++ ((lineBreak depth).toList ++ [']']))) := by
      simp [pretty, itemsText]
    rw [htext] at hf ⊢
    cases fuel with
    | zero => cases hf
    | succ fuel =>
      simp only [List.length_cons, List.length_append] at hf
      have hread : itemsRest? fuel [] ((lineBreak (depth + 1)).toList ++ (itemsText (depth + 1) (item :: items) ++
          ((lineBreak depth).toList ++ ']' :: rest))) = some (array (item :: items), rest) :=
        itemsRest?_text hitems (List.cons_ne_nil _ _) (isBlank_lineBreak (depth + 1)) depth [] fuel (by omega)
      simp only [List.cons_append, List.append_assoc, List.nil_append]
      rw [valueRest?_array]
      split
      · -- No value starts with a bracket that closes, so there would be no first item.
        rename_i cs hclose
        rw [← itemsRest?_skipBlank, hclose] at hread
        cases fuel with
        | zero => cases hread
        | succ fuel =>
          have hnone : valueRest? fuel (']' :: cs) = none := by
            cases fuel <;> rfl
          rw [itemsRest?, hnone] at hread
          cases hread
      · rw [itemsRest?_skipBlank]
        exact hread

lemma toList_membersText (depth : Nat) (member : String × Json) (members : List (String × Json)) :
    ∃ cs, membersText depth (member :: members) = '"' :: cs := by
  obtain ⟨name, value⟩ := member
  cases members with
  | nil => exact ⟨_, membersText_singleton name value⟩
  | cons member members => exact ⟨_, membersText_cons_cons name value member members⟩

lemma reads_object {members : List (String × Json)}
    (hmembers : ∀ member ∈ members, Reads (member.2.pretty (depth + 1)).toList member.2) :
    Reads ((object members).pretty depth).toList (object members) := by
  intro fuel rest hf _
  cases members with
  | nil =>
    rw [pretty] at hf ⊢
    cases fuel with
    | zero => cases hf
    | succ fuel => rfl
  | cons member members =>
    have htext : ((object (member :: members)).pretty depth).toList = '\x7b' :: ((lineBreak (depth + 1)).toList ++
        (membersText (depth + 1) (member :: members) ++ ((lineBreak depth).toList ++ ['\x7d']))) := by
      simp [pretty, membersText]
    rw [htext] at hf ⊢
    cases fuel with
    | zero => cases hf
    | succ fuel =>
      simp only [List.length_cons, List.length_append] at hf
      have hread : membersRest? fuel [] (membersText (depth + 1) (member :: members) ++
          ((lineBreak depth).toList ++ '\x7d' :: rest)) = some (object (member :: members), rest) := by
        rw [← ofMembers_strings]
        exact membersRest?_text hmembers (List.cons_ne_nil _ _) (List.forall_mem_nil _) depth [] fuel (by omega)
      obtain ⟨cs, hcs⟩ := toList_membersText (depth + 1) member members
      have hskip : skipBlank ((lineBreak (depth + 1)).toList ++
          ('"' :: cs ++ ((lineBreak depth).toList ++ '\x7d' :: rest))) =
            '"' :: cs ++ ((lineBreak depth).toList ++ '\x7d' :: rest) :=
        skipBlank_append (isBlank_lineBreak _)
      rw [hcs] at hread ⊢
      simp only [List.cons_append, List.append_assoc, List.nil_append] at hskip hread ⊢
      rw [valueRest?_object, hskip]
      exact hread

lemma reads_pretty {j : Json} (h : j.Printable) (depth : Nat) : Reads (j.pretty depth).toList j := by
  induction h generalizing depth with
  | null =>
    rw [pretty]
    exact reads_null
  | bool b =>
    rw [pretty]
    exact reads_bool b
  | number h =>
    rw [pretty]
    exact reads_number h
  | string text =>
    rw [pretty]
    exact reads_string text
  | array _ ih => exact reads_array fun item hitem => ih item hitem (depth + 1)
  | object _ ih => exact reads_object fun member hmember => ih member hmember (depth + 1)

lemma parse?_pretty {j : Json} (h : j.Printable) : parse? (j.pretty 0) = some j := by
  have hread := reads_pretty h 0 ((j.pretty 0).toList.length + 1) [] (Nat.le_succ _) nofun
  rw [List.append_nil] at hread
  rw [parse?, hread]
  rfl

end Values

end Uncertainty.Json
