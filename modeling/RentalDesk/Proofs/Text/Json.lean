import RentalDesk.Proofs.Text.Digits
import RentalDesk.RowText

/-!
# JSON read back

The objects that rows are written as are read back, member by member. What is written in a member is
followed by a comma or by the closing brace, so the end of a number shows; and a member takes up
more characters than its reading takes steps.
-/

namespace RentalDesk.Json

open Text

/-! ## Blanks -/

theorem skipBlanks_cons {c : Char} (h : (c == ' ' || c == '\n' || c == '\t' || c == '\r') = false)
    (cs : List Char) : skipBlanks (c :: cs) = c :: cs :=
  List.dropWhile_cons_of_neg (Bool.not_eq_true _ ▸ h)

theorem skipBlanks_digit {c : Char} (hc : c.isDigit = true) (cs : List Char) :
    skipBlanks (c :: cs) = c :: cs := by
  have hne : ∀ d : Char, d.isDigit = false → c ≠ d := fun d hd h => by
    rw [h, hd] at hc
    cases hc
  refine skipBlanks_cons ?_ cs
  simp only [Bool.or_eq_false_iff, beq_eq_false_iff_ne]
  exact ⟨⟨⟨hne ' ' rfl, hne '\n' rfl⟩, hne '\t' rfl⟩, hne '\r' rfl⟩

/-! ## Strings -/

theorem hexValue?_hexDigit {n : Nat} (h : n < 16) : hexValue? (hexDigit n) = some n := by
  have hall : ∀ n < 16, hexValue? (hexDigit n) = some n := by decide
  exact hall n h

/-- Four hexadecimal digits of a control character are read back. -/
theorem readUnit?_control {n : Nat} (h : n < 0x20) (rest : List Char) :
    readUnit? ('0' :: '0' :: hexDigit (n / 16) :: hexDigit (n % 16) :: rest) = some (n, rest) := by
  have hzero : hexValue? '0' = some 0 := rfl
  simp only [readUnit?, hzero, hexValue?_hexDigit (show n / 16 < 16 by omega),
    hexValue?_hexDigit (show n % 16 < 16 by omega), Option.bind_eq_bind, Option.bind_some]
  exact congrArg (fun m => some (m, rest)) (by omega)

/-- A character is read back from what it is written as. -/
theorem readCharacters?_escape (c : Char) (steps : Nat) (rest : List Char) :
    readCharacters? (steps + 1) (escape c ++ rest) =
      (readCharacters? steps rest).map fun (text, rest) => (text.map (c :: ·), rest) := by
  rw [escape]
  iterate 7
    split
    · next h =>
        subst h
        cases h : readCharacters? steps rest <;> simp [readCharacters?, escaped?, h]
  split
  · next h =>
      have hhigh : isHighSurrogate c.toNat = false := by simp [isHighSurrogate]; omega
      have hlow : isLowSurrogate c.toNat = false := by simp [isLowSurrogate]; omega
      have hnone : ∀ unit? : Option (Nat × List Char), unit?.filter (fun _ => false) = none :=
        fun unit? => by cases unit? <;> rfl
      simp only [List.cons_append, List.nil_append, readCharacters?, readUnit?_control h,
        Option.bind_eq_bind, Option.bind_some, hhigh, hlow, Bool.false_and, Char.ofNat_toNat]
      split
      · next heq => split at heq <;> simp [hnone] at heq
      · cases readCharacters? steps rest <;> rfl
  · next hquote hback _ _ _ _ _ hplain =>
      rw [List.singleton_append, readCharacters?.eq_def]
      split
      · next h => cases h
      · next h => cases h
      · next h => exact absurd (List.cons.inj h).1 hquote
      · next h => exact absurd (List.cons.inj h).1 hback
      · next h => exact absurd (List.cons.inj h).1 hback
      · next h =>
          obtain ⟨rfl, rfl⟩ := List.cons.inj h
          obtain rfl := Nat.succ.inj ‹_›
          rw [if_neg (by simp [hplain, hback])]
          cases readCharacters? steps rest <;> rfl

theorem readCharacters?_flatMap (cs rest : List Char) {steps : Nat} (h : cs.length < steps) :
    readCharacters? steps (cs.flatMap escape ++ '"' :: rest) = some (some cs, rest) := by
  induction cs generalizing steps with
  | nil =>
      obtain ⟨steps, rfl⟩ := Nat.exists_eq_succ_of_ne_zero (Nat.ne_of_gt h)
      rfl
  | cons c cs ih =>
      obtain ⟨steps, rfl⟩ := Nat.exists_eq_succ_of_ne_zero (Nat.ne_of_gt (Nat.zero_lt_of_lt h))
      rw [List.flatMap_cons, List.append_assoc, readCharacters?_escape,
        ih (Nat.lt_of_succ_lt_succ h)]
      rfl

theorem length_escape_pos (c : Char) : 0 < (escape c).length := by
  rw [escape]
  repeat' split
  all_goals exact Nat.succ_pos _

theorem length_le_flatMap_escape (cs : List Char) : cs.length ≤ (cs.flatMap escape).length := by
  induction cs with
  | nil => exact Nat.le_refl _
  | cons c cs ih =>
      have hc := length_escape_pos c
      rw [List.flatMap_cons, List.length_append, List.length_cons]
      omega

/-- A string is read back, behind its opening quote. -/
theorem readString?_flatMap (s : String) (rest : List Char) :
    readString? (s.toList.flatMap escape ++ '"' :: rest) = some (some s, rest) := by
  have hsteps : s.toList.length < (s.toList.flatMap escape ++ '"' :: rest).length + 1 := by
    have hlength := length_le_flatMap_escape s.toList
    rw [List.length_append]
    omega
  simp only [readString?, readCharacters?_flatMap _ _ hsteps, Option.map_some,
    String.ofList_toList]

/-! ## Values -/

/-- What can follow the value of a member. -/
def Follows (rest : List Char) : Prop := ∃ more, rest = ',' :: more ∨ rest = '\x7d' :: more

/-- The text is read as the value, wherever it stands in an object. -/
def Reads (text : List Char) (value : Json) : Prop :=
  ∀ steps rest, Follows rest → readValue? (steps + 1) (text ++ rest) = some (value, rest)

theorem reads_writeString (s : String) : Reads (writeString s) (.string (some s)) := by
  intro steps rest _
  simp (disch := decide) only [writeString, List.cons_append, List.append_assoc, List.nil_append,
    readValue?, skipBlanks_cons, readString?_flatMap, Option.map_some]

theorem reads_writeBool (b : Bool) : Reads (writeBool b) (.bool b) := by
  intro steps rest _
  cases b <;> rfl

theorem reads_null : Reads "null".toList .null := fun _ _ _ => rfl

/-- The number that a word is written as. -/
def ofWord (n : UInt64) : JsonNumber := ⟨false, natDigits n.toNat, [], none⟩

theorem readNumber?_word (n : UInt64) {rest : List Char} (h : Follows rest) :
    readNumber? (natDigits n.toNat ++ rest) = some (ofWord n, rest) := by
  have hdigits : ∀ c ∈ natDigits n.toNat, c.isDigit = true := fun c => isDigit_of_mem_natDigits
  have hrest : Undigited rest := by
    obtain ⟨more, rfl | rfl⟩ := h <;> exact undigited_cons rfl more
  have hwhole : readWhole? (natDigits n.toNat ++ rest) = some (natDigits n.toNat, rest) := by
    rw [readWhole?, spanDigits, takeWhile_digits hdigits hrest, dropWhile_digits hdigits hrest]
    split
    · next h => exact absurd (Prod.mk.inj h).1 (natDigits_ne_nil _)
    · next h => cases head_natDigits (Prod.mk.inj h).1
    · next h => obtain ⟨rfl, rfl⟩ := Prod.mk.inj h; rfl
  have hfraction : readFraction? rest = some ([], rest) := by
    obtain ⟨more, rfl | rfl⟩ := h <;> rfl
  have hexponent : readExponent? rest = some (none, rest) := by
    obtain ⟨more, rfl | rfl⟩ := h <;> rfl
  cases hcs : natDigits n.toNat with
  | nil => exact absurd hcs (natDigits_ne_nil _)
  | cons c cs =>
      have hc : c.isDigit = true := hdigits c (hcs ▸ List.mem_cons_self)
      rw [hcs] at hwhole
      rw [readNumber?]
      · simp only [hwhole, hfraction, hexponent, Option.bind_eq_bind, Option.bind_some, ofWord, hcs]
        rfl
      · exact cons_ne_cons_of_isDigit hc rfl _

theorem reads_writeWord (n : UInt64) : Reads (writeWord n) (.number (ofWord n)) := by
  intro steps rest h
  have hread := readNumber?_word n h
  rw [writeWord]
  cases hcs : natDigits n.toNat with
  | nil => exact absurd hcs (natDigits_ne_nil _)
  | cons c cs =>
      have hmem : c ∈ natDigits n.toNat := hcs ▸ List.mem_cons_self
      have hc : c.isDigit = true := isDigit_of_mem_natDigits hmem
      have hne : ∀ d : Char, d.isDigit = false → ∀ more, c :: (cs ++ rest) ≠ d :: more :=
        fun d hd => cons_ne_cons_of_isDigit hc hd _
      rw [hcs, List.cons_append] at hread
      rw [List.cons_append, readValue?, skipBlanks_digit hc]
      split
      · next heq => cases heq
      · next heq => exact absurd heq (hne '"' rfl _)
      · next heq => exact absurd heq (hne '[' rfl _)
      · next heq => exact absurd heq (hne '\x7b' rfl _)
      · next heq => exact absurd heq (hne 'n' rfl _)
      · next heq => exact absurd heq (hne 't' rfl _)
      · next heq => exact absurd heq (hne 'f' rfl _)
      · rw [hread, Option.map_some]

/-! ## Objects -/

/-- A member of an object: its name, the text of its value, and the value. -/
abbrev Member := String × List Char × Json

/-- The members as they are written. -/
def texts (members : List Member) : List (String × List Char) :=
  members.map fun member => (member.1, member.2.1)

/-- The members as they are read. -/
def values (members : List Member) : List (Option String × Json) :=
  members.map fun member => (some member.1, member.2.2)

theorem readMembers?_last {text : List Char} {value : Json} (h : Reads text value) (name : String)
    (steps : Nat) (rest : List Char) :
    readMembers? (steps + 2) (writeString name ++ ':' :: text ++ '\x7d' :: rest) =
      some ([(some name, value)], rest) := by
  have hread := h steps ('\x7d' :: rest) ⟨rest, .inr rfl⟩
  simp (disch := decide) only [writeString, List.cons_append, List.append_assoc, List.nil_append,
    readMembers?, skipBlanks_cons, readString?_flatMap, Option.bind_eq_bind, Option.bind_some,
    hread]
  rfl

theorem readMembers?_more {text : List Char} {value : Json} (h : Reads text value) (name : String)
    (steps : Nat) (rest : List Char) :
    readMembers? (steps + 2) (writeString name ++ ':' :: text ++ ',' :: rest) =
      (readMembers? (steps + 1) rest).map fun (members, rest) =>
        ((some name, value) :: members, rest) := by
  have hread := h steps (',' :: rest) ⟨rest, .inl rfl⟩
  rw [readMembers?]
  simp (disch := decide) only [writeString, List.cons_append, List.append_assoc, List.nil_append,
    skipBlanks_cons, readString?_flatMap, Option.bind_eq_bind, Option.bind_some, hread]
  cases readMembers? (steps + 1) rest <;> rfl

/-- The members of an object are read back, one after another. -/
theorem readMembers?_texts {first : Member} {members : List Member}
    (h : ∀ member ∈ first :: members, Reads member.2.1 member.2.2) (rest : List Char) {steps : Nat}
    (hsteps : members.length + 1 < steps) :
    readMembers? steps (writeString first.1 ++ ':' :: first.2.1 ++ writeMore (texts members) ++
      '\x7d' :: rest) = some (values (first :: members), rest) := by
  obtain ⟨hfirst, hmore⟩ := List.forall_mem_cons.1 h
  induction members generalizing first steps with
  | nil =>
      obtain ⟨steps, rfl⟩ := Nat.exists_eq_add_of_le' hsteps
      rw [texts, List.map_nil, writeMore, List.append_nil]
      exact readMembers?_last hfirst first.1 steps rest
  | cons second members ih =>
      obtain ⟨steps, rfl⟩ : ∃ k, steps = k + 2 :=
        Nat.exists_eq_add_of_le' (Nat.le_trans (Nat.le_add_left ..) (Nat.le_of_lt hsteps))
      have hmembers := (List.forall_mem_cons.1 hmore).1
      have hrest := ih hmore (Nat.lt_of_succ_lt_succ hsteps) hmembers
        (List.forall_mem_cons.1 hmore).2
      have htexts : writeMore (texts (second :: members)) =
          ',' :: (writeString second.1 ++ ':' :: second.2.1 ++ writeMore (texts members)) := rfl
      rw [htexts, List.append_assoc, List.cons_append, readMembers?_more hfirst, hrest]
      rfl

theorem length_le_writeMore (members : List Member) :
    members.length ≤ (writeMore (texts members)).length := by
  induction members with
  | nil => exact Nat.le_refl _
  | cons member members ih =>
      have htexts : writeMore (texts (member :: members)) =
          ',' :: (writeString member.1 ++ ':' :: member.2.1 ++ writeMore (texts members)) := rfl
      rw [htexts, List.length_cons, List.length_cons, List.length_append]
      omega

/-- A value that starts with a brace and a quote is an object with members. -/
theorem readValue?_members {members : List (Option String × Json)} {cs rest : List Char}
    {steps : Nat} (h : readMembers? steps ('"' :: cs) = some (members, rest)) :
    readValue? (steps + 1) ('\x7b' :: '"' :: cs) = some (.object members, rest) := by
  simp (disch := decide) only [readValue?, skipBlanks_cons]
  split
  · next heq => cases (List.cons.inj heq).1
  · rw [h]
    rfl

/-- An object is read back from its text. -/
theorem read?_writeObject {members : List Member} (hne : members ≠ [])
    (h : ∀ member ∈ members, Reads member.2.1 member.2.2) :
    read? (writeObject (texts members)) = some (.object (values members)) := by
  obtain ⟨first, members, rfl⟩ := List.exists_cons_of_ne_nil hne
  have hobject : writeObject (texts (first :: members)) =
      '\x7b' :: (writeString first.1 ++ ':' :: first.2.1 ++ writeMore (texts members) ++
        ['\x7d']) := by
    simp [texts, writeObject]
  have hsteps : members.length + 1 < 2 * (writeObject (texts (first :: members))).length := by
    have hlength := length_le_writeMore members
    rw [hobject, List.length_cons, List.length_append, List.length_append]
    omega
  have hread := readMembers?_texts h [] hsteps
  rw [read?, hobject]
  rw [hobject] at hread
  simp only [writeString, List.cons_append] at hread ⊢
  rw [readValue?_members hread]
  rfl

/-! ## Fields -/

theorem find?_named {members : List Member} (h : (members.map (·.1)).Nodup) {member : Member}
    (hmember : member ∈ members) :
    (values members).find? (named member.1) = some (some member.1, member.2.2) := by
  induction members with
  | nil => cases hmember
  | cons first members ih =>
      rw [List.map_cons, List.nodup_cons] at h
      rcases List.mem_cons.1 hmember with rfl | hmember
      · simp [values, named]
      · have hne : first.1 ≠ member.1 := fun heq =>
          h.1 (heq ▸ List.mem_map_of_mem hmember)
        have hfirst : named member.1 (some first.1, first.2.2) = false := by simp [named, hne]
        rw [values, List.map_cons, List.find?_cons_of_neg (by simp [hfirst])]
        exact ih h.2 hmember

theorem length_filter_named {members : List Member} (h : (members.map (·.1)).Nodup)
    (name : String) : ((values members).filter (named name)).length ≤ 1 := by
  have hcount : ((values members).filter (named name)).length = (members.map (·.1)).count name := by
    rw [values, List.filter_map, List.length_map, List.count, List.countP_map,
      List.countP_eq_length_filter]
    rfl
  rw [hcount]
  exact List.nodup_iff_count.1 h name

/-- The fields of an object with the names that it has, in their order. -/
theorem fields?_object (members : List Member) (h : (members.map (·.1)).Nodup) :
    (Json.object (values members)).fields? (members.map (·.1)) =
      some (members.map fun member => some member.2.2) := by
  have hnames : (values members).all (fun member => member.1.isSome) = true := by simp [values]
  have honce : (members.map (·.1)).all
      (fun name => ((values members).filter (named name)).length ≤ 1) = true :=
    List.all_eq_true.2 fun name _ => decide_eq_true (length_filter_named h name)
  rw [fields?, if_pos ⟨hnames, honce⟩, List.map_map]
  refine congrArg some (List.map_congr_left fun member hmember => ?_)
  rw [Function.comp_apply, find?_named h hmember, Option.map_some]

end RentalDesk.Json
