import Dossier.Document.Json
import Dossier.Record.Encode

/-!
# JSON that is written is read back

`Document.toJson` writes documents, and `Document.ofJson` reads them.

* `escapedChar_cases` lists the ways in which a character of a string is written, and
  `stringParts_written` and `textOfParts?_written` say that all of them are read as that character.
* `ReadsBack d` says that the text of `d` is read as `d`, at every level and in front of any other
  text, with as much fuel as it is long.
* Null, truth values and strings have this property, and lists and tables have it if everything in
  them has it.  For these, the induction is on the items or members behind the first one, along the
  readers, which take them one by one.
* `Document.ofJson_toJson` is the result for whole texts.
-/

set_option autoImplicit false

namespace Dossier

namespace Json

/-! ## Strings -/

/-- What the reader makes of a character that has been written. -/
def writtenPart (c : Char) : StringPart :=
  if c.toNat < 0x20 ∧ c ∉ ['\n', '\r', '\t', '\x08', '\x0c'] then .unit c.toNat else .char c

theorem hexNat?_hexDigits : ∀ n < 32,
    hexNat? ['0', '0', Text.hexDigit (n / 16), Text.hexDigit (n % 16)] = some n := by
  decide +kernel

/-- The parts of a string with one more in front. -/
def consPart (part : StringPart) (found : Option (List StringPart × List Char)) :
    Option (List StringPart × List Char) := found.map fun p ↦ (part :: p.1, p.2)

theorem stringParts_escape {e c : Char} (he : e ≠ 'u') (h : escaped? e = some c)
    (rest : List Char) :
    stringParts ('\\' :: e :: rest) = consPart (.char c) (stringParts rest) := by
  rw [stringParts, h]
  · cases stringParts rest <;> rfl
  · rintro a b c d rest rfl
    exact absurd rfl he

theorem stringParts_unit {n : Nat} {a b c d : Char} (h : hexNat? [a, b, c, d] = some n)
    (rest : List Char) :
    stringParts ('\\' :: 'u' :: a :: b :: c :: d :: rest) =
      consPart (.unit n) (stringParts rest) := by
  rw [stringParts, h]
  cases stringParts rest <;> rfl

theorem stringParts_char {c : Char} (hquote : c ≠ '"') (hslash : c ≠ '\\') (h : 0x20 ≤ c.toNat)
    (rest : List Char) :
    stringParts (c :: rest) = consPart (.char c) (stringParts rest) := by
  rw [stringParts, if_neg (by simp [hslash, h])]
  · cases stringParts rest <;> rfl
  all_goals simp_all

/-- How a character is written: with a letter that stands for it, by its number, or as it is. -/
theorem escapedChar_cases (c : Char) :
    (∃ e, e ≠ 'u' ∧ escaped? e = some c ∧ escapedChar c = ['\\', e] ∧ writtenPart c = .char c) ∨
    (c.toNat < 0x20 ∧ writtenPart c = .unit c.toNat ∧ escapedChar c =
      ['\\', 'u', '0', '0', Text.hexDigit (c.toNat / 16), Text.hexDigit (c.toNat % 16)]) ∨
    (c ≠ '"' ∧ c ≠ '\\' ∧ 0x20 ≤ c.toNat ∧ escapedChar c = [c] ∧ writtenPart c = .char c) := by
  by_cases hshort : c ∈ ['"', '\\', '\n', '\r', '\t', '\x08', '\x0c']
  · left
    simp only [List.mem_cons, List.not_mem_nil, or_false] at hshort
    rcases hshort with rfl | rfl | rfl | rfl | rfl | rfl | rfl
    · exact ⟨'"', by decide, rfl, rfl, rfl⟩
    · exact ⟨'\\', by decide, rfl, rfl, rfl⟩
    · exact ⟨'n', by decide, rfl, rfl, rfl⟩
    · exact ⟨'r', by decide, rfl, rfl, rfl⟩
    · exact ⟨'t', by decide, rfl, rfl, rfl⟩
    · exact ⟨'b', by decide, rfl, rfl, rfl⟩
    · exact ⟨'f', by decide, rfl, rfl, rfl⟩
  · right
    simp only [List.mem_cons, List.not_mem_nil, or_false, not_or] at hshort
    obtain ⟨h₁, h₂, h₃, h₄, h₅, h₆, h₇⟩ := hshort
    by_cases h : c.toNat < 0x20
    · left
      simp [escapedChar, writtenPart, h, h₁, h₂, h₃, h₄, h₅, h₆, h₇]
    · right
      simp [escapedChar, writtenPart, h, h₁, h₂, h₃, h₄, h₅, h₆, h₇]
      omega

/-- **A character of a string is read back**, however it is written. -/
theorem stringParts_escapedChar (c : Char) (rest : List Char) :
    stringParts (escapedChar c ++ rest) = consPart (writtenPart c) (stringParts rest) := by
  rcases escapedChar_cases c with ⟨e, he, hc, hchars, hpart⟩ | ⟨h, hpart, hchars⟩ |
    ⟨hquote, hslash, h, hchars, hpart⟩
  · rw [hchars, hpart]
    exact stringParts_escape he hc rest
  · rw [hchars, hpart]
    exact stringParts_unit (hexNat?_hexDigits c.toNat h) rest
  · rw [hchars, hpart]
    exact stringParts_char hquote hslash h rest

/-- The string ends at its closing quote. -/
theorem stringParts_written (cs rest : List Char) :
    stringParts (cs.flatMap escapedChar ++ '"' :: rest) = some (cs.map writtenPart, rest) := by
  induction cs with
  | nil => rw [List.flatMap_nil, List.nil_append, stringParts, List.map_nil]
  | cons c cs ih =>
    rw [List.flatMap_cons, List.append_assoc, stringParts_escapedChar, ih]
    rfl

/-- A control character is no half of a pair. -/
theorem textOfParts?_unit {n : Nat} (h : n < 0x20) (parts : List StringPart) :
    textOfParts? (.unit n :: parts) = (textOfParts? parts).map (Char.ofNat n :: ·) := by
  have hleading : isLeading n = false := by simp [isLeading]; omega
  have htrailing : isTrailing n = false := by simp [isTrailing]; omega
  cases parts with
  | nil => simp [textOfParts?, hleading, htrailing]
  | cons part parts => cases part <;> simp [textOfParts?, hleading, htrailing]

/-- **All characters of a string are read back.** -/
theorem textOfParts?_written (cs : List Char) : textOfParts? (cs.map writtenPart) = some cs := by
  induction cs with
  | nil => rfl
  | cons c cs ih =>
    rw [List.map_cons]
    rcases escapedChar_cases c with ⟨_, _, _, _, hpart⟩ | ⟨h, hpart, _⟩ | ⟨_, _, _, _, hpart⟩
    · rw [hpart, textOfParts?, ih, Option.map_some]
    · rw [hpart, textOfParts?_unit h, ih, Option.map_some, Char.ofNat_toNat]
    · rw [hpart, textOfParts?, ih, Option.map_some]

/-! ## Blanks -/

theorem dropBlanks_newLine (level : Nat) (cs : List Char) :
    dropBlanks (newLine level ++ cs) = dropBlanks cs := by
  have hblanks : ∀ c ∈ newLine level, isBlank c = true := by
    intro c hc
    rcases List.mem_cons.1 hc with rfl | hc
    · rfl
    · rw [List.eq_of_mem_replicate hc]
      rfl
  rw [dropBlanks, List.dropWhile_append_of_pos hblanks, dropBlanks]

theorem dropBlanks_of_not_isBlank {c : Char} (h : isBlank c = false) (cs : List Char) :
    dropBlanks (c :: cs) = c :: cs := by
  rw [dropBlanks, List.dropWhile_cons_of_neg (by simp [h])]

/-! ## Documents -/

/-- The text starts neither with a blank nor with the end of a list. -/
def StartsItem (cs : List Char) : Prop := ∃ c rest, cs = c :: rest ∧ isBlank c = false ∧ c ≠ ']'

theorem StartsItem.append {cs : List Char} (h : StartsItem cs) (rest : List Char) :
    StartsItem (cs ++ rest) := by
  obtain ⟨c, cs', rfl, hblank, hend⟩ := h
  exact ⟨c, cs' ++ rest, rfl, hblank, hend⟩

theorem StartsItem.dropBlanks_eq {cs : List Char} (h : StartsItem cs) : dropBlanks cs = cs := by
  obtain ⟨c, rest, rfl, hblank, -⟩ := h
  exact dropBlanks_of_not_isBlank hblank rest

/-- The text of the document, at every level and in front of any other text, is read as the
document. -/
structure ReadsBack (d : Document) : Prop where
  /-- It is well-formed. -/
  sound : d.isSound = true
  /-- Its text can stand in a list. -/
  front : ∀ level, StartsItem (written level d)
  /-- Fuel for its length is enough to read it. -/
  read : ∀ level fuel rest, (written level d).length ≤ fuel →
    read fuel (written level d ++ rest) = (d, rest)

/-- Blanks in front of a document are skipped. -/
theorem read_dropBlanks (fuel : Nat) {cs cs' : List Char} (h : dropBlanks cs = dropBlanks cs') :
    read fuel cs = read fuel cs' := by
  cases fuel with
  | zero => rfl
  | succ fuel => rw [read, read, h]

/-! ### Scalars -/

theorem readsBack_null : ReadsBack .null where
  sound := rfl
  front level := ⟨'n', _, rfl, rfl, by decide⟩
  read level fuel rest h := by
    cases fuel with
    | zero => cases h
    | succ fuel => rfl

theorem readsBack_bool (b : Bool) : ReadsBack (.bool b) where
  sound := rfl
  front level := by cases b <;> exact ⟨_, _, rfl, rfl, by decide⟩
  read level fuel rest h := by
    cases fuel with
    | zero => cases b <;> cases h
    | succ fuel => cases b <;> rfl

theorem readsBack_string (s : String) : ReadsBack (.string s) where
  sound := rfl
  front level := ⟨'"', _, rfl, rfl, by decide⟩
  read level fuel rest h := by
    cases fuel with
    | zero => cases h
    | succ fuel =>
      rw [written, writtenString, List.cons_append, List.append_assoc, List.singleton_append, read,
        dropBlanks_of_not_isBlank (by rfl)]
      simp only [stringParts_written, textOfParts?_written, String.ofList_toList]

/-! ### Lists -/

theorem readItems_last {item : Document} (hsound : item.isSound = true) {fuel : Nat}
    {cs left rest : List Char} (hread : read fuel cs = (item, left))
    (hend : dropBlanks left = ']' :: rest) : readItems (fuel + 1) cs = ([item], true, rest) := by
  rw [readItems, hread]
  simp only [hsound, if_true, hend]

theorem readItems_comma {item : Document} (hsound : item.isSound = true) {fuel level : Nat}
    {cs next rest : List Char} {items : List Document} {complete : Bool}
    (hread : read fuel cs = (item, ',' :: (newLine level ++ next))) (hnext : StartsItem next)
    (hrest : readItems fuel next = (items, complete, rest)) :
    readItems (fuel + 1) cs = (item :: items, complete, rest) := by
  rw [readItems, hread]
  simp only [hsound, if_true, dropBlanks_of_not_isBlank (c := ',') (by rfl), dropBlanks_newLine,
    hnext.dropBlanks_eq]
  obtain ⟨c, left, rfl, -, hend⟩ := hnext
  split
  · rename_i h
    exact absurd (List.cons.inj h).1 hend
  · rename_i h
    cases h
  · rw [hrest]

/-- **The items of a list are read back.** -/
theorem readItems_written {items : List Document} (hitems : ∀ d ∈ items, ReadsBack d)
    {item : Document} (hitem : ReadsBack item) (level outer : Nat) (rest : List Char) {fuel : Nat}
    (hfuel : (written level item).length + (writtenItems level items).length < fuel) :
    readItems fuel (written level item ++ (writtenItems level items ++
      (newLine outer ++ ']' :: rest))) = (item :: items, true, rest) := by
  induction items generalizing item fuel with
  | nil =>
    cases fuel with
    | zero => cases hfuel
    | succ fuel =>
      have hread := hitem.read level fuel (newLine outer ++ ']' :: rest) (by omega)
      exact readItems_last hitem.sound hread (dropBlanks_newLine ..)
  | cons next items ih =>
    cases fuel with
    | zero => cases hfuel
    | succ fuel =>
      obtain ⟨hnext, hitems⟩ := List.forall_mem_cons.1 hitems
      have hread := hitem.read level fuel (writtenItems level (next :: items) ++
        (newLine outer ++ ']' :: rest)) (by omega)
      simp only [writtenItems, List.cons_append, List.append_assoc, List.length_cons,
        List.length_append] at hfuel hread ⊢
      exact readItems_comma hitem.sound hread ((hnext.front level).append _)
        (ih hitems hnext (by omega))

theorem read_list {fuel level : Nat} {next rest : List Char} {items : List Document}
    {complete : Bool} (hnext : StartsItem next)
    (hread : readItems fuel next = (items, complete, rest)) :
    read (fuel + 1) ('[' :: (newLine level ++ next)) = (.list items complete, rest) := by
  rw [read, dropBlanks_of_not_isBlank (by rfl)]
  simp only [dropBlanks_newLine, hnext.dropBlanks_eq]
  obtain ⟨c, left, rfl, -, hend⟩ := hnext
  split
  · rename_i h
    exact absurd (List.cons.inj h).1 hend
  · rw [hread]

theorem readsBack_list {items : List Document} (hitems : ∀ d ∈ items, ReadsBack d) :
    ReadsBack (.list items true) where
  sound := rfl
  front level := by cases items <;> exact ⟨'[', _, rfl, rfl, by decide⟩
  read level fuel rest hfuel := by
    cases fuel with
    | zero => cases items <;> cases hfuel
    | succ fuel =>
      cases items with
      | nil => rfl
      | cons item items =>
        obtain ⟨hitem, hitems⟩ := List.forall_mem_cons.1 hitems
        have hlength : (written (level + 1) item).length +
            (writtenItems (level + 1) items).length < fuel := by
          simp only [written, newLine, List.cons_append, List.length_cons, List.length_append]
            at hfuel
          omega
        have hread := readItems_written hitems hitem (level + 1) level rest hlength
        simpa [written] using read_list ((hitem.front (level + 1)).append _) hread

/-! ### Tables -/

/-- Blanks in front of a member are skipped. -/
theorem readMembers_newLine (fuel level : Nat) (cs : List Char) :
    readMembers fuel (newLine level ++ cs) = readMembers fuel cs := by
  cases fuel with
  | zero => rfl
  | succ fuel => rw [readMembers, readMembers, dropBlanks_newLine]

/-- The name of a member is read back, and then its value. -/
theorem readMembers_step {name : String} {value : Document} (hvalue : ReadsBack value) (level : Nat)
    {fuel : Nat} (hfuel : (written level value).length ≤ fuel) (left : List Char) :
    readMembers (fuel + 1) (writtenString name ++ ':' :: ' ' :: (written level value ++ left)) =
      match dropBlanks left with
      | '}' :: rest => ([(some name, value)], true, rest)
      | ',' :: rest =>
        let (members, complete, rest) := readMembers fuel rest
        ((some name, value) :: members, complete, rest)
      | _ => ([(some name, value)], false, []) := by
  have hread : read fuel (' ' :: (written level value ++ left)) = (value, left) := by
    rw [← hvalue.read level fuel left hfuel]
    exact read_dropBlanks fuel rfl
  rw [readMembers, writtenString, List.cons_append, List.append_assoc, List.singleton_append,
    dropBlanks_of_not_isBlank (by rfl)]
  simp only [stringParts_written, textOfParts?_written, Option.map_some, String.ofList_toList]
  rw [dropBlanks_of_not_isBlank (by rfl)]
  simp only [hread]
  exact if_pos hvalue.sound

/-- **The members of a table are read back.** -/
theorem readMembers_written {members : List (String × Document)}
    (hmembers : ∀ m ∈ members, ReadsBack m.2) (name : String) {value : Document}
    (hvalue : ReadsBack value) (level outer : Nat) (rest : List Char) {fuel : Nat}
    (hfuel : (written level value).length +
      (writtenMembers level (members.map fun m ↦ (some m.1, m.2))).length < fuel) :
    readMembers fuel (writtenString name ++ ':' :: ' ' :: (written level value ++
      (writtenMembers level (members.map fun m ↦ (some m.1, m.2)) ++
        (newLine outer ++ '}' :: rest)))) =
      ((some name, value) :: members.map fun m ↦ (some m.1, m.2), true, rest) := by
  induction members generalizing name value fuel with
  | nil =>
    cases fuel with
    | zero => cases hfuel
    | succ fuel =>
      rw [readMembers_step hvalue level (by omega)]
      simp only [List.map_nil, writtenMembers, List.nil_append, dropBlanks_newLine]
      rfl
  | cons next members ih =>
    cases fuel with
    | zero => cases hfuel
    | succ fuel =>
      obtain ⟨hnext, hmembers⟩ := List.forall_mem_cons.1 hmembers
      rw [readMembers_step hvalue level (by omega)]
      simp only [List.map_cons, writtenMembers, List.cons_append, List.append_assoc,
        List.length_cons, List.length_append, Option.getD_some] at hfuel ⊢
      have hlength : (written level next.2).length +
          (writtenMembers level (members.map fun m ↦ (some m.1, m.2))).length < fuel := by omega
      rw [dropBlanks_of_not_isBlank (by rfl)]
      simp only [readMembers_newLine, ih hmembers next.1 hnext hlength]

theorem read_table {fuel level : Nat} {name : String} {left rest : List Char}
    {members : List (Option String × Document)} {complete : Bool}
    (hread : readMembers fuel (writtenString name ++ left) = (members, complete, rest)) :
    read (fuel + 1) ('{' :: (newLine level ++ (writtenString name ++ left))) =
      (.table members complete, rest) := by
  rw [read, dropBlanks_of_not_isBlank (by rfl)]
  simp only [dropBlanks_newLine]
  rw [writtenString, List.cons_append] at hread ⊢
  rw [dropBlanks_of_not_isBlank (by rfl)]
  split
  · rename_i h
    cases h
  · rw [hread]

theorem readsBack_ofMembers {members : List (String × Document)}
    (hmembers : ∀ m ∈ members, ReadsBack m.2) : ReadsBack (.ofMembers members) where
  sound := rfl
  front level := by cases members <;> exact ⟨'{', _, rfl, rfl, by decide⟩
  read level fuel rest hfuel := by
    cases fuel with
    | zero => cases members <;> cases hfuel
    | succ fuel =>
      cases members with
      | nil => rfl
      | cons m members =>
        obtain ⟨hm, hmembers⟩ := List.forall_mem_cons.1 hmembers
        have hlength : (written (level + 1) m.2).length +
            (writtenMembers (level + 1) (members.map fun m ↦ (some m.1, m.2))).length < fuel := by
          simp only [Document.ofMembers, List.map_cons, written, newLine, List.cons_append,
            List.length_cons, List.length_append] at hfuel
          omega
        have hread := readMembers_written hmembers m.1 hm (level + 1) level rest hlength
        simpa [Document.ofMembers, written] using read_table hread

end Json

/-- A document that is written as JSON is read back from it, and nothing is left. -/
theorem Document.ofJson_toJson {d : Document} (h : Json.ReadsBack d) :
    Document.ofJson d.toJson = (d, true) := by
  have hread := h.read 0 (2 * (Json.written 0 d).length + 2) [] (by omega)
  rw [List.append_nil] at hread
  rw [Document.ofJson, Document.toJson, String.toList_ofList]
  simp only [hread]
  rfl

end Dossier
