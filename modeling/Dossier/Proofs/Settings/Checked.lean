import Dossier.Proofs.Text.Blanks
import Dossier.Settings

/-!
# Which settings are accepted

Settings are accepted exactly if their two entries, without the blanks around them, are what they have
to be: a class with its namespace and a method.

* `IsQualified` is the form of the first: names, two at least, with single points between them.  A
  text is cut at its points and each piece is looked at, and `isQualified_iff` says that this comes to
  the same, because no name has a point in it.
* `Settings.Describes` says what configuration the settings stand for, and `Settings.check_exact` that
  checking gives it.  It is described by its own fields, too, so that checking these changes nothing.
-/

set_option autoImplicit false

namespace Dossier

open Text (AllBlank trim)

/-! ## Names with points between them -/

/-- Two names or more, with single points between them. -/
def IsQualified (text : String) : Prop :=
  ∃ names : List String, 2 ≤ names.length ∧ (∀ name ∈ names, isName name) ∧
    text = ".".intercalate names

/-- All characters of a name can stand in one. -/
theorem isNameChar_of_isName {name : String} (h : isName name) {c : Char} (hc : c ∈ name.toList) :
    Text.isNameChar c := by
  rw [isName] at h
  cases hcs : name.toList with
  | nil => simp [hcs] at hc
  | cons d ds =>
    rw [hcs, Bool.and_eq_true, List.all_eq_true] at h
    rcases List.mem_cons.1 (hcs ▸ hc) with rfl | hc
    · exact Text.isNameChar_of_isNameStart h.1
    · exact h.2 c hc

theorem point_notMem_of_isName {name : String} (h : isName name) : '.' ∉ name.toList := by
  intro hmem
  have hpoint : Text.isNameChar '.' = false := by decide +kernel
  rw [isNameChar_of_isName h hmem] at hpoint
  cases hpoint

/-- The pieces of a text are those that the library cuts it into. -/
theorem Text.splitOn_eq (sep : Char) (cs : List Char) : Text.splitOn sep cs = cs.splitOn sep := by
  induction cs with
  | nil => rfl
  | cons c cs ih =>
    rw [Text.splitOn, List.splitOn_cons_eq_if_modifyHead, ← ih]
    obtain ⟨piece, pieces, h⟩ := List.exists_cons_of_ne_nil (splitOn_ne_nil sep cs)
    simp only [h, List.modifyHead_cons, beq_iff_eq]

/-- Names with points between them are cut into these names. -/
theorem fields_intercalate {names : List String} (hne : names ≠ [])
    (h : ∀ name ∈ names, isName name) : Text.fields '.' (".".intercalate names) = names := by
  have hapart : ∀ cs ∈ names.map String.toList, '.' ∉ cs := by
    intro cs hcs
    obtain ⟨name, hname, rfl⟩ := List.mem_map.1 hcs
    exact point_notMem_of_isName (h name hname)
  have hpoint : ".".toList = ['.'] := rfl
  rw [Text.fields, Text.splitOn_eq, String.toList_intercalate, hpoint,
    List.splitOn_intercalate '.' hapart (by simpa using hne), List.map_map]
  simp

theorem intercalate_fields (text : String) : ".".intercalate (Text.fields '.' text) = text := by
  have hpoint : ".".toList = ['.'] := rfl
  refine String.toList_injective ?_
  rw [String.toList_intercalate, hpoint, Text.fields, Text.splitOn_eq, List.map_map]
  simp [Function.comp_def]

/-- **A text is qualified** exactly if its pieces between points are names, two at least. -/
theorem isQualified_iff {text : String} : IsQualified text ↔
    2 ≤ (Text.fields '.' text).length ∧ ∀ piece ∈ Text.fields '.' text, isName piece := by
  constructor
  · rintro ⟨names, hlength, hnames, rfl⟩
    have hne : names ≠ [] := List.ne_nil_of_length_pos (Nat.lt_of_succ_lt hlength)
    rw [fields_intercalate hne hnames]
    exact ⟨hlength, hnames⟩
  · rintro ⟨hlength, hnames⟩
    exact ⟨_, hlength, hnames, (intercalate_fields text).symm⟩

/-! ## What is described -/

/-- The settings that say what the configuration holds, and all of it. -/
def Config.settings (config : Config) : Settings where
  entryMethod := some config.entryMethod
  entryNamespace := some config.entryType
  assemblyName := some config.assemblyName
  silentCompilation := some config.silent
  visualizeOnError := some config.visualizeOnError
  tolerateOrphans := some config.tolerateOrphans

namespace Settings

variable {s : Settings} {config : Config}

/-- Both entries are given, and have their forms without the blanks around them. -/
def HasEntries (s : Settings) : Prop :=
  ∃ entry method, s.entryNamespace = some entry ∧ s.entryMethod = some method ∧
    IsQualified (trim entry) ∧ isName (trim method)

/-- The configuration is what the settings say. -/
structure Describes (s : Settings) (config : Config) : Prop where
  /-- The class is the one that is given, without the blanks around it. -/
  entryType : s.entryNamespace.map trim = some config.entryType
  /-- So is the method. -/
  entryMethod : s.entryMethod.map trim = some config.entryMethod
  /-- The name of the assembly is the one that is given, with its blanks if it has any. -/
  assemblyName : ∀ name, s.assemblyName = some name → ¬ AllBlank name.toList →
    config.assemblyName = name
  /-- A name that is missing or nothing but blanks is replaced. -/
  defaultName : (∀ name, s.assemblyName = some name → AllBlank name.toList) →
    config.assemblyName = defaultAssemblyName
  silent : config.silent = s.silentCompilation.getD false
  visualizeOnError : config.visualizeOnError = s.visualizeOnError.getD false
  tolerateOrphans : config.tolerateOrphans = s.tolerateOrphans.getD false

/-! ## The steps of checking -/

theorem checkEntry_eq_ok_iff {entry : String} : checkEntry entry = .ok () ↔ IsQualified entry := by
  have hfind : ((Text.fields '.' entry).find? fun piece ↦ !isName piece) = none ↔
      ∀ piece ∈ Text.fields '.' entry, isName piece := by
    simp [List.find?_eq_none]
  rw [isQualified_iff, checkEntry, ← hfind]
  by_cases hlength : (Text.fields '.' entry).length < 2
  · simp [hlength, Nat.not_le.2 hlength]
  · rw [if_neg hlength, and_iff_right (Nat.le_of_not_lt hlength)]
    cases (Text.fields '.' entry).find? fun piece ↦ !isName piece <;> simp

theorem stated?_eq_some_iff {text : Option String} {t : String} :
    stated? text = some t ↔ text.map trim = some t ∧ t ≠ "" := by
  rw [stated?, Option.filter_eq_some_iff]
  simp

/-- The name of the assembly. -/
def nameOrDefault (name : Option String) : String :=
  (name.filter fun name ↦ !(trim name).isEmpty).getD defaultAssemblyName

/-- The configuration with these entries, and all else as the settings say. -/
def withEntries (s : Settings) (entryType entryMethod : String) : Config where
  entryType := entryType
  entryMethod := entryMethod
  assemblyName := nameOrDefault s.assemblyName
  silent := s.silentCompilation.getD false
  visualizeOnError := s.visualizeOnError.getD false
  tolerateOrphans := s.tolerateOrphans.getD false

/-- Checking settings with both entries. -/
theorem check_eq {entry method : String} (hentry : stated? s.entryNamespace = some entry)
    (hmethod : stated? s.entryMethod = some method) :
    s.check = checkEntry entry >>= fun _ ↦
      if isName method then .ok (s.withEntries entry method) else .error (.badMethod method) := by
  rw [check, hentry, hmethod]
  rfl

/-- **When checking succeeds, and with what.** -/
theorem check_eq_ok_iff : s.check = .ok config ↔
    ∃ entry method, stated? s.entryNamespace = some entry ∧ stated? s.entryMethod = some method ∧
      IsQualified entry ∧ isName method ∧ config = s.withEntries entry method := by
  constructor
  · intro h
    cases hentry : stated? s.entryNamespace with
    | none =>
      rw [check, hentry] at h
      cases h
    | some entry =>
      cases hmethod : stated? s.entryMethod with
      | none =>
        rw [check, hentry, hmethod] at h
        cases h
      | some method =>
        rw [check_eq hentry hmethod] at h
        cases hcheck : checkEntry entry with
        | error e =>
          rw [hcheck] at h
          cases h
        | ok =>
          rw [hcheck] at h
          change (if isName method then _ else _) = _ at h
          split at h
          · rename_i hname
            exact ⟨entry, method, rfl, rfl, checkEntry_eq_ok_iff.1 hcheck, hname,
              (Except.ok.inj h).symm⟩
          · cases h
  · rintro ⟨entry, method, hentry, hmethod, hqualified, hname, rfl⟩
    rw [check_eq hentry hmethod, checkEntry_eq_ok_iff.2 hqualified]
    exact if_pos hname

theorem isQualified_empty : ¬ IsQualified "" := by
  rw [isQualified_iff]
  decide

theorem ne_empty_of_isName {name : String} (h : isName name) : name ≠ "" := by
  rintro rfl
  cases h

/-- Checking succeeds exactly if both entries are given and have their forms. -/
theorem exists_check_iff : (∃ config, s.check = .ok config) ↔ s.HasEntries := by
  simp only [check_eq_ok_iff, stated?_eq_some_iff, Option.map_eq_some_iff]
  constructor
  · rintro ⟨_, _, _, ⟨⟨entry, hentry, rfl⟩, -⟩, ⟨⟨method, hmethod, rfl⟩, -⟩, hqualified, hname, -⟩
    exact ⟨entry, method, hentry, hmethod, hqualified, hname⟩
  · rintro ⟨entry, method, hentry, hmethod, hqualified, hname⟩
    have hne : trim entry ≠ "" := fun h ↦ isQualified_empty (h ▸ hqualified)
    exact ⟨_, _, _, ⟨⟨entry, hentry, rfl⟩, hne⟩, ⟨⟨method, hmethod, rfl⟩, ne_empty_of_isName hname⟩,
      hqualified, hname, rfl⟩

/-! ## The name of the assembly -/

theorem nameOrDefault_some {name : String} (h : ¬ AllBlank name.toList) :
    nameOrDefault (some name) = name := by
  rw [← Text.trim_eq_empty_iff] at h
  rw [nameOrDefault, Option.filter_some, if_pos (by simpa using h), Option.getD_some]

theorem nameOrDefault_of_blank {name : Option String}
    (h : ∀ given, name = some given → AllBlank given.toList) :
    nameOrDefault name = defaultAssemblyName := by
  cases name with
  | none => rfl
  | some given =>
    have hblank := Text.trim_eq_empty_iff.2 (h given rfl)
    rw [nameOrDefault, Option.filter_some, if_neg (by simp [hblank]), Option.getD_none]

/-- A name that was chosen is chosen again. -/
theorem nameOrDefault_nameOrDefault (name : Option String) :
    nameOrDefault (some (nameOrDefault name)) = nameOrDefault name := by
  by_cases hblank : ∀ given, name = some given → AllBlank given.toList
  · rw [nameOrDefault_of_blank hblank]
    decide +kernel
  · push Not at hblank
    obtain ⟨given, rfl, hgiven⟩ := hblank
    rw [nameOrDefault_some hgiven, nameOrDefault_some hgiven]

/-! ## The result -/

theorem describes_of_check (h : s.check = .ok config) : s.Describes config := by
  obtain ⟨entry, method, hentry, hmethod, -, -, rfl⟩ := check_eq_ok_iff.1 h
  exact {
    entryType := (stated?_eq_some_iff.1 hentry).1
    entryMethod := (stated?_eq_some_iff.1 hmethod).1
    assemblyName := fun name hname hgiven ↦ by
      rw [withEntries, hname, nameOrDefault_some hgiven]
    defaultName := nameOrDefault_of_blank
    silent := rfl
    visualizeOnError := rfl
    tolerateOrphans := rfl }

/-- The configuration is what its own fields say. -/
theorem check_settings (h : s.check = .ok config) : config.settings.check = .ok config := by
  obtain ⟨entry, method, hentry, hmethod, hqualified, hname, rfl⟩ := check_eq_ok_iff.1 h
  rw [stated?_eq_some_iff, Option.map_eq_some_iff] at hentry hmethod
  obtain ⟨⟨given, -, rfl⟩, hentry⟩ := hentry
  obtain ⟨⟨given', -, rfl⟩, hmethod⟩ := hmethod
  refine check_eq_ok_iff.2 ⟨_, _, ?_, ?_, hqualified, hname, ?_⟩
  · rw [stated?_eq_some_iff]
    exact ⟨congrArg some (Text.trim_trim given), hentry⟩
  · rw [stated?_eq_some_iff]
    exact ⟨congrArg some (Text.trim_trim given'), hmethod⟩
  · simp [withEntries, Config.settings, nameOrDefault_nameOrDefault]

/-- **Settings are checked exactly.**  They are accepted if and only if, without the blanks around them,
the entry class is two names or more with single points between them and the entry method is a name.
The configuration is then what they say, and checking settings that are made of its own fields gives
it again. -/
theorem check_exact (s : Settings) :
    ((∃ config, s.check = .ok config) ↔ s.HasEntries) ∧
      ∀ config, s.check = .ok config → s.Describes config ∧ config.settings.check = .ok config :=
  ⟨exists_check_iff, fun _ h ↦ ⟨describes_of_check h, check_settings h⟩⟩

/-- Settings with blanks around the entries, and a name that is nothing but a blank. -/
def paddedSettings : Settings where
  entryMethod := some "\tRun "
  entryNamespace := some " Acme.Tools.Widget\n"
  assemblyName := some " "
  tolerateOrphans := some true

/-- What the settings stand for. -/
def plainConfig : Config :=
  { Config.ofEntry "Acme.Tools.Widget" "Run" with tolerateOrphans := true }

/-- The blanks are taken off, and the configuration stays as it is. -/
theorem paddedSettings_check : paddedSettings.check = .ok plainConfig ∧
    paddedSettings.HasEntries ∧ plainConfig.settings.check = .ok plainConfig := by
  have hcheck : paddedSettings.check = .ok plainConfig := by decide +kernel
  obtain ⟨haccepted, hstable⟩ := check_exact paddedSettings
  exact ⟨hcheck, haccepted.1 ⟨_, hcheck⟩, (hstable _ hcheck).2⟩

end Settings

end Dossier
