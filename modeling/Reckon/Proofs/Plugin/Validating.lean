import Reckon.Proofs.Parsing.Names
import Reckon.Proofs.Plugin.Installing

/-!
# Checking manifests

A manifest becomes a plugin if its name, the names of its entries, its constants and its sources are all
right, and is refused with one issue for each entry that is not.  Constants are converted one after the
other into a store that grows, but what a conversion fails with does not depend on the store, so each
entry is right or wrong by itself.
-/

namespace Reckon

/-! ## Faults of conversions -/

namespace HostValue

/-- What a conversion failed with, if it failed. -/
def faultOf {α : Type} : Except HostFault α → Option HostFault
  | .ok _ => none
  | .error fault => some fault

/-- What the conversion of a value into an empty store fails with, if it does. -/
def fault? (value : HostValue) : Option HostFault :=
  faultOf (value.convert.run {}).1

/-- What the conversions of some entries failed with. -/
def faults (entries : List (String × Except HostFault Value)) : List (String × Option HostFault) :=
  entries.map fun entry => (entry.1, faultOf entry.2)

theorem sortByKey_map {α β : Type} (change : α → β) (entries : List (String × α)) :
    (sortByKey entries).map (Prod.map id change) = sortByKey (entries.map (Prod.map id change)) :=
  List.map_mergeSort fun _ _ _ _ => rfl

theorem faults_sortByKey (entries : List (String × Except HostFault Value)) :
    faults (sortByKey entries) = sortByKey (faults entries) :=
  sortByKey_map faultOf entries

/-- The first fault among some entries counts. -/
theorem faultOf_mapM_atKey (entries : List (String × Except HostFault Value)) :
    faultOf (entries.mapM atKey) = (faults entries).findSome? fun entry =>
      entry.2.map (·.during ("key " ++ Text.quote entry.1)) := by
  induction entries with
  | nil => rfl
  | cons entry rest inductionHypothesis =>
      obtain ⟨key, result⟩ := entry
      rw [List.mapM_cons]
      cases result with
      | error fault => rfl
      | ok value =>
          change faultOf (rest.mapM atKey >>= fun values => pure ((key, value) :: values)) = _
          rw [faults, List.map_cons, List.findSome?_cons]
          change _ = (faults rest).findSome? _
          rw [← inductionHypothesis]
          cases rest.mapM atKey <;> rfl

theorem faultOf_dictionaryOf (entries : List (String × Except HostFault Value)) (store : Store) :
    faultOf ((dictionaryOf entries).run store).1 = faultOf ((sortByKey entries).mapM atKey) := by
  unfold dictionaryOf
  split
  · next converted => rw [converted]; rfl
  · next failed => rw [failed]; rfl

theorem faultOf_convert_list (items : List HostValue) (store : Store) :
    faultOf ((list items).convert.run store).1 = faultOf ((convertItems 0 items).run store).1 := by
  unfold convert
  rw [StateT.run_bind]
  generalize (convertItems 0 items).run store = converted
  obtain ⟨values | fault, after⟩ := converted <;> rfl

theorem faultOf_convertItems_cons (index : Nat) (first : HostValue) (rest : List HostValue)
    (store : Store) :
    faultOf ((convertItems index (first :: rest)).run store).1 =
      ((faultOf (first.convert.run store).1).map (·.during ("index " ++ toString index))).or
        (faultOf ((convertItems (index + 1) rest).run (first.convert.run store).2).1) := by
  rw [convertItems, StateT.run_bind]
  generalize first.convert.run store = converted
  obtain ⟨fault | value, after⟩ := converted
  · rfl
  · change faultOf (StateT.run (convertItems (index + 1) rest >>= fun values =>
      pure ((value :: ·) <$> values)) after).1 = _
    rw [StateT.run_bind]
    generalize (convertItems (index + 1) rest).run after = converted
    obtain ⟨_ | _, _⟩ := converted <;> rfl

mutual

/-- What a conversion fails with does not depend on the store. -/
theorem faultOf_convert (value : HostValue) (store other : Store) :
    faultOf (value.convert.run store).1 = faultOf (value.convert.run other).1 := by
  cases value with
  | list items =>
      rw [faultOf_convert_list, faultOf_convert_list, faultOf_convertItems]
  | dictionary entries =>
      unfold convert
      change faultOf ((dictionaryOf ((convertEntries entries).run store).1).run _).1 =
        faultOf ((dictionaryOf ((convertEntries entries).run other).1).run _).1
      rw [faultOf_dictionaryOf, faultOf_dictionaryOf, faultOf_mapM_atKey, faultOf_mapM_atKey,
        faults_sortByKey, faults_sortByKey, faults_convertEntries entries store other]
  | native | future =>
      unfold convert
      rfl
  | _ =>
      unfold convert
      rfl

theorem faultOf_convertItems (index : Nat) (items : List HostValue) (store other : Store) :
    faultOf ((convertItems index items).run store).1 =
      faultOf ((convertItems index items).run other).1 := by
  cases items with
  | nil =>
      unfold convertItems
      rfl
  | cons first rest =>
      rw [faultOf_convertItems_cons, faultOf_convertItems_cons, faultOf_convert first store other,
        faultOf_convertItems (index + 1) rest]

theorem faults_convertEntries (entries : List (String × HostValue)) (store other : Store) :
    faults ((convertEntries entries).run store).1 = faults ((convertEntries entries).run other).1 := by
  match entries with
  | [] =>
      unfold convertEntries
      rfl
  | (key, first) :: rest =>
      unfold convertEntries
      change (key, faultOf (first.convert.run store).1) ::
          faults ((convertEntries rest).run (first.convert.run store).2).1 =
        (key, faultOf (first.convert.run other).1) ::
          faults ((convertEntries rest).run (first.convert.run other).2).1
      rw [faultOf_convert first store other, faults_convertEntries rest]

end

/-- The value converts, whatever else is in the store. -/
def Converts (value : HostValue) : Prop :=
  ∀ store, ∃ converted, (value.convert.run store).1 = .ok converted

theorem faultOf_eq_none_iff {α : Type} {result : Except HostFault α} :
    faultOf result = none ↔ ∃ value, result = .ok value := by
  cases result <;> simp [faultOf]

theorem converts_iff {value : HostValue} : value.Converts ↔ value.fault? = none := by
  constructor
  · intro converts
    exact faultOf_eq_none_iff.mpr (converts {})
  · intro sound store
    rw [fault?, faultOf_convert value {} store] at sound
    exact faultOf_eq_none_iff.mp sound

end HostValue

theorem Text.trim_eq_empty_iff (text : String) : trim text = "" ↔ text.toList.all isBlank = true := by
  rw [trim, String.ofList_eq_empty_iff, trimList, List.reverse_eq_nil_iff, List.dropWhile_eq_nil_iff,
    List.all_eq_true]
  constructor
  · intro inner c member
    rw [← List.takeWhile_append_dropWhile (p := isBlank) (l := text.toList)] at member
    rcases List.mem_append.mp member with before | after
    · exact List.mem_takeWhile_imp before
    · exact inner c (List.mem_reverse.mpr after)
  · intro all c member
    exact all c ((List.dropWhile_sublist _).subset (List.mem_reverse.mp member))

namespace Manifest

open HostValue (sortByKey)

/-! ## Issues of entries -/

/-- What is wrong with a constant, if anything. -/
def constantIssue? (entry : String × HostValue) : Option Issue :=
  if isIdentifier entry.1 then entry.2.fault?.map (.constant entry.1)
  else some (.constantName entry.1)

/-- What is wrong with a function beside constants of some names, if anything. -/
def functionIssue? (taken : List String) (entry : String × String) : Option Issue :=
  if !isIdentifier entry.1 then some (.functionName entry.1)
  else if taken.contains entry.1 then some (.ambiguous entry.1)
  else if entry.2.toList.all Text.isBlank then some (.emptySource entry.1)
  else none

/-- All that is wrong with a manifest. -/
def problems (manifest : Manifest) : List Issue :=
  (if manifest.name == "" then [Issue.unnamed] else []) ++
    (sortByKey manifest.constants).filterMap constantIssue? ++
    (sortByKey manifest.functions).filterMap (functionIssue? (manifest.constants.map Prod.fst))

/-- What a check found, if it found anything. -/
def issueOf {α : Type} : Except Issue α → Option Issue
  | .ok _ => none
  | .error issue => some issue

theorem issues_eq_filterMap {α : Type} (results : List (Except Issue α)) :
    issues results = results.filterMap issueOf := by
  rw [issues]
  congr

/-! ## Checks of lists -/

section Checks

variable {α β γ : Type} {issue? : α → Option Issue} {entries : List α}
  {results : List (Except Issue β)} {given : α → γ} {kept : β → γ}

/-- Each result is the issue of its entry, or a right that keeps something of the entry. -/
abbrev Checks (issue? : α → Option Issue) (given : α → γ) (kept : β → γ) (entries : List α)
    (results : List (Except Issue β)) : Prop :=
  List.Forall₂ (fun entry result => issueOf result = issue? entry ∧
    ∀ right, result = .ok right → kept right = given entry) entries results

theorem Checks.issues_eq (checks : Checks issue? given kept entries results) :
    issues results = entries.filterMap issue? := by
  rw [issues_eq_filterMap]
  induction checks with
  | nil => rfl
  | cons first _ inductionHypothesis =>
      rw [List.filterMap_cons, List.filterMap_cons, first.1, inductionHypothesis]

theorem Checks.rights_eq (checks : Checks issue? given kept entries results)
    (sound : entries.filterMap issue? = []) : (rights results).map kept = entries.map given := by
  induction checks with
  | nil => rfl
  | @cons entry result _ _ first _ inductionHypothesis =>
      cases result with
      | error issue =>
          rw [List.filterMap_cons, ← first.1] at sound
          cases sound
      | ok right =>
          rw [List.filterMap_cons, ← first.1] at sound
          rw [List.map_cons, ← first.2 right rfl, ← inductionHypothesis sound]
          rfl

end Checks

theorem checkFunction_eq (taken : List String) (name source : String) :
    issueOf (checkFunction taken name source) = functionIssue? taken (name, source) ∧
      ∀ right, checkFunction taken name source = .ok right → right = (name, source) := by
  have blank : (Text.trim source == "") = source.toList.all Text.isBlank := by
    rw [Bool.eq_iff_iff, beq_iff_eq, Text.trim_eq_empty_iff]
  rw [checkFunction, functionIssue?, isName_eq_isIdentifier, blank]
  split
  · exact ⟨rfl, nofun⟩
  split
  · exact ⟨rfl, nofun⟩
  split
  · exact ⟨rfl, nofun⟩
  · refine ⟨rfl, ?_⟩
    rintro _ ⟨⟩
    rfl

theorem checks_functions (taken : List String) (functions : List (String × String)) :
    Checks (functionIssue? taken) id id functions
      (functions.map fun (name, source) => checkFunction taken name source) := by
  rw [Checks, List.forall₂_map_right_iff, List.forall₂_same]
  exact fun (name, source) _ => checkFunction_eq taken name source

theorem checkConstant_run (name : String) (value : HostValue) (store : Store) :
    issueOf ((checkConstant name value).run store).1 = constantIssue? (name, value) ∧
      ∀ right, ((checkConstant name value).run store).1 = .ok right → right.1 = name := by
  have faults := HostValue.faultOf_convert value store {}
  rw [checkConstant, constantIssue?, isName_eq_isIdentifier]
  split
  · rw [HostValue.fault?, ← faults, StateT.run_bind]
    generalize value.convert.run store = result
    obtain ⟨fault | converted, after⟩ := result
    · refine ⟨rfl, ?_⟩
      rintro _ ⟨⟩
    · refine ⟨rfl, ?_⟩
      rintro _ ⟨⟩
      rfl
  · refine ⟨rfl, ?_⟩
    rintro _ ⟨⟩

theorem checks_constants (constants : List (String × HostValue)) (store : Store) :
    Checks constantIssue? Prod.fst Prod.fst constants
      ((constants.mapM fun (name, value) => checkConstant name value).run store).1 := by
  induction constants generalizing store with
  | nil => exact .nil
  | cons entry rest inductionHypothesis =>
      rw [List.mapM_cons]
      exact .cons (checkConstant_run entry.1 entry.2 store) (inductionHypothesis _)

/-! ## Manifests -/

/-- The plugin of a manifest without problems, and the problems of any other. -/
theorem toPlugin_run (manifest : Manifest) (store : Store) :
    (manifest.problems = [] → ∃ plugin, (manifest.toPlugin.run store).1 = .ok plugin ∧
        plugin.content.map Prod.fst = (sortByKey manifest.constants).map Prod.fst ∧
        plugin.functions = sortByKey manifest.functions) ∧
      (manifest.problems ≠ [] → (manifest.toPlugin.run store).1 = .error manifest.problems) := by
  have constants := checks_constants (sortByKey manifest.constants) store
  have functions := checks_functions (manifest.constants.map Prod.fst) (sortByKey manifest.functions)
  let converted := ((sortByKey manifest.constants).mapM fun (name, value) =>
    checkConstant name value).run store
  have ran : (manifest.toPlugin.run store).1 = if manifest.problems.isEmpty
      then .ok { name := manifest.name, version := manifest.version, author := manifest.author
                 content := rights converted.1
                 functions := rights ((sortByKey manifest.functions).map fun (name, source) =>
                   checkFunction (manifest.constants.map Prod.fst) name source) }
      else .error manifest.problems := by
    rw [problems, ← constants.issues_eq, ← functions.issues_eq, toPlugin]
    have decided (sound : Bool) (plugin wrong : Except (List Issue) Plugin) :
        (StateT.run (if sound then (return plugin : StoreM _) else return wrong) converted.2).1 =
          if sound then plugin else wrong := by
      cases sound <;> rfl
    exact decided _ _ _
  rw [ran]
  constructor
  · intro sound
    rw [sound, List.isEmpty_nil, if_pos rfl]
    rw [problems, List.append_eq_nil_iff, List.append_eq_nil_iff] at sound
    refine ⟨_, rfl, constants.rights_eq sound.1.2, ?_⟩
    exact (List.map_id _).symm.trans ((functions.rights_eq sound.2).trans (List.map_id _))
  · intro wrong
    rw [if_neg (by simpa using wrong)]

/-- A manifest has a name, all its names are identifiers, its constants convert, no function is called
like a constant, and each has a source that is not blank. -/
structure IsValid (manifest : Manifest) : Prop where
  named : manifest.name ≠ ""
  constants : ∀ entry ∈ manifest.constants, isIdentifier entry.1 = true ∧ entry.2.Converts
  functions : ∀ entry ∈ manifest.functions, isIdentifier entry.1 = true ∧
    entry.1 ∉ manifest.constants.map Prod.fst ∧ ∃ c ∈ entry.2.toList, Text.isBlank c = false

theorem constantIssue?_eq_none_iff {entry : String × HostValue} :
    constantIssue? entry = none ↔ isIdentifier entry.1 = true ∧ entry.2.Converts := by
  rw [constantIssue?, HostValue.converts_iff]
  split
  · next identifier => simp [identifier]
  · next other => simp [other]

theorem functionIssue?_eq_none_iff {taken : List String} {entry : String × String} :
    functionIssue? taken entry = none ↔ isIdentifier entry.1 = true ∧ entry.1 ∉ taken ∧
      ∃ c ∈ entry.2.toList, Text.isBlank c = false := by
  rw [functionIssue?]
  split
  · next other => simp_all
  split
  · next dup => simp_all
  split
  · next blank => simp_all
  · next written => simp_all

theorem problems_eq_nil_iff {manifest : Manifest} : manifest.problems = [] ↔ manifest.IsValid := by
  have constants : (∀ entry ∈ sortByKey manifest.constants, constantIssue? entry = none) ↔
      ∀ entry ∈ manifest.constants, isIdentifier entry.1 = true ∧ entry.2.Converts := by
    simp only [(sortByKey_perm _).mem_iff, constantIssue?_eq_none_iff]
  have functions : (∀ entry ∈ sortByKey manifest.functions,
        functionIssue? (manifest.constants.map Prod.fst) entry = none) ↔
      ∀ entry ∈ manifest.functions, isIdentifier entry.1 = true ∧
        entry.1 ∉ manifest.constants.map Prod.fst ∧ ∃ c ∈ entry.2.toList, Text.isBlank c = false := by
    simp only [(sortByKey_perm _).mem_iff, functionIssue?_eq_none_iff]
  rw [problems, List.append_eq_nil_iff, List.append_eq_nil_iff, List.filterMap_eq_nil_iff,
    List.filterMap_eq_nil_iff, constants, functions]
  constructor
  · rintro ⟨⟨named, sound⟩, written⟩
    exact ⟨by simpa using named, sound, written⟩
  · rintro ⟨named, sound, written⟩
    exact ⟨⟨by simpa using named, sound⟩, written⟩

/-- The issues are those of the wrong entries, one for each of them, in the order of their names. -/
def Lists {α : Type} (issue? : String × α → Option Issue) (entries : List (String × α))
    (issues : List Issue) : Prop :=
  ∃ wrong : List (String × α), wrong.Perm (entries.filter fun entry => (issue? entry).isSome) ∧
    wrong.Pairwise (fun left right => left.1 ≤ right.1) ∧
    List.Forall₂ (fun entry issue => issue? entry = some issue) wrong issues

theorem lists_filterMap_sortByKey {α : Type} (issue? : String × α → Option Issue)
    (entries : List (String × α)) : Lists issue? entries ((sortByKey entries).filterMap issue?) := by
  refine ⟨(sortByKey entries).filter fun entry => (issue? entry).isSome, (sortByKey_perm _).filter _,
    (ordered_sortByKey _).sublist List.filter_sublist, ?_⟩
  induction sortByKey entries with
  | nil => exact .nil
  | cons entry rest inductionHypothesis =>
      cases found : issue? entry with
      | none =>
          rw [List.filter_cons_of_neg (by simp [found]), List.filterMap_cons_none found]
          exact inductionHypothesis
      | some issue =>
          rw [List.filter_cons_of_pos (by simp [found]), List.filterMap_cons_some found]
          exact .cons found inductionHypothesis

/-- A name is accepted exactly if it is an identifier, whatever its bytes.  A manifest becomes a plugin
exactly if it is valid, and then with its own keys; otherwise the issues are the missing name, then those
of the wrong constants and those of the wrong functions, one for each, both in the order of their names. -/
theorem manifest_check_is_exact :
    (∀ bytes, (∃ found, (Parsed.expression 0 (Lexeme.scan "" bytes)).tree = .var found ∧
        found.name.toUTF8.toList = bytes) ↔
      ∃ text, isIdentifier text = true ∧ text.toUTF8.toList = bytes) ∧
    (∀ text, isName text = isIdentifier text) ∧
    ∀ (manifest : Manifest) (store : Store),
      ((∃ plugin, (manifest.toPlugin.run store).1 = .ok plugin) ↔ manifest.IsValid) ∧
      (∀ plugin, (manifest.toPlugin.run store).1 = .ok plugin →
        (plugin.content.map Prod.fst).Perm (manifest.constants.map Prod.fst) ∧
          plugin.functions.Perm manifest.functions) ∧
      ∀ issues, (manifest.toPlugin.run store).1 = .error issues → ∃ constants functions,
        issues = (if manifest.name = "" then [.unnamed] else []) ++ constants ++ functions ∧
          Lists constantIssue? manifest.constants constants ∧
          Lists (functionIssue? (manifest.constants.map Prod.fst)) manifest.functions functions := by
  refine ⟨reads_as_name_iff 0, isName_eq_isIdentifier, fun manifest store => ?_⟩
  rw [← problems_eq_nil_iff]
  obtain ⟨accepted, refused⟩ := toPlugin_run manifest store
  by_cases sound : manifest.problems = []
  · obtain ⟨plugin, ran, constants, functions⟩ := accepted sound
    rw [ran]
    refine ⟨⟨fun _ => sound, fun _ => ⟨plugin, rfl⟩⟩, ?_, nofun⟩
    rintro _ ⟨⟩
    rw [constants, functions]
    exact ⟨(sortByKey_perm _).map _, sortByKey_perm _⟩
  · rw [refused sound]
    refine ⟨⟨nofun, fun none => absurd none sound⟩, nofun, ?_⟩
    rintro _ ⟨⟩
    exact ⟨_, _, by rw [problems]; simp only [beq_iff_eq], lists_filterMap_sortByKey _ _,
      lists_filterMap_sortByKey _ _⟩

end Manifest

end Reckon
