import Mathlib
import NoteRelay.Proofs.Settings.Files
import NoteRelay.Proofs.Settings.Reading
import NoteRelay.Proofs.Settings.Variables

/-!
# Which layer counts

Each field of loaded settings is what its variable says, or else what the file says at its path, or
else the default. Two maps at one path make one map, so that a field for which a map can stand is
read out of both (`Settings.load_precedence`). Nothing else in the file or the environment matters.
-/

namespace NoteRelay

-- ---------------------------------------------------------------------------
-- The layers at a field
-- ---------------------------------------------------------------------------

namespace Settings

open Environment (named? paths path? treeOfValue Clear)

namespace Leaf

def variableName (field : Leaf) : String :=
  "APP_" ++ "__".intercalate (field.path.map String.toUpper)

theorem path?_variableName (field : Leaf) : Environment.path? field.variableName = some field.path := by
  cases field <;> decide +kernel

theorem clear_path (field other : Leaf) : Clear field.path other.path := by
  cases field <;> cases other <;> decide

theorem path_ne_nil (field : Leaf) : field.path ≠ [] := by
  cases field <;> simp [path]

/-- What file and variables say of a field. -/
def said? (field : Leaf) (tree : Tree) (assigned : Environment.Variables) : Option Tree :=
  Tree.overlay (tree.at? field.path) (named? assigned field.path)

/-- A field is what is said of it, or else its default. -/
def Follows (field : Leaf) (s : Settings) : Option Tree → Prop
  | some tree => field.read tree = .ok (field.get s)
  | none => field.get s = field.get {}

theorem Follows.unique {field : Leaf} {s s' : Settings} {said : Option Tree}
    (h : field.Follows s said) (h' : field.Follows s' said) : field.get s = field.get s' := by
  cases said with
  | some tree => exact Except.ok.inj (h.symm.trans h')
  | none => exact h.trans h'.symm

theorem opens_defaultTree (field : Leaf) : defaultTree.Opens field.path := by
  cases field <;> simp [path, defaultTree, Tree.Opens, Table.lookup_cons]

theorem exists_default (field : Leaf) :
    ∃ t, defaultTree.at? field.path = some t ∧ ¬ t.IsTable ∧ field.read t = .ok (field.get {}) := by
  cases field <;> refine ⟨_, rfl, id, ?_⟩
  case port => exact Tree.toUInt16_whole _
  case tick => exact Tree.toUInt64_whole _
  case idleDeadline => exact Tree.toUInt64_whole _
  case channelCapacity => exact Tree.toUInt64_whole _
  case pollInterval => exact Tree.toUInt64_whole _
  case triesLimit => exact Tree.toUInt32_whole _
  all_goals rfl

end Leaf

/-- Sections are tables where the file has them, and every variable names a field or leads past all
of them, no two along the same path. -/
structure Orderly (file : Option SettingsFile) (assigned : Environment.Variables) : Prop where
  sections : ∀ tree, fileTree? file = some tree →
    ∀ name ∈ Leaf.sections, ∀ t, tree.at? [name] = some t → t.IsTable
  fields : ∀ named ∈ paths assigned, (∃ field : Leaf, named = field.path) ∨
    ∀ field : Leaf, ¬ named <+: field.path ∧ ¬ field.path <+: named
  distinct : (paths assigned).Nodup

section

variable {file : Option SettingsFile} {assigned : Environment.Variables} {tree : Tree}
  (h : Orderly file assigned)

include h

theorem Orderly.clear (field : Leaf) (named : List String) (hnamed : named ∈ paths assigned) :
    Clear field.path named := by
  obtain ⟨other, rfl⟩ | hpast := h.fields named hnamed
  · exact field.clear_path other
  · exact .inr (hpast field)

theorem Orderly.opens (htree : fileTree? file = some tree) (field : Leaf) :
    tree.Opens field.path := by
  obtain ⟨htable, hdistinct⟩ := distinct_fileTree? htree
  obtain ⟨entries, rfl⟩ := htable.exists_eq
  have hentries := Tree.distinct_table_iff.mp hdistinct
  obtain ⟨key, hpath⟩ | ⟨name, hname, key, hpath⟩ := field.path_cases
  · rw [hpath]
    exact ⟨hentries.nodup, fun t _ => Tree.opens_nil⟩
  · rw [hpath]
    refine ⟨hentries.nodup, fun t ht => ?_⟩
    obtain ⟨es, rfl⟩ := (h.sections _ htree name hname t (by simpa using ht)).exists_eq
    have hes := Tree.distinct_table_iff.mp (hentries.of_lookup ht)
    exact ⟨hes.nodup, fun t _ => Tree.opens_nil⟩

/-- What stands at a field in all layers is what is said of it, over a default that is no table. -/
theorem Orderly.exists_at? (htree : fileTree? file = some tree) (field : Leaf) (s : Settings) :
    ∃ t, ((defaultTree.merge tree).merge (Environment.tree assigned)).at? field.path = some t ∧
      (field.read t = .ok (field.get s) ↔ field.Follows s (field.said? tree assigned)) := by
  obtain ⟨hopens, hvariables⟩ :=
    Environment.at?_tree (h.clear field) h.distinct field.path_ne_nil
  obtain ⟨d, hd, hplain, hread⟩ := field.exists_default
  have hover (t : Tree) : d.merge t = t := Tree.merge_of_not_isTable fun hboth => hplain hboth.1
  rw [Tree.at?_merge hopens, hvariables, Tree.at?_merge (h.opens htree field), hd, Leaf.said?]
  cases tree.at? field.path with
  | none =>
    rw [Tree.overlay_none, Tree.none_overlay]
    cases named? assigned field.path with
    | none =>
      refine ⟨d, rfl, ?_⟩
      rw [hread, Except.ok.injEq]
      exact eq_comm
    | some v =>
      rw [Tree.overlay_some_some, hover]
      exact ⟨v, rfl, Iff.rfl⟩
  | some t =>
    rw [Tree.overlay_some_some, hover]
    cases named? assigned field.path with
    | none => exact ⟨t, rfl, Iff.rfl⟩
    | some v => exact ⟨t.merge v, rfl, Iff.rfl⟩

omit h in
theorem load_eq_ok_iff_ofTree (htree : fileTree? file = some tree) (s : Settings) :
    load file assigned = .ok s ↔
      ofTree ((defaultTree.merge tree).merge (Environment.tree assigned)) = .ok s ∧
        s.flaw? = none := by
  simp only [load, layers?, htree, Option.map_some]
  cases ofTree ((defaultTree.merge tree).merge (Environment.tree assigned)) with
  | error e => simp
  | ok settings =>
    cases hflaw : settings.flaw? with
    | none =>
      simp only [hflaw, Except.ok.injEq]
      constructor
      · rintro rfl
        exact ⟨rfl, hflaw⟩
      · exact And.left
    | some flaw =>
      simp only [hflaw, reduceCtorEq, Except.ok.injEq, false_iff]
      rintro ⟨rfl, hnone⟩
      simp [hflaw] at hnone

/-- Which settings are loaded: those that follow what is said of each field, if nothing is wrong
with them. -/
theorem load_eq_ok_iff (htree : fileTree? file = some tree) (s : Settings) :
    load file assigned = .ok s ↔
      (∀ field : Leaf, field.Follows s (field.said? tree assigned)) ∧ s.flaw? = none := by
  have hopens (field : Leaf) : Tree.Opens field.path
      ((defaultTree.merge tree).merge (Environment.tree assigned)) :=
    (field.opens_defaultTree.merge (h.opens htree field)).merge
      (Environment.at?_tree (h.clear field) h.distinct field.path_ne_nil).1
  choose leaves hleaves hreads using fun field => h.exists_at? htree field s
  rw [load_eq_ok_iff_ofTree htree, ofTree_eq_ok_iff leaves hopens hleaves, forall_congr' hreads]

end

-- ---------------------------------------------------------------------------
-- Which layer counts
-- ---------------------------------------------------------------------------

section

variable {file : Option SettingsFile} {assigned : Environment.Variables} {s : Settings}

def fileVariable : String :=
  "APP_CONFIG_FILE"

theorem path?_fileVariable : Environment.path? fileVariable = some ["config_file"] := by
  decide +kernel

def withoutFile (assigned : Environment.Variables) : Environment.Variables :=
  assigned.filter fun e => e.1 != fileVariable

theorem paths_withoutFile (assigned : Environment.Variables) :
    (paths (withoutFile assigned)).Sublist (paths assigned) :=
  List.filter_sublist.filterMap _

theorem Orderly.withoutFile (h : Orderly file assigned) : Orderly file (withoutFile assigned) where
  sections := h.sections
  fields named hnamed := h.fields named ((paths_withoutFile assigned).subset hnamed)
  distinct := h.distinct.sublist (paths_withoutFile assigned)

theorem named?_withoutFile (assigned : Environment.Variables) (field : Leaf) :
    named? (withoutFile assigned) field.path = named? assigned field.path := by
  have hother : field.path ≠ ["config_file"] := by
    cases field <;> simp [Leaf.path]
  induction assigned with
  | nil => rfl
  | cons e rest ih =>
    obtain ⟨name, value⟩ := e
    rw [← List.singleton_append, Environment.named?_append, ← ih]
    by_cases hname : name = fileVariable
    · subst hname
      rw [Environment.named?_singleton, path?_fileVariable,
        if_neg fun h => hother (Option.some.inj h).symm]
      simp [withoutFile]
    · rw [← Environment.named?_append]
      simp [withoutFile, hname]

theorem Leaf.said?_congr {assigned' : Environment.Variables} {tree tree' : Tree} {field : Leaf}
    (hnamed : named? assigned' field.path = named? assigned field.path)
    (hat : tree'.at? field.path = tree.at? field.path) :
    field.said? tree' assigned' = field.said? tree assigned := by
  rw [said?, said?, hnamed, hat]

theorem Leaf.read_of_named {tree above : Tree} {field : Leaf}
    (h : field.Follows s (field.said? tree assigned))
    (hnamed : named? assigned field.path = some above) :
    (∀ below, tree.at? field.path = some below → below.IsTable → above.IsTable →
      field.read (below.merge above) = .ok (field.get s)) ∧
    ((∀ below, tree.at? field.path = some below → ¬ (below.IsTable ∧ above.IsTable)) →
      field.read above = .ok (field.get s)) := by
  rw [said?, hnamed] at h
  refine ⟨fun below hbelow _ _ => by rwa [hbelow] at h, fun hplain => ?_⟩
  cases hat : tree.at? field.path with
  | none => rwa [hat] at h
  | some below =>
    rwa [hat, Tree.overlay_some_some, Tree.merge_of_not_isTable (hplain below hat)] at h

theorem Leaf.read_of_not_named {tree : Tree} {field : Leaf}
    (h : field.Follows s (field.said? tree assigned))
    (hnamed : ∀ e ∈ assigned, path? e.1 ≠ some field.path) :
    (∀ below, tree.at? field.path = some below → field.read below = .ok (field.get s)) ∧
      (tree.at? field.path = none → field.get s = field.get {}) := by
  rw [said?, Environment.named?_eq_none_iff.mpr hnamed, Tree.overlay_none] at h
  refine ⟨fun below hbelow => ?_, fun hnone => ?_⟩
  · rwa [hbelow] at h
  · rwa [hnone] at h

/-- Each field of loaded settings is what its variable says, or else what the file says at its path,
or else the default; but a map in a variable goes over a map of the file at the same path. Other
files and variables that say the same of a field set it the same, and load the same settings if they
say the same of all fields, whatever else is in them. Loaded settings have no flaw. -/
theorem load_precedence (horderly : Orderly file assigned) (hload : load file assigned = .ok s) :
    ∃ tree, fileTree? file = some tree ∧
      (∀ field : Leaf,
        (∀ name value, (name, value) ∈ assigned → path? name = some field.path →
          (∀ below, tree.at? field.path = some below → below.IsTable →
            (treeOfValue value).IsTable →
              field.read (below.merge (treeOfValue value)) = .ok (field.get s)) ∧
          ((∀ below, tree.at? field.path = some below →
            ¬ (below.IsTable ∧ (treeOfValue value).IsTable)) →
              field.read (treeOfValue value) = .ok (field.get s))) ∧
        ((∀ e ∈ assigned, path? e.1 ≠ some field.path) →
          (∀ below, tree.at? field.path = some below → field.read below = .ok (field.get s)) ∧
          (tree.at? field.path = none → field.get s = field.get {}))) ∧
      s.flaw? = none ∧
      (∀ file' assigned' tree', Orderly file' assigned' → fileTree? file' = some tree' →
        (∀ s', load file' assigned' = .ok s' → ∀ field : Leaf,
          named? assigned' field.path = named? assigned field.path →
          tree'.at? field.path = tree.at? field.path → field.get s' = field.get s) ∧
        ((∀ field : Leaf, named? assigned' field.path = named? assigned field.path ∧
          tree'.at? field.path = tree.at? field.path) → load file' assigned' = .ok s)) ∧
      load file (withoutFile assigned) = .ok s ∧
      ∀ field : Leaf, path? field.variableName = some field.path := by
  obtain ⟨tree, htree⟩ : ∃ tree, fileTree? file = some tree := by
    cases htree : fileTree? file with
    | some tree => exact ⟨tree, rfl⟩
    | none => simp [load, layers?, htree] at hload
  obtain ⟨hfollows, hflaw⟩ := (load_eq_ok_iff horderly htree s).mp hload
  refine ⟨tree, htree, fun field => ⟨fun name value hmem hname => ?_, fun hunset => ?_⟩, hflaw,
    fun file' assigned' tree' horderly' htree' => ⟨fun s' hload' field hnamed hat => ?_,
      fun hall => ?_⟩, ?_, Leaf.path?_variableName⟩
  · have hnamed := Environment.named?_of_mem horderly.distinct hmem hname
    exact Leaf.read_of_named (hfollows field) hnamed
  · exact Leaf.read_of_not_named (hfollows field) hunset
  · have hfield := ((load_eq_ok_iff horderly' htree' s').mp hload').1 field
    rw [Leaf.said?_congr hnamed hat] at hfield
    exact hfield.unique (hfollows field)
  · refine (load_eq_ok_iff horderly' htree' s).mpr ⟨fun field => ?_, hflaw⟩
    rw [Leaf.said?_congr (hall field).1 (hall field).2]
    exact hfollows field
  · refine (load_eq_ok_iff horderly.withoutFile htree s).mpr ⟨fun field => ?_, hflaw⟩
    rw [Leaf.said?_congr (named?_withoutFile assigned field) rfl]
    exact hfollows field

end

-- A file and variables that set some fields, one of them as a map in both.

def sampleFile : SettingsFile :=
  ⟨"app.json",
    "\x7b\"tier\":\x7b\"test\":null\x7d,\"server\":\x7b\"host\":\"h\",\"port\":1\x7d\x7d"⟩

def sampleVariables : Environment.Variables :=
  [("APP_TIER", "\x7bx=1\x7d"), ("APP_SERVER__PORT", "9000"), ("APP_CONFIG_FILE", "app.json")]

def sampleSettings : Settings :=
  { tier := .test, server := ⟨"h", 9000⟩ }

theorem fileTree?_sample : fileTree? (some sampleFile) =
    some (.table [("tier", .table [("test", .empty)]),
      ("server", .table [("host", .text "h"), ("port", .whole 1)])]) := by
  have hname : FileFormat.ofName sampleFile.name = .json := by decide +kernel
  have hjson : Json.ofText? sampleFile.content = some (.object [("tier", .object [("test", .null)]),
      ("server", .object [("host", .string "h"), ("port", .number "1")])]) := by cbv
  rw [fileTree?, hname, FileFormat.tree?, hjson]
  rfl

theorem treeOfValue_sample : treeOfValue "\x7bx=1\x7d" = .table [("x", .whole 1)] := by cbv

theorem treeOfValue_port : treeOfValue "9000" = .whole 9000 := by cbv

theorem path?_tier : path? "APP_TIER" = some ["tier"] := by decide +kernel

theorem path?_port : path? "APP_SERVER__PORT" = some ["server", "port"] := by decide +kernel

theorem paths_sample : paths sampleVariables = [["tier"], ["server", "port"], ["config_file"]] := by
  decide +kernel

theorem orderly_sample : Orderly (some sampleFile) sampleVariables where
  sections tree htree name hname t ht := by
    rw [fileTree?_sample, Option.some.injEq] at htree
    subst htree
    simp only [Leaf.sections, List.mem_cons, List.not_mem_nil, or_false] at hname
    obtain rfl | rfl | rfl | rfl | rfl | rfl := hname <;> cases ht
    trivial
  fields named hnamed := by
    rw [paths_sample] at hnamed
    simp only [List.mem_cons, List.not_mem_nil, or_false] at hnamed
    obtain rfl | rfl | rfl := hnamed
    · exact .inl ⟨.tier, rfl⟩
    · exact .inl ⟨.port, rfl⟩
    · exact .inr fun field => by cases field <;> decide
  distinct := by
    rw [paths_sample]
    decide

theorem load_sample : load (some sampleFile) sampleVariables = .ok sampleSettings := by
  rw [load_eq_ok_iff orderly_sample fileTree?_sample]
  refine ⟨fun field => ?_, rfl⟩
  cases field
  case tier =>
    have hnamed : named? sampleVariables ["tier"] = some (.table [("x", .whole 1)]) := by
      simp [named?, sampleVariables, path?_tier, treeOfValue_sample]
    have hmerged : (Tree.table [("test", .empty)]).merge (.table [("x", .whole 1)]) =
        .table [("test", .empty), ("x", .whole 1)] := by
      simp [Tree.merge_table_table, Tree.merge.mergeEntries, Tree.put, Table.lookup_cons]
    rw [Leaf.said?, Leaf.path, hnamed]
    show Leaf.tier.Follows sampleSettings
      (Tree.overlay (some (.table [("test", .empty)])) (some (.table [("x", .whole 1)])))
    rw [Tree.overlay_some_some, hmerged]
    show Tree.toChoice Tier.ofName? (.table [("test", .empty), ("x", .whole 1)]) = .ok Tier.test
    cbv
  case port =>
    have hnamed : named? sampleVariables ["server", "port"] = some (.whole 9000) := by
      simp [named?, sampleVariables, path?_tier, path?_port, treeOfValue_port]
    rw [Leaf.said?, Leaf.path, hnamed]
    exact Tree.toUInt16_whole 9000
  all_goals rfl

theorem load_precedence_sample :
    Leaf.port.read (treeOfValue "9000") = .ok (Leaf.port.get sampleSettings) ∧
      load (some sampleFile) (withoutFile sampleVariables) = .ok sampleSettings := by
  obtain ⟨tree, -, hfields, -, -, hwithout, -⟩ := load_precedence orderly_sample load_sample
  refine ⟨?_, hwithout⟩
  refine ((hfields .port).1 "APP_SERVER__PORT" "9000" (by decide) path?_port).2 ?_
  rintro below - ⟨-, htable⟩
  rw [treeOfValue_port] at htable
  exact htable

/-- A variable's value does not always count alone: this one is no tier at all. -/
theorem not_variable_alone :
    ¬ ∀ (file : Option SettingsFile) (assigned : Environment.Variables) (s : Settings),
      Orderly file assigned → load file assigned = .ok s →
      ∀ (field : Leaf) (name value : String), (name, value) ∈ assigned →
        path? name = some field.path → field.read (treeOfValue value) = .ok (field.get s) := by
  intro h
  have hread : Tree.toChoice Tier.ofName? (treeOfValue "\x7bx=1\x7d") = .ok Tier.test :=
    h (some sampleFile) sampleVariables sampleSettings orderly_sample load_sample .tier "APP_TIER" _
      List.mem_cons_self path?_tier
  have hrefused : Tree.toChoice Tier.ofName? (.table [("x", .whole 1)]) =
      .error ⟨.unknownVariant, []⟩ := by cbv
  rw [treeOfValue_sample, hrefused] at hread
  cases hread

end Settings

end NoteRelay
