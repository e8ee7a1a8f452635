import BasicOutline.Proofs.NumeralReading
import BasicOutline.Proofs.OutlineFailure
import BasicOutline.Proofs.RepositoryWalk
import BasicOutline.Proofs.TreeShape

/-! Reports on the source files below a directory.

Each file is outlined by itself, so that a file changes what is said about it and nothing else. The
summary of a report counts over all records at once; these counts are the sums of those in the
summaries of the files, as a file that could not be outlined adds nothing to either. -/

namespace BasicOutline

open Text

namespace Report

def Counts.sum : List Counts → Counts
  | [] => ⟨0, 0, 0⟩
  | first :: rest =>
    ⟨first.classes + (sum rest).classes, first.functions + (sum rest).functions,
      first.fields + (sum rest).fields⟩

def Counts.records (counts : Counts) : Nat := counts.classes + counts.functions + counts.fields

section Counting

theorem countOf_append (kind : Kind) (first second : List Record) :
    countOf kind (first ++ second) = countOf kind first + countOf kind second := by
  simp only [countOf, List.filter_append, List.length_append]

theorem records_ofRecords (records : List Record) :
    (Counts.ofRecords records).records = records.length := by
  induction records with
  | nil => rfl
  | cons record rest ih =>
    have split : ∀ kind, countOf kind (record :: rest) =
        (if record.kind = kind then 1 else 0) + countOf kind rest := by
      intro kind
      by_cases same : record.kind = kind
      · simp [countOf, same, Nat.add_comm]
      · simp [countOf, same]
    simp only [Counts.records, Counts.ofRecords] at ih
    simp only [Counts.records, Counts.ofRecords, split, List.length_cons, ← ih]
    cases record.kind <;> simp <;> omega

/-- Counting over several lists of records adds up the counts of each, and those without records
may be left out. -/
theorem ofRecords_flatMap {α : Type} (records : α → List Record) (keep : α → Bool) (items : List α)
    (none_lost : ∀ item ∈ items, keep item = false → records item = []) :
    Counts.ofRecords (items.flatMap records) =
      Counts.sum ((items.filter keep).map fun item => Counts.ofRecords (records item)) := by
  induction items with
  | nil => rfl
  | cons item rest ih =>
    have later := ih fun other member => none_lost other (List.mem_cons_of_mem item member)
    rw [List.flatMap_cons]
    by_cases kept : keep item = true
    · rw [List.filter_cons_of_pos kept, List.map_cons, Counts.sum, ← later]
      simp only [Counts.ofRecords, countOf_append]
    · rw [List.filter_cons_of_neg kept, none_lost item List.mem_cons_self (by simpa using kept),
        List.nil_append, later]

end Counting

section Describing

theorem FileOutline.failed_of_error {file : FileOutline} {failure : Outline.Failure}
    (error : file.error = some failure.describe) : file.failed = true := by
  simp [failed, error, failure.describe_ne_nil]

theorem FileOutline.summarize_of_error {file : FileOutline} {failure : Outline.Failure}
    (error : file.error = some failure.describe) :
    file.summarize = "File ".toList ++ file.relativePath ++ ": ".toList ++
      ("not outlined (".toList ++ failure.describe ++ ")".toList) := by
  unfold summarize
  rw [if_pos (failed_of_error error), error, Option.getD_some]

theorem natDigits_append_inj {first second : Nat} {rest more : Text}
    (same : natDigits first ++ ' ' :: rest = natDigits second ++ ' ' :: more) :
    first = second ∧ rest = more := by
  have digits : ∀ n, ∀ c ∈ natDigits n, c.isDigit = true :=
    fun n => forall_mem_natDigits (by decide) n
  have stop : ∀ after : Text, ∀ c, (' ' :: after).head? = some c → c.isDigit = false := by
    intro after c head
    rw [← Option.some.inj head]
    decide
  have numbers := congrArg (List.takeWhile Char.isDigit) same
  have texts := congrArg (List.dropWhile Char.isDigit) same
  rw [takeWhile_append_stop (digits first) (stop rest),
    takeWhile_append_stop (digits second) (stop more)] at numbers
  rw [dropWhile_append_stop (digits first) (stop rest),
    dropWhile_append_stop (digits second) (stop more)] at texts
  refine ⟨?_, (List.cons.inj texts).2⟩
  rw [← digitsOf_natDigits first, numbers, digitsOf_natDigits]

theorem Counts.describe_injective {first second : Counts}
    (same : first.describe = second.describe) : first = second := by
  simp only [Counts.describe, List.append_assoc] at same
  obtain ⟨classes, after⟩ := natDigits_append_inj same
  obtain ⟨functions, behind⟩ := natDigits_append_inj (List.append_cancel_left after)
  obtain ⟨fields, -⟩ := natDigits_append_inj (List.append_cancel_left behind)
  cases first
  cases second
  rw [Counts.mk.injEq]
  exact ⟨classes, functions, fields⟩

end Describing

/-- The counts that the summaries of the outlined files show. -/
def Shows (report : Report) (own : FileOutline → Counts) : Prop :=
  ∀ file ∈ report.files, file.error = none →
    file.summary = "File ".toList ++ file.relativePath ++ ": ".toList ++ (own file).describe

/-- The summary of a report counts its files and those with an error, and adds up the counts of the
others. -/
structure AddsUp (report : Report) (own : FileOutline → Counts) : Prop where
  summary_eq : report.summary = "Repository at ".toList ++ report.root ++ ": ".toList ++
    natDigits report.files.length ++ " source files (".toList ++
    natDigits (report.files.filter fun file => file.error.isSome).length ++
    " unreadable), ".toList ++
    (Counts.sum ((report.files.filter fun file => file.error.isNone).map own)).describe
  records_eq : (Counts.sum ((report.files.filter fun file => file.error.isNone).map own)).records =
    (report.files.flatMap FileOutline.records).length

end Report

namespace Repository

open Report

structure Outlines (fs : FileSystem) (settings : Settings) (source : SourceFile)
    (file : FileOutline) : Prop where
  path_eq : file.path = source.path
  relativePath_eq : file.relativePath = source.relativePath
  language_eq : file.language = source.language.name
  of_ok : ∀ records, Outline.ofFile fs settings source.path = .ok records →
    file.records = records ∧ file.error = none
  of_error : ∀ failure, Outline.ofFile fs settings source.path = .error failure →
    file.records = [] ∧ file.error = some failure.describe
  error_iff : file.error.isSome = true ↔ Outline.Fails fs settings source.path
  not_outlined : ∀ error, file.error = some error → file.records = [] ∧
    file.summary = "File ".toList ++ file.relativePath ++ ": ".toList ++
      ("not outlined (".toList ++ error ++ ")".toList)

structure AgreeBut (fs : FileSystem) (place : List Text) (first second : FileOutline) : Prop where
  path_eq : second.path = first.path
  relativePath_eq : second.relativePath = first.relativePath
  language_eq : second.language = first.language
  eq_of_away : fs.placeOf first.path ≠ place → second = first

section Files

variable {fs : FileSystem} {settings : Settings} {source : SourceFile}

theorem outlineFile_of_ok {records : List Record}
    (outlined : Outline.ofFile fs settings source.path = .ok records) :
    outlineFile fs settings source =
      { path := source.path, relativePath := source.relativePath,
        language := source.language.name, records := records,
        summary := "File ".toList ++ source.relativePath ++ ": ".toList ++
          (Counts.ofRecords records).describe } := by
  rw [outlineFile, outlined]
  rfl

theorem outlineFile_of_error {failure : Outline.Failure}
    (failed : Outline.ofFile fs settings source.path = .error failure) :
    outlineFile fs settings source =
      { path := source.path, relativePath := source.relativePath,
        language := source.language.name, error := some failure.describe,
        summary := "File ".toList ++ source.relativePath ++ ": ".toList ++
          ("not outlined (".toList ++ failure.describe ++ ")".toList) } := by
  simp only [outlineFile, failed]
  rw [FileOutline.summarize_of_error rfl]

theorem outlines_outlineFile (fs : FileSystem) (settings : Settings) (source : SourceFile) :
    Outlines fs settings source (outlineFile fs settings source) := by
  cases outcome : Outline.ofFile fs settings source.path with
  | ok records =>
    have succeeds : ¬ Outline.Fails fs settings source.path := by
      intro fails
      obtain ⟨failure, failed⟩ := Outline.ofFile_fails_iff.mpr fails
      rw [outcome] at failed
      cases failed
    rw [outlineFile_of_ok outcome]
    refine ⟨rfl, rfl, rfl, ?_, ?_, ?_, nofun⟩
    · intro listed same
      rw [outcome] at same
      exact ⟨Except.ok.inj same, rfl⟩
    · intro failure failed
      rw [outcome] at failed
      cases failed
    · exact ⟨nofun, fun fails => absurd fails succeeds⟩
  | error failure =>
    have fails := Outline.ofFile_fails_iff.mp ⟨failure, outcome⟩
    rw [outlineFile_of_error outcome]
    refine ⟨rfl, rfl, rfl, ?_, ?_, ?_, ?_⟩
    · intro listed same
      rw [outcome] at same
      cases same
    · intro reason same
      rw [outcome] at same
      exact ⟨rfl, by rw [Except.error.inj same]⟩
    · exact ⟨fun _ => fails, fun _ => rfl⟩
    · intro error same
      exact ⟨rfl, by rw [← Option.some.inj same]⟩

end Files

section Isolation

mutual

theorem listing_shape (node : Node) : listing node.shape = listing node := by
  match node with
  | .file _ => rfl
  | .directory entries =>
    have own : ownFiles (Node.shapes entries) = ownFiles entries := by
      rw [ownFiles, Node.shapes_eq_map, ← map_sortByName, List.filterMap_map, ownFiles]
      congr 1
      funext (name, node)
      cases node <;> rfl
    rw [Node.shape, listing, listing, own, listings_shapes entries]

theorem listings_shapes (entries : List (Text × Node)) :
    listings (Node.shapes entries) = listings entries := by
  match entries with
  | [] => rfl
  | (name, node) :: rest =>
    rw [Node.shapes, listings, listings, listing_shape node, listings_shapes rest]

end

variable {fs other : FileSystem}

theorem files_shape (root : Text) : files fs.shape root = files fs root := by
  cases rooted : fs.entries? root with
  | none =>
    simp only [files, FileSystem.entries?_shape, rooted, Option.map_none]
    rfl
  | some entries =>
    have shaped : fs.shape.entries? root = some (Node.shapes entries) := by
      rw [FileSystem.entries?_shape, rooted, Option.map_some]
    have listed := listing_shape (.directory entries)
    rw [Node.shape] at listed
    rw [files_eq_map_listing shaped, files_eq_map_listing rooted, listed]
    rfl

theorem outlineFile_eq_of_readBytes (settings : Settings) {source : SourceFile}
    (same : fs.readBytes source.path = other.readBytes source.path) :
    outlineFile fs settings source = outlineFile other settings source := by
  have outlined : Outline.ofFile fs settings source.path =
      Outline.ofFile other settings source.path := by
    simp only [Outline.ofFile, FileSystem.readLines, FileSystem.readText, same]
  rw [outlineFile, outlined, outlineFile]

theorem nodup_places (formed : (Node.directory fs.root).WellFormed) (root : Text) :
    ((files fs root).map fun source => fs.placeOf source.path).Nodup := by
  cases rooted : fs.entries? root with
  | none =>
    simp only [files, rooted]
    exact .nil
  | some entries =>
    have leads := FileSystem.entries?_eq_some_iff.mp rooted
    have sound := formed.of_at? (FileSystem.at?_placeOf leads)
    obtain ⟨nonempty, -, -⟩ := FileSystem.descend_of_find leads
    have place : ∀ listed ∈ listing (.directory entries),
        fs.placeOf (Path.joinNames root listed.1) = fs.placeOf root ++ listed.1 := by
      intro listed member
      have source := (mem_listing_iff sound).mp member
      have down := source.ne_nil
      obtain ⟨_, _, _, _, stands, _⟩ := source
      exact FileSystem.placeOf_joinNames nonempty (Node.named_of_at? sound stands) down
    have places : (files fs root).map (fun source => fs.placeOf source.path) =
        (listing (.directory entries)).map fun listed => fs.placeOf root ++ listed.1 := by
      rw [files_eq_map_listing rooted, List.map_map]
      exact List.map_congr_left place
    rw [places]
    exact nodup_map_listing sound fun _ _ same => List.append_cancel_left same

/-- Where only the file at a place differs, only what is said about that file does. -/
theorem forall₂_report {place : List Text} (alike : fs.AlikeBut place other) (settings : Settings)
    (root : Text) :
    List.Forall₂ (AgreeBut fs place) (report fs settings root).files
      (report other settings root).files := by
  have same : files other root = files fs root := by
    rw [← files_shape, ← alike.shape_eq, files_shape]
  simp only [report, same, List.forall₂_map_left_iff, List.forall₂_map_right_iff]
  apply List.forall₂_same.mpr
  intro source _
  have one := outlines_outlineFile fs settings source
  have two := outlines_outlineFile other settings source
  constructor
  · rw [one.path_eq, two.path_eq]
  · rw [one.relativePath_eq, two.relativePath_eq]
  · rw [one.language_eq, two.language_eq]
  · intro away
    rw [one.path_eq] at away
    exact (outlineFile_eq_of_readBytes settings (alike.readBytes_eq away)).symm

end Isolation

section Totals

variable {fs : FileSystem} {settings : Settings} {root : Text}

theorem outlines_of_mem {file : FileOutline} (member : file ∈ (report fs settings root).files) :
    ∃ source, file = outlineFile fs settings source ∧ Outlines fs settings source file := by
  obtain ⟨source, -, same⟩ := List.mem_map.mp member
  rw [← same]
  exact ⟨source, rfl, outlines_outlineFile fs settings source⟩

theorem shows_ofRecords :
    Shows (report fs settings root) fun file => Counts.ofRecords file.records := by
  intro file member fine
  obtain ⟨source, same, outlines⟩ := outlines_of_mem member
  cases outcome : Outline.ofFile fs settings source.path with
  | ok records => rw [same, outlineFile_of_ok outcome]
  | error failure =>
    rw [(outlines.of_error failure outcome).2] at fine
    cases fine

theorem failed_eq_isSome {file : FileOutline} (member : file ∈ (report fs settings root).files) :
    file.failed = file.error.isSome := by
  obtain ⟨source, -, outlines⟩ := outlines_of_mem member
  cases outcome : Outline.ofFile fs settings source.path with
  | ok records => rw [FileOutline.failed, (outlines.of_ok records outcome).2, Option.isSome_none]
  | error failure =>
    have error := (outlines.of_error failure outcome).2
    rw [FileOutline.failed_of_error error, error, Option.isSome_some]

theorem eq_ofRecords_of_shows {own : FileOutline → Counts}
    (shows : Shows (report fs settings root) own) {file : FileOutline}
    (member : file ∈ (report fs settings root).files) (fine : file.error = none) :
    own file = Counts.ofRecords file.records := by
  have told := shows file member fine
  rw [shows_ofRecords file member fine] at told
  exact (Counts.describe_injective (List.append_cancel_left told)).symm

theorem records_eq_nil_of_error {file : FileOutline}
    (member : file ∈ (report fs settings root).files) (failed : file.error ≠ none) :
    file.records = [] := by
  obtain ⟨source, -, outlines⟩ := outlines_of_mem member
  obtain ⟨said, error⟩ := Option.ne_none_iff_exists'.mp failed
  exact (outlines.not_outlined said error).1

theorem ofRecords_report {own : FileOutline → Counts}
    (shows : Shows (report fs settings root) own) :
    Counts.ofRecords ((report fs settings root).files.flatMap FileOutline.records) =
      Counts.sum (((report fs settings root).files.filter fun file => file.error.isNone).map
        own) := by
  rw [ofRecords_flatMap FileOutline.records fun file => file.error.isNone]
  · congr 1
    apply List.map_congr_left
    intro file member
    obtain ⟨listed, fine⟩ := List.mem_filter.mp member
    exact (eq_ofRecords_of_shows shows listed (Option.isNone_iff_eq_none.mp fine)).symm
  · intro file member failed
    apply records_eq_nil_of_error member
    intro fine
    rw [fine] at failed
    cases failed

theorem addsUp_of_shows {own : FileOutline → Counts}
    (shows : Shows (report fs settings root) own) : AddsUp (report fs settings root) own := by
  have unreadable : (report fs settings root).files.filter FileOutline.failed =
      (report fs settings root).files.filter fun file => file.error.isSome := by
    apply List.filter_congr
    intro file member
    exact failed_eq_isSome member
  constructor
  · rw [← ofRecords_report shows, ← unreadable]
    rfl
  · rw [← ofRecords_report shows, records_ofRecords]

end Totals

/-- Every source file is outlined by itself, whatever the others hold, so that one file decides on
one outline only. The summary of the report adds up what the summaries of the files say. -/
theorem report_isolated_and_counted (fs : FileSystem) (settings : Settings) (root : Text) :
    List.Forall₂ (Outlines fs settings) (files fs root) (report fs settings root).files ∧
    (∀ place other, fs.AlikeBut place other → List.Forall₂ (AgreeBut fs place)
      (report fs settings root).files (report other settings root).files) ∧
    ((Node.directory fs.root).WellFormed →
      ((report fs settings root).files.map fun file => fs.placeOf file.path).Nodup) ∧
    (∃ own, Shows (report fs settings root) own) ∧
    ∀ own, Shows (report fs settings root) own → AddsUp (report fs settings root) own := by
  refine ⟨?_, ?_, ?_, ⟨_, shows_ofRecords⟩, ?_⟩
  · rw [report, List.forall₂_map_right_iff]
    apply List.forall₂_same.mpr
    intro source _
    exact outlines_outlineFile fs settings source
  · intro place other alike
    exact forall₂_report alike settings root
  · intro formed
    have places : (report fs settings root).files.map (fun file => fs.placeOf file.path) =
        (files fs root).map fun source => fs.placeOf source.path := by
      rw [report, List.map_map]
      apply List.map_congr_left
      intro source _
      rw [Function.comp_apply, (outlines_outlineFile fs settings source).path_eq]
    rw [places]
    exact nodup_places formed root
  · intro own shows
    exact addsUp_of_shows shows

/-- A file whose bytes are not those of a text is mended beside another file. -/
theorem report_isolated_around_unreadable :
    let code := "Class A\nDim x\nSub F()".toList
    let disk (content : Utf8.Bytes) : FileSystem :=
      ⟨[("b.bas".toList, .file content), ("a.vb".toList, .file (Utf8.encode code))], "/".toList⟩
    let broken := disk [255]
    let mended := disk (Utf8.encode "Dim y".toList)
    let root := "/".toList
    let place := ["b.bas".toList]
    broken.AlikeBut place mended ∧
      List.Forall₂ (AgreeBut broken place) (report broken {} root).files
        (report mended {} root).files ∧
      Shows (report broken {} root) (fun _ => ⟨1, 1, 1⟩) ∧
      AddsUp (report broken {} root) (fun _ => ⟨1, 1, 1⟩) ∧
      (Node.directory broken.root).WellFormed ∧
      ((report broken {} root).files.map fun file => broken.placeOf file.path).Nodup ∧
      (report broken {} root).files.map
          (fun file => (broken.placeOf file.path, file.error.isSome)) =
        [(["a.vb".toList], false), (place, true)] := by
  intro code disk broken mended root place
  have alike : broken.AlikeBut place mended := by
    refine ⟨⟨rfl, ?_⟩, rfl⟩
    intro names content away stands
    cases names with
    | nil => cases stands
    | cons name rest =>
      by_cases own : name = "b.bas".toList
      · cases rest with
        | nil => exact absurd (congrArg (· :: []) own) away
        | cons next more =>
          rw [own] at stands
          cases stands
      · have passed : ¬ (name == "b.bas".toList) = true := fun same => own (eq_of_beq same)
        rw [Node.at?, lookup_cons_eq_ite, if_neg passed] at stands ⊢
        exact stands
  have rooted : broken.entries? root = some broken.root := rfl
  have sources : files broken root = [⟨"/a.vb".toList, "a.vb".toList, .vbNet⟩,
      ⟨"/b.bas".toList, "b.bas".toList, .vb6⟩] := by
    rw [files_eq_map_listing rooted]
    simp [broken, disk, listing, listings, ownFiles, ownFile?, sortByName, Text.le,
      List.mergeSort, List.MergeSort.Internal.splitInTwo, skippedNames]
    decide
  have shown : Shows (report broken {} root) fun _ => ⟨1, 1, 1⟩ := by
    rw [Shows, report, sources]
    decide +kernel
  have formed : (Node.directory broken.root).WellFormed := by
    refine .directory (by decide) (by decide) ?_
    exact List.forall_mem_cons.mpr ⟨.file _, List.forall_mem_singleton.mpr (.file _)⟩
  obtain ⟨-, isolated, distinct, -, counted⟩ := report_isolated_and_counted broken {} root
  refine ⟨alike, isolated place mended alike, shown, counted _ shown, formed, distinct formed, ?_⟩
  rw [report, sources]
  decide +kernel

end Repository

end BasicOutline
