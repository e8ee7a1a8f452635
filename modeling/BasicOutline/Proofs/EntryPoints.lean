import BasicOutline.Proofs.AskedSettings
import BasicOutline.Proofs.PathCharacters
import BasicOutline.Proofs.PrintedJson
import BasicOutline.Proofs.PrintedOutline
import BasicOutline.Proofs.ServiceRequests

/-! The command line and the service agree.

Switches and the fields of a request lead to the scanner on two ways: the ones by overrides that are
flattened and merged, the others by a text of JSON that is sent, read back and checked. Both end
with the same settings or turn the same level down. Then the value that is answered is the value
that a reader of the printed JSON gets, and it holds the records or the report. -/

namespace BasicOutline.CommandLine

section Running

variable {fs : FileSystem} {arguments : List Text} {verbose : Bool} {path : Text}
  {choice : SettingsChoice}

theorem run_of_scan {settings : Settings}
    (asked : invocation arguments = .ok ⟨verbose, .scan path choice⟩)
    (loaded : loadSettings fs choice = .ok settings) :
    run fs arguments = runScan fs verbose path settings := by
  simp only [run, asked, runCommand, withSettings, loaded]

theorem runScan_of_not_mem {settings : Settings} (whole : '\x00' ∉ fs.absolute path) :
    runScan fs false path settings =
      { output := jsonLines (Repository.report fs settings (fs.absolute path)).toJson } := by
  have listed : Repository.checkRoot (fs.absolute path) = .ok () := by
    rw [Repository.checkRoot, if_neg (by simpa using whole)]
  rw [runScan]
  simp only [listed]
  rfl

end Running

open Service (Posts handle Response Fault)

/-- A request that is not turned down for what it asks. -/
def Accepted (answered : Except Fault Response) : Prop :=
  ∃ response, answered = .ok response ∧ response.status ≠ 422

/-- The service answers with the records that the command prints, as JSON and as entries. -/
structure OutlinesAgree (fs : FileSystem) (asked : Asked) (path : Text) (printed listed : Outcome)
    (answered : Except Fault Response) : Prop where
  accepted_iff : Accepted answered ↔ asked.Valid
  printed_iff : printed.exitCode ≠ 2 ↔ asked.Valid
  listed_iff : listed.exitCode ≠ 2 ↔ asked.Valid
  same : asked.Valid →
    let records := Outline.records fs asked.settings path
    let value := Json.list (records.map Record.toJson)
    answered = .ok ⟨200, some (.object
      [("path".toList, .text path),
        ("entries".toList, .list (records.map fun record => .text record.toEntry)),
        ("records".toList, value)])⟩ ∧
    printed.output.splitOn '\n' = records.map Record.toEntry ++ [[]] ∧
    Holds (Validation.list Validation.record) records records value listed.output

def PrintsReport (printed : Outcome) (report : Report) : Prop :=
  printed = { output := printed.output } ∧
    Holds Validation.report report (report.files.flatMap (·.records)) report.toJson printed.output

/-- The service answers with the report that the command prints, if there is a directory. -/
structure ScansAgree (fs : FileSystem) (asked : Asked) (path : Text) (printed : Outcome)
    (answered : Except Fault Response) : Prop where
  accepted_iff : Accepted answered ↔ asked.Valid
  printed_iff : printed.exitCode ≠ 2 ↔ asked.Valid
  same : asked.Valid → (fs.entries? (fs.absolute path)).isSome = true →
    let report := Repository.report fs asked.settings (fs.absolute path)
    answered = .ok ⟨200, some report.toJson⟩ ∧ PrintsReport printed report
  apart : asked.Valid → fs.entries? (fs.absolute path) = none →
    let report := Repository.report fs asked.settings (fs.absolute path)
    answered = .ok ⟨400, some (Service.detail (.text
      ("Invalid root_path: ".toList ++ fs.absolute path)))⟩ ∧
    PrintsReport printed report ∧ report.files = []

section Agreement

variable (fs : FileSystem) {asked : Asked} {path : Text}

theorem run_outline (short : asked.Short) (plain : path.head? ≠ some '-') {json : Bool}
    {arguments : List Text}
    (spelled : Spells "outline".toList (asked.allSwitches json) path arguments) :
    (asked.Valid → run fs arguments = runOutline fs false path json asked.settings) ∧
      ∀ issue, asked.issue? = some issue → (run fs arguments).exitCode = 2 := by
  have invoked := invocation_outline short plain spelled
  constructor
  · intro valid
    exact run_of_outline invoked (Asked.loadSettings_of_valid valid fs)
  · intro issue found
    obtain ⟨error, failed⟩ := Asked.exists_loadSettings_error found fs
    simp only [run, invoked, runCommand, withSettings, failed]
    rfl

theorem run_scan (short : asked.Short) (plain : path.head? ≠ some '-')
    {arguments : List Text} (whole : '\x00' ∉ fs.absolute path)
    (spelled : Spells "scan".toList asked.switches path arguments) :
    (asked.Valid → run fs arguments =
      { output := jsonLines (Repository.report fs asked.settings (fs.absolute path)).toJson }) ∧
      ∀ issue, asked.issue? = some issue → (run fs arguments).exitCode = 2 := by
  have invoked := invocation_scan short plain spelled
  constructor
  · intro valid
    rw [run_of_scan invoked (Asked.loadSettings_of_valid valid fs), runScan_of_not_mem whole]
  · intro issue found
    obtain ⟨error, failed⟩ := Asked.exists_loadSettings_error found fs
    simp only [run, invoked, runCommand, withSettings, failed]
    rfl

theorem handle_asked (short : asked.Short) {route : Service.Route} {request : Service.Request}
    (posted : Posts route path asked.fields request) :
    (asked.Valid → handle fs request = .ok (Service.respond fs path asked.settings route)) ∧
      ∀ issue, asked.issue? = some issue → ∃ body, handle fs request = .ok ⟨422, body⟩ := by
  have handled := Service.handle_of_posts fs asked.flat_fields.distinct
    (Asked.readable_fields short) posted
  rw [handled]
  constructor
  · intro valid
    rw [asked.check_fields.1 valid]
  · intro issue found
    rw [asked.check_fields.2 issue found]
    obtain ⟨level, -, rfl⟩ := Asked.exists_level_of_issue? found
    exact ⟨_, rfl⟩

theorem accepted_iff (short : asked.Short) {route : Service.Route} {request : Service.Request}
    (posted : Posts route path asked.fields request) :
    Accepted (handle fs request) ↔ asked.Valid := by
  obtain ⟨answered, refused⟩ := handle_asked fs short posted
  apply Asked.iff_valid
  · intro valid
    refine ⟨_, answered valid, ?_⟩
    cases route with
    | outline => exact (by decide : 200 ≠ 422)
    | scan =>
      rw [Service.respond, Service.scanResponse]
      split <;> nofun
  · rintro issue found ⟨response, taken, other⟩
    obtain ⟨body, answer⟩ := refused issue found
    rw [answer] at taken
    exact other (congrArg Response.status (Except.ok.inj taken)).symm

theorem exitCode_iff {outcome : Outcome} (done : asked.Valid → outcome.exitCode = 0)
    (failed : ∀ issue, asked.issue? = some issue → outcome.exitCode = 2) :
    outcome.exitCode ≠ 2 ↔ asked.Valid := by
  apply Asked.iff_valid
  · intro valid
    rw [done valid]
    decide
  · intro issue found
    exact not_not.mpr (failed issue found)

theorem outlines_agree (short : asked.Short) (plain : path.head? ≠ some '-')
    {printing listing : List Text} {request : Service.Request}
    (print : Spells "outline".toList (asked.allSwitches false) path printing)
    (list : Spells "outline".toList (asked.allSwitches true) path listing)
    (post : Posts .outline path asked.fields request) :
    OutlinesAgree fs asked path (run fs printing) (run fs listing) (handle fs request) := by
  obtain ⟨printed, no_print⟩ := run_outline fs short plain print
  obtain ⟨listed, no_list⟩ := run_outline fs short plain list
  obtain ⟨answered, -⟩ := handle_asked fs short post
  refine ⟨accepted_iff fs short post, exitCode_iff ?_ no_print, exitCode_iff ?_ no_list, ?_⟩
  · intro valid
    rw [printed valid]
    rfl
  · intro valid
    rw [listed valid]
    rfl
  · intro valid records
    rw [answered valid, printed valid, listed valid]
    refine ⟨rfl, ?_, holds_records records⟩
    exact splitOn_entryLines fun record member => (Outline.unbroken_of_mem_records member).1

theorem scans_agree (short : asked.Short) (plain : path.head? ≠ some '-')
    (whole : '\x00' ∉ fs.absolute path) {scanning : List Text} {request : Service.Request}
    (scan : Spells "scan".toList asked.switches path scanning)
    (post : Posts .scan path asked.fields request) :
    ScansAgree fs asked path (run fs scanning) (handle fs request) := by
  obtain ⟨scanned, no_scan⟩ := run_scan fs short plain whole scan
  obtain ⟨answered, -⟩ := handle_asked fs short post
  refine ⟨accepted_iff fs short post, exitCode_iff ?_ no_scan, ?_, ?_⟩
  · intro valid
    rw [scanned valid]
  · intro valid there report
    rw [scanned valid]
    refine ⟨?_, rfl, holds_report report⟩
    rw [answered valid, Service.respond, Service.scanResponse, if_pos there]
  · intro valid absent report
    have no_directory : ¬(fs.entries? (fs.absolute path)).isSome = true := by simp [absent]
    rw [scanned valid]
    refine ⟨?_, ⟨rfl, holds_report report⟩, ?_⟩
    · rw [answered valid, Service.respond, Service.scanResponse, if_neg no_directory]
    · simp [report, Repository.report, Repository.files, absent]

end Agreement

/-- What is asked on the command line and of the service comes to the same, in whatever order the
switches and the fields stand. The null character is in no path, and so not in the working directory
either. -/
theorem commands_agree_with_service {fs : FileSystem} {asked : Asked} {path : Text}
    {printing listing scanning : List Text} {outlining reporting : Service.Request}
    (rooted : '\x00' ∉ fs.workingDirectory) (short : asked.Short)
    (plain : path.head? ≠ some '-') (whole : '\x00' ∉ path)
    (print : Spells "outline".toList asked.switches path printing)
    (list : Spells "outline".toList (["--json".toList] :: asked.switches) path listing)
    (scan : Spells "scan".toList asked.switches path scanning)
    (outline : Posts .outline path asked.fields outlining)
    (report : Posts .scan path asked.fields reporting) :
    OutlinesAgree fs asked path (run fs printing) (run fs listing) (handle fs outlining) ∧
      ScansAgree fs asked path (run fs scanning) (handle fs reporting) := by
  have inside : '\x00' ∉ fs.absolute path := by
    intro member
    rcases Path.mem_absolute member with above | own | other
    · exact rooted above
    · exact whole own
    · exact absurd other (by decide)
  exact ⟨outlines_agree fs short plain print list outline,
    scans_agree fs short plain inside scan report⟩

/-- An indented field of a procedure, as entries, as JSON and in a report, and a scan of what is no
directory. The switches and the fields stand in other orders. -/
theorem commands_agree_with_service_of_field :
    let content := "Sub F(a)\nDim x\nEnd Sub".toList
    let fs : FileSystem :=
      ⟨[("w".toList, .directory [("a.vb".toList, .file (Utf8.encode content))])], "/w".toList⟩
    let settings : Json :=
      .object [("UseStandardIndent".toList, .bool true), ("ShowParameters".toList, .bool true),
        ("StandardIndentLevel".toList, .int 3)]
    let request (target key path : String) : Service.Request :=
      ⟨"POST".toList, target.toList,
        .json (.object [("settings".toList, settings), (key.toList, .text path.toList)])⟩
    let arguments (command path : String) :=
      [command, "--standard-indent", "3", path, "--show-parameters"].map String.toList
    let listing :=
      ["outline", "--json", "--show-parameters", "--standard-indent", "3", "a.vb"].map String.toList
    let records : List Record :=
      [⟨"Sub F(a)".toList, 1, .function⟩, ⟨"   Dim x".toList, 2, .field⟩]
    let file : Report.FileOutline :=
      ⟨"/w/a.vb".toList, "a.vb".toList, "vbnet".toList, records, none,
        "File a.vb: 0 classes, 1 procedures, 1 fields".toList⟩
    let summary := ("Repository at /w: 1 source files (0 unreadable), " ++
      "0 classes, 1 procedures, 1 fields").toList
    let text (lines : List String) : Text := lines.flatMap fun line => line.toList ++ ['\n']
    (run fs (arguments "outline" "a.vb")).output.splitOn '\n' =
        ["Sub F(a)|1|function".toList, "   Dim x|2|field".toList, []] ∧
      (run fs listing).output = text
        ["[",
          "  \x7b",
          "    \"display_text\": \"Sub F(a)\",",
          "    \"source_line\": 1,",
          "    \"kind\": \"function\"",
          "  \x7d,",
          "  \x7b",
          "    \"display_text\": \"   Dim x\",",
          "    \"source_line\": 2,",
          "    \"kind\": \"field\"",
          "  \x7d",
          "]"] ∧
      handle fs (request "/outline" "path" "a.vb") = .ok ⟨200, some (.object
        [("path".toList, .text "a.vb".toList),
          ("entries".toList, .list (records.map fun record => .text record.toEntry)),
          ("records".toList, .list (records.map Record.toJson))])⟩ ∧
      (∃ value, handle fs (request "/scan" "root_path" ".") = .ok ⟨200, some value⟩ ∧
        Json.read (run fs (arguments "scan" ".")).output = .ok value ∧
        Validation.report value = .ok ⟨"/w".toList, [file], summary⟩) ∧
      handle fs (request "/scan" "root_path" "a.vb") =
        .ok (Service.failure 400 "Invalid root_path: /w/a.vb") ∧
      (run fs (arguments "scan" "a.vb")).output = text
        ["\x7b",
          "  \"root\": \"/w/a.vb\",",
          "  \"files\": [],",
          "  \"summary\": \"Repository at /w/a.vb: 0 source files (0 unreadable), 0 classes, " ++
            "0 procedures, 0 fields\"",
          "\x7d"] := by
  intro content fs settings request arguments listing records file summary text
  let asked : Asked := ⟨true, false, false, some 3⟩
  have three : Text.numeral 3 = "3".toList := by decide +kernel
  have short : asked.Short := by
    intro level same
    obtain rfl := Option.some.inj same
    decide +kernel
  have valid : asked.Valid := by
    intro level same
    obtain rfl := Option.some.inj same
    decide
  have spelled (command path : String) :
      Spells command.toList asked.switches path.toList (arguments command path) := by
    refine ⟨[["--standard-indent".toList, "3".toList]], [["--show-parameters".toList]], ?_, rfl⟩
    rw [← three]
    exact .swap ["--show-parameters".toList] ["--standard-indent".toList, Text.numeral 3] []
  have spelled_json (path : String) :
      Spells "outline".toList (["--json".toList] :: asked.switches) path.toList
        ("outline".toList :: ((["--json".toList] :: asked.switches).flatten ++ [path.toList])) :=
    ⟨_, [], by rw [List.append_nil], rfl⟩
  have posted (route : Service.Route) (target key path : String)
      (same_target : target.toList = route.target) (same_key : key.toList = route.pathKey) :
      Posts route path.toList asked.fields (request target key path) := by
    refine ⟨_, _, .swap _ _ _, .swap _ _ _, ?_⟩
    simp only [request, same_target, same_key]
    rfl
  have rooted : '\x00' ∉ fs.workingDirectory := by decide
  have agree (path : String) (plain : path.toList.head? ≠ some '-')
      (whole : '\x00' ∉ path.toList) :=
    commands_agree_with_service rooted short plain whole
      (spelled "outline" path) (spelled_json path) (spelled "scan" path)
      (posted .outline "/outline" "path" path rfl rfl)
      (posted .scan "/scan" "root_path" path rfl rfl)
  obtain ⟨outlines, refusals⟩ := agree "a.vb" (by decide) (by decide)
  obtain ⟨-, reports⟩ := agree "." (by decide) (by decide)
  have found : Outline.records fs asked.settings "a.vb".toList = records := by decide +kernel
  obtain ⟨answered, printed, listed⟩ := outlines.same valid
  rw [found] at answered printed listed
  have same_listing : "outline".toList :: ((["--json".toList] :: asked.switches).flatten ++
      ["a.vb".toList]) = listing := by
    decide +kernel
  rw [same_listing] at listed
  have here : fs.absolute ".".toList = "/w".toList := by decide +kernel
  let source : Repository.SourceFile := ⟨file.path, file.relativePath, .vbNet⟩
  have sources : Repository.files fs "/w".toList = [source] := by decide +kernel
  have outlined : Repository.outlineFile fs asked.settings source = file := by decide +kernel
  have summed : Report.summarize "/w".toList [file] = summary := by decide +kernel
  obtain ⟨shown, -, holds⟩ := reports.same valid (by decide +kernel)
  rw [here, Repository.report, sources, List.map_singleton, outlined, summed] at shown holds
  have no_directory : (fs.entries? (fs.absolute "a.vb".toList)).isNone = true := by decide +kernel
  have root : fs.absolute "a.vb".toList = "/w/a.vb".toList := by decide +kernel
  obtain ⟨refused, ⟨-, empty⟩, -⟩ :=
    refusals.apart valid (Option.isNone_iff_eq_none.mp no_directory)
  have numbered : ∀ record ∈ records, record.line.natAbs < 10 ^ Text.digitLimit := by
    decide +kernel
  refine ⟨?_, ?_, answered, ⟨_, shown, holds.read ?_, holds.checked⟩, ?_, ?_⟩
  · rw [printed]
    decide +kernel
  · rw [listed.printed]
    decide +kernel
  · exact numbered
  · rw [refused, root]
    rfl
  · rw [empty.printed]
    decide +kernel

end BasicOutline.CommandLine
