import PrintPath.Proofs.Calls
import PrintPath.Proofs.PrintedReports
import PrintPath.Proofs.Sessions

/-!
# A call is put together from its files

A call names files, and for each of them the program makes a report.  The reports have nothing
to do with each other: what is printed is what would be printed for each file alone, one behind
the other or, in JSON, as the elements of one array.  And they come together or not at all.  If
one of the paths leads to no file, nothing is printed, however many files were read before it,
and the first such path is named.

Both follow from `reports_eq`, which says what the loop over the files comes to, without a loop.
It rests on two facts about one file.  A report that is made by the program is never cancelled,
because its observer lets everything pass (`outcome_readPieces_of_proceed`).  And it depends on
its own file and on the profile, and on no other file (`Report.on`).

Also when there is a report on every file, nothing is printed in JSON if the path of one of them
is no text.  What is printed otherwise is told by `arrayOf` and `Report.element`.

Before any file is looked at the program opens the profile, if one is named or if the user has
one.  If that holds no profile the program stops, and does not fall back to another
(`openProfile_of_not_holdsProfile`).

`result_files` says this of arguments, and of all of them that name a file.  A call gets there
when its words are read as these arguments.  There is such a call unless a path among the
arguments is empty, and then the call is a mistake (`Arguments.read_call_of_not_proper`).  So
the empty path leads to no file and is not named as one that is missing (`exitCode_oddPrint`).
-/

namespace PrintPath

/-- A reading whose observer lets everything pass reaches the end. -/
theorem outcome_readPieces_of_proceed {σ : Type} {observer : Observer σ}
    (h : ∀ state progress, (observer state progress).verdict = .proceed) (setup : Setup)
    (state : σ) (total : Nat) (pieces : List Piece) :
    (readPieces setup observer state total pieces).outcome =
      .completed (Pass.start.feedAll setup (pieces.map Piece.line)).finish := by
  have hstops (fractions : List Float) (state : σ) : observer.stopsAt? state fractions = none := by
    induction fractions generalizing state with
    | nil => rfl
    | cons progress rest ih =>
      rw [Observer.stopsAt?_of_proceed rfl (h state progress), ih]
      rfl
  have hends := Pass.endsAs_readRest setup total observer .start 0 state pieces
  rw [hstops] at hends
  exact hends

/-! ## Files that hold a profile -/

namespace Files

/-- Whether a path leads to a file that holds a certain profile. -/
def Holds (files : Files) (path : Path) (profile : Profile) : Prop :=
  ∃ content, files path = .file content ∧
    ∃ text ∈ String.fromUTF8? content, Profile.read? text.toList = some profile

/-- Whether a path leads to a file that holds a profile. -/
def HoldsProfile (files : Files) (path : Path) : Prop :=
  ∃ profile, files.Holds path profile

theorem load_eq_ok_iff {files : Files} {path : Path} {profile : Profile} :
    Profile.load files path = .ok profile ↔ files.Holds path profile := by
  constructor
  · intro h
    unfold Profile.load at h
    split at h
    · cases h
    · cases h
    · next content hfile =>
      split at h
      · cases h
      · next text htext =>
        split at h
        · cases h
        · next read hread =>
          cases h
          exact ⟨content, hfile, text, htext, hread⟩
  · rintro ⟨content, hfile, text, htext, hread⟩
    unfold Profile.load
    simp only [hfile, Option.mem_def.mp htext, hread]

/-- Whether a path leads to a profile is found out by loading it. -/
instance (files : Files) (path : Path) : Decidable (files.HoldsProfile path) :=
  match hload : Profile.load files path with
  | .ok profile => .isTrue ⟨profile, load_eq_ok_iff.mp hload⟩
  | .error _ => .isFalse fun h => by
    obtain ⟨profile, hprofile⟩ := h
    rw [load_eq_ok_iff.mpr hprofile] at hload
    cases hload

end Files

namespace Report

/-! ## One file -/

variable (files : Files) (profile : Profile) (path : Path)

/-- The report on the program that a path leads to. -/
def on : Report :=
  let content := (files.content? path).getD .empty
  let lines := (Piece.ofContent content.data.toList).map Piece.line
  let toolpath := (Pass.start.feedAll ⟨profile, .standard⟩ lines).finish
  { path
    summary := toolpath.summary
    weight := profile.filament.weight toolpath.extrusion
    cost := profile.filament.costText? toolpath.extrusion }

variable {files path}

@[simp] theorem path_on : (on files profile path).path = path := rfl

/-- **There is a report on every file.** -/
theorem ofFile_of_isFile (source : ProfileSource) (h : files.isFile path) :
    (ofFile files source path).1 = .ok (on files (source.profile files) path) := by
  obtain ⟨content, hcontent⟩ := Option.isSome_iff_exists.mp h
  let reader : Reader Unit := ⟨source, .standard, progressObserver path⟩
  have hpieces : (Input.file path).pieces? files =
      some (content.size, Piece.ofContent content.data.toList) := by
    show (files.content? path).map _ = _
    rw [hcontent]
    rfl
  have houtcome := (reader.read_of_pieces?_eq_some (fun _ => files) ()
    (Input.keptBy_const _ _ files) hpieces).1
  rw [outcome_readPieces_of_proceed fun _ _ => rfl] at houtcome
  unfold ofFile on
  simp only [h, if_true, hcontent, Option.getD_some]
  rw [houtcome]
  rfl

/-- Where there is no file there is no report. -/
theorem ofFile_of_not_isFile (source : ProfileSource) (h : ¬ files.isFile path) :
    (ofFile files source path).1 = .error (.fileMissing path) := by
  unfold ofFile
  rw [if_neg h]

end Report

namespace CommandLine

/-! ## The loop over the files -/

/-- **What becomes of all files**: a report on each, in order, or the first path that leads to
no file. -/
theorem reports_eq (files : Files) (source : ProfileSource) (paths : List Path) :
    (reports files source paths).1 =
      match paths.find? fun path => !files.isFile path with
      | some path => .error (.fileMissing path)
      | none => .ok (paths.map (Report.on files (source.profile files))) := by
  induction paths with
  | nil => rfl
  | cons path rest ih =>
    unfold reports
    by_cases hfile : files.isFile path
    · have hfirst := Report.ofFile_of_isFile source hfile
      generalize Report.ofFile files source path = first at hfirst
      obtain ⟨result, notes⟩ := first
      subst hfirst
      rw [List.find?_cons_of_neg (by simp [hfile])]
      generalize reports files source rest = others at ih
      obtain ⟨result, more⟩ := others
      subst ih
      cases rest.find? fun path => !files.isFile path with
      | none => rfl
      | some missing => rfl
    · have hfirst := Report.ofFile_of_not_isFile source hfile
      generalize Report.ofFile files source path = first at hfirst
      obtain ⟨result, notes⟩ := first
      subst hfirst
      rw [List.find?_cons_of_pos (by simp [hfile])]

/-! ## The choice of the profile -/

/-- The profile file that a call uses: the one it names, or else the user's own if there is
one. -/
def Arguments.Selects (arguments : Arguments) (around : Surroundings) (path : Path) : Prop :=
  arguments.profile = some path ∨
    arguments.profile = none ∧ userProfilePath? around.configDirectory = some path ∧
      around.files.isFile path

/-- The profile that a call uses: what the file holds that it selects, or the built-in one if
it selects none. -/
structure Arguments.Uses (arguments : Arguments) (around : Surroundings) (profile : Profile) :
    Prop where
  selected : ∀ path, arguments.Selects around path → around.files.Holds path profile
  builtIn : (∀ path, ¬ arguments.Selects around path) → profile = .builtIn

theorem Arguments.profilePath_eq_some_iff {arguments : Arguments} {around : Surroundings}
    {path : Path} :
    (arguments.configure around).profilePath = some path ↔ arguments.Selects around path := by
  unfold configure Selects Surroundings.userProfile?
  rw [Option.or_eq_some_iff, Option.filter_eq_some_iff]

/-- A call that selects no file without a profile uses a profile, and opens it. -/
theorem Arguments.exists_uses {arguments : Arguments} {around : Surroundings}
    (h : ∀ path, arguments.Selects around path → around.files.HoldsProfile path) :
    ∃ profile, arguments.Uses around profile ∧
      ∃ source notes,
        openProfile around.files (arguments.configure around).profilePath =
          .ok (source, notes) ∧ source.profile around.files = profile := by
  cases hpath : (arguments.configure around).profilePath with
  | none =>
    have hnone (path : Path) : ¬ arguments.Selects around path := by
      rw [← profilePath_eq_some_iff, hpath]
      exact Option.some_ne_none path |>.symm
    exact ⟨.builtIn, ⟨fun path hselects => absurd hselects (hnone path), fun _ => rfl⟩,
      .given .builtIn, _, rfl, rfl⟩
  | some path =>
    obtain ⟨profile, hholds⟩ := h path (profilePath_eq_some_iff.mp hpath)
    have hload := Files.load_eq_ok_iff.mpr hholds
    refine ⟨profile, ⟨fun other hselects => ?_, fun hnone => ?_⟩, .file path,
      [.profileChosen path], ?_, ?_⟩
    · rw [← profilePath_eq_some_iff, hpath] at hselects
      cases hselects
      exact hholds
    · exact absurd (profilePath_eq_some_iff.mp hpath) (hnone path)
    · simp only [openProfile, hload]
    · simp only [ProfileSource.profile, ProfileSource.snapshot, hload]

/-- A path that leads to no profile is not passed over. -/
theorem openProfile_of_not_holdsProfile {files : Files} {path : Path}
    (h : ¬ files.HoldsProfile path) :
    ∃ e, Profile.load files path = .error e ∧ openProfile files (some path) = .error e := by
  cases hload : Profile.load files path with
  | error e => exact ⟨e, rfl, by simp only [openProfile, hload]⟩
  | ok profile => exact absurd ⟨profile, Files.load_eq_ok_iff.mp hload⟩ h

/-! ## What a call comes to -/

namespace Result

/-- Whether the program ends well and prints something. -/
def Prints (result : Result) (output : String) : Prop :=
  result.exitCode = 0 ∧ result.output = output

/-- Whether the program stops for a reason and prints nothing else. -/
def StopsFor (result : Result) (reason : String) : Prop :=
  result.exitCode = 1 ∧ result.output = "" ∧ result.reason? = some reason

/-- Whether the call is refused as a mistake, and nothing is printed. -/
def IsRefused (result : Result) : Prop :=
  result.exitCode = 2 ∧ result.output = "" ∧ result.reason? = none

/-- What comes of an attempt to print. -/
def ofPrinted : Except Failure String → Result
  | .error failure => .failed failure
  | .ok output => .done output

end Result

/-- What a call with some arguments comes to. -/
def Arguments.result (arguments : Arguments) (around : Surroundings) : Result :=
  ((arguments.configure around).run around.files).1

/-- The same arguments for one file alone. -/
def Arguments.alone (arguments : Arguments) (path : Path) : Arguments :=
  { arguments with files := [path] }

theorem run_of_read {call : List RawText} {arguments : Arguments}
    (h : Arguments.read call = .ok arguments) (around : Surroundings) :
    (run around call).1 = arguments.result around := by
  unfold run
  rw [h]
  rfl

section Opened

variable {arguments : Arguments} {around : Surroundings} {source : ProfileSource}
  {notes : List Note}
  (hopen : openProfile around.files (arguments.configure around).profilePath =
    .ok (source, notes))

include hopen

/-- When the profile is open, only the files matter. -/
theorem result_of_openProfile :
    arguments.result around =
      match arguments.files.find? fun path => !around.files.isFile path with
      | some path => .failed (.report (.fileMissing path))
      | none =>
        .ofPrinted (printed arguments.json
          (arguments.files.map (Report.on around.files (source.profile around.files)))) := by
  have hreports := reports_eq around.files source arguments.files
  unfold Arguments.result Configuration.run
  rw [hopen]
  dsimp only [Arguments.configure]
  generalize reports around.files source arguments.files = all at hreports
  obtain ⟨result, more⟩ := all
  subst hreports
  cases arguments.files.find? fun path => !around.files.isFile path with
  | none =>
    dsimp only
    cases printed arguments.json _ with
    | error failure => rfl
    | ok output => rfl
  | some missing => rfl

theorem result_of_first_missing {front : List Path} {path : Path} {back : List Path}
    (hfiles : arguments.files = front ++ path :: back)
    (hfront : ∀ before ∈ front, around.files.isFile before)
    (hpath : ¬ around.files.isFile path) :
    arguments.result around = .failed (.report (.fileMissing path)) := by
  have hresult := result_of_openProfile hopen
  rw [hfiles, List.find?_append, List.find?_eq_none.mpr (by simpa using hfront),
    List.find?_cons_of_pos (by simpa using hpath)] at hresult
  exact hresult

theorem result_of_isFile (hfiles : ∀ path ∈ arguments.files, around.files.isFile path) :
    arguments.result around =
      .ofPrinted (printed arguments.json
        (arguments.files.map (Report.on around.files (source.profile around.files)))) := by
  have hresult := result_of_openProfile hopen
  rw [List.find?_eq_none.mpr (by simpa using hfiles)] at hresult
  exact hresult

theorem openProfile_alone (path : Path) :
    openProfile around.files ((arguments.alone path).configure around).profilePath =
      .ok (source, notes) :=
  hopen

/-- In text the reports are printed one behind the other. -/
theorem result_text (hjson : arguments.json = false)
    (hfiles : ∀ path ∈ arguments.files, around.files.isFile path) :
    arguments.result around =
      .done (String.join (arguments.files.map fun path =>
        (Report.on around.files (source.profile around.files) path).text)) := by
  rw [result_of_isFile hopen hfiles, hjson]
  show Result.done (String.join ((arguments.files.map _).map Report.text)) = _
  rw [List.map_map]
  rfl

/-- In JSON they are printed as the elements of an array. -/
theorem result_json (hjson : arguments.json = true)
    (hfiles : ∀ path ∈ arguments.files, around.files.isFile path) (hne : arguments.files ≠ [])
    (htexts : ∀ path ∈ arguments.files, path.IsText) :
    arguments.result around =
      .done (arrayOf (arguments.files.map fun path =>
        (Report.on around.files (source.profile around.files) path).element)) := by
  let reports := arguments.files.map (Report.on around.files (source.profile around.files))
  have hreports : reports ≠ [] := mt List.map_eq_nil_iff.mp hne
  have hpaths : ∀ report ∈ reports, report.path.IsText := by
    intro report hreport
    obtain ⟨path, hpath, rfl⟩ := List.mem_map.mp hreport
    rw [Report.path_on]
    exact htexts path hpath
  have helements : reports.map Report.element = arguments.files.map fun path =>
      (Report.on around.files (source.profile around.files) path).element := List.map_map
  rw [result_of_isFile hopen hfiles, hjson, printed_json hreports hpaths, helements]
  rfl

/-- For one file alone the report is all that is printed. -/
theorem result_alone_text (hjson : arguments.json = false) {path : Path}
    (hfile : around.files.isFile path) :
    (arguments.alone path).result around =
      .done (Report.on around.files (source.profile around.files) path).text := by
  rw [result_text (openProfile_alone hopen path) hjson (List.forall_mem_singleton.mpr hfile)]
  show Result.done (String.join [_]) = _
  rw [String.join_cons, String.join_nil, String.append_empty]

/-- In JSON its element is alone in the array. -/
theorem result_alone_json (hjson : arguments.json = true) {path : Path}
    (hfile : around.files.isFile path) (htext : path.IsText) :
    (arguments.alone path).result around =
      .done (arrayOf [(Report.on around.files (source.profile around.files) path).element]) :=
  result_json (openProfile_alone hopen path) hjson (List.forall_mem_singleton.mpr hfile)
    (List.cons_ne_nil _ _) (List.forall_mem_singleton.mpr htext)

theorem result_json_of_not_isText (hjson : arguments.json = true)
    (hfiles : ∀ path ∈ arguments.files, around.files.isFile path) {path : Path}
    (hpath : path ∈ arguments.files) (h : ¬ path.IsText) :
    arguments.result around = .failed .pathNotText := by
  have hreport : ¬ (Report.on around.files (source.profile around.files) path).path.IsText := by
    rw [Report.path_on]
    exact h
  rw [result_of_isFile hopen hfiles, hjson,
    printed_json_of_not_isText (List.mem_map_of_mem hpath) hreport]
  rfl

end Opened

/-- A profile that cannot be had is the reason to stop, whatever the files are. -/
theorem result_of_not_holdsProfile {arguments : Arguments} {around : Surroundings}
    {path : Path} (hselects : arguments.Selects around path)
    (h : ¬ around.files.HoldsProfile path) :
    ∃ e, Profile.load around.files path = .error e ∧
      arguments.result around = .failed (.profile e) := by
  obtain ⟨e, hload, hopen⟩ := openProfile_of_not_holdsProfile h
  refine ⟨e, hload, ?_⟩
  unfold Arguments.result Configuration.run
  rw [Arguments.profilePath_eq_some_iff.mpr hselects, hopen]

/-- **A call is put together from its files, all or nothing.**  If a path in it is empty it is
refused.  If there is no profile where one was chosen the program stops, and otherwise it stops
at the first path that leads to no file.  If all of them lead to files it prints what it prints
for each alone, or an array of the elements that it prints for each alone; but it stops if the
path of such an element is no text. -/
theorem result_files (around : Surroundings) (arguments : Arguments)
    (hne : arguments.files ≠ []) :
    (∀ call, Arguments.read call = .ok arguments →
      arguments.Proper ∧ (run around call).1 = arguments.result around) ∧
    (arguments.Proper → Arguments.read arguments.call = .ok arguments) ∧
    (¬ arguments.Proper → (run around arguments.call).1.IsRefused) ∧
    (∀ path, arguments.Selects around path → ¬ around.files.HoldsProfile path →
      ∃ e, Profile.load around.files path = .error e ∧
        (arguments.result around).StopsFor e.message) ∧
    ((∀ path, arguments.Selects around path → around.files.HoldsProfile path) →
      ∃ profile, arguments.Uses around profile ∧
      (∀ front path back, arguments.files = front ++ path :: back →
        (∀ before ∈ front, around.files.isFile before) → ¬ around.files.isFile path →
        (arguments.result around).StopsFor ("G-code file not found: " ++ path.shown)) ∧
      ((∀ path ∈ arguments.files, around.files.isFile path) →
        (arguments.json = false →
          (arguments.result around).Prints (String.join (arguments.files.map fun path =>
            ((arguments.alone path).result around).output)) ∧
          ∀ path ∈ arguments.files, ((arguments.alone path).result around).Prints
            (Report.on around.files profile path).text) ∧
        (arguments.json = true →
          (∀ path ∈ arguments.files, ¬ path.IsText →
            (arguments.result around).StopsFor "path contains invalid UTF-8 characters") ∧
          ((∀ path ∈ arguments.files, path.IsText) →
            (arguments.result around).Prints (arrayOf (arguments.files.map fun path =>
              (Report.on around.files profile path).element)) ∧
            ∀ path ∈ arguments.files, ((arguments.alone path).result around).Prints
              (arrayOf [(Report.on around.files profile path).element]))))) := by
  refine ⟨fun call hcall => ⟨Arguments.proper_of_read hcall, run_of_read hcall around⟩,
    fun h => Arguments.read_call h, fun himproper => ?_, fun path hselects hprofile => ?_,
    fun hprofile => ?_⟩
  · unfold run
    rw [Arguments.read_call_of_not_proper hne himproper]
    exact ⟨rfl, rfl, rfl⟩
  · obtain ⟨e, hload, hresult⟩ := result_of_not_holdsProfile hselects hprofile
    refine ⟨e, hload, ?_⟩
    rw [hresult]
    exact ⟨rfl, rfl, rfl⟩
  obtain ⟨profile, huses, source, notes, hopen, rfl⟩ := Arguments.exists_uses hprofile
  refine ⟨_, huses, fun front path back hfiles hfront hpath => ?_, fun hfiles => ⟨?_, ?_⟩⟩
  · rw [result_of_first_missing hopen hfiles hfront hpath]
    exact ⟨rfl, rfl, rfl⟩
  · intro hjson
    have hparts := List.map_congr_left fun path hpath =>
      congrArg Result.output (result_alone_text hopen hjson (hfiles path hpath))
    refine ⟨?_, fun path hpath => ?_⟩
    · rw [result_text hopen hjson hfiles, hparts]
      exact ⟨rfl, rfl⟩
    · rw [result_alone_text hopen hjson (hfiles path hpath)]
      exact ⟨rfl, rfl⟩
  · intro hjson
    refine ⟨fun path hpath hodd => ?_, fun htexts => ⟨?_, fun path hpath => ?_⟩⟩
    · rw [result_json_of_not_isText hopen hjson hfiles hpath hodd]
      exact ⟨rfl, rfl, rfl⟩
    · rw [result_json hopen hjson hfiles hne htexts]
      exact ⟨rfl, rfl⟩
    · rw [result_alone_json hopen hjson (hfiles path hpath) (htexts path hpath)]
      exact ⟨rfl, rfl⟩

/-! ## A call with two prints -/

/-- Two prints, a profile, and a user's own profile that is none. -/
def twoPrints : Surroundings :=
  { files := .ofList [("a.gcode", .file "G1 X1 E1\n".toUTF8), ("b.gcode", .file "T7\n".toUTF8),
      ("bed.toml", .file "[filament]\ndiameter = 1.75\ncost_meter = 2\n".toUTF8),
      ("/home/gcode-toolpath/profile.toml", .file "[filament".toUTF8)]
    configDirectory := some "/home" }

/-- What is printed for `a.gcode` in JSON. -/
def printInJson : List String :=
  ["[",
    "  \x7b",
    "    \"path\": \"a.gcode\",",
    "    \"layers\": 1,",
    "    \"segments\": 2,",
    "    \"points\": 3,",
    "    \"extrusion_mm\": 1.0,",
    "    \"duration_minutes\": 0.0002777777777777778,",
    "    \"preamble_ended\": false,",
    "    \"diagnostics\": 0,",
    "    \"weight_kg\": 0.0,",
    "    \"cost\": \"0.00\"",
    "  \x7d",
    "]"]

/-- With the profile, `b.gcode` is reported on twice, `a.gcode` is printed in JSON, and
`gone.gcode` is the reason to stop although `lost.gcode` is missing too.  Without it nothing is
reported on. -/
theorem result_files_twoPrints :
    let arguments (json : Bool) (files : List Path) : Arguments :=
      ⟨files, some "bed.toml", json, "info"⟩
    (run twoPrints ["b.gcode", "--profile", "bed.toml", "a.gcode", "b.gcode"]).1.Prints
        (String.join ((["b.gcode", "a.gcode", "b.gcode"] : List Path).map fun path =>
          ((arguments false [path]).result twoPrints).output)) ∧
      (run twoPrints ["--json", "--profile=bed.toml", "a.gcode"]).1.Prints
        (String.join (printInJson.map fun line => line ++ "\n")) ∧
      (run twoPrints ["--profile=bed.toml", "a.gcode", "gone.gcode", "b.gcode",
        "lost.gcode"]).1.StopsFor "G-code file not found: gone.gcode" ∧
      (run twoPrints ["--profile=bed.toml", "--log-level=info", "--", .empty]).1.IsRefused ∧
      ∃ e : ProfileError, (run twoPrints ["a.gcode"]).1.StopsFor e.message := by
  intro arguments
  have hprofile (json : Bool) (files : List Path) (path : Path)
      (h : (arguments json files).Selects twoPrints path) :
      twoPrints.files.HoldsProfile path := by
    obtain h | ⟨h, -⟩ := h
    · rw [← Option.some.inj h]
      decide +kernel
    · cases h
  have hbed : (Profile.load twoPrints.files "bed.toml").toOption =
      some ⟨⟨1.75, 0.0, 0.0, 2.0⟩, .empty⟩ := by
    decide +kernel
  refine ⟨?_, ?_, ?_, ?_, ?_⟩
  · obtain ⟨hrun, -, -, -, hopen⟩ := result_files twoPrints
      (arguments false ["b.gcode", "a.gcode", "b.gcode"]) (List.cons_ne_nil _ _)
    obtain ⟨profile, -, -, hprinted⟩ := hopen (hprofile _ _)
    rw [(hrun _ rfl).2]
    exact ((hprinted (by decide +kernel)).1 rfl).1
  · obtain ⟨hrun, -, -, -, hopen⟩ := result_files twoPrints (arguments true ["a.gcode"])
      (List.cons_ne_nil _ _)
    obtain ⟨profile, huses, -, hprinted⟩ := hopen (hprofile _ _)
    rw [Files.load_eq_ok_iff.mpr (huses.selected "bed.toml" (.inl rfl))] at hbed
    cases hbed
    obtain ⟨hexit, houtput⟩ := (((hprinted (by decide +kernel)).2 rfl).2 (by decide +kernel)).1
    rw [(hrun _ rfl).2]
    refine ⟨hexit, houtput.trans ?_⟩
    decide +kernel
  · obtain ⟨hrun, -, -, -, hopen⟩ := result_files twoPrints
      (arguments false ["a.gcode", "gone.gcode", "b.gcode", "lost.gcode"])
      (List.cons_ne_nil _ _)
    obtain ⟨profile, -, hmissing, -⟩ := hopen (hprofile _ _)
    rw [(hrun _ rfl).2]
    exact hmissing ["a.gcode"] "gone.gcode" ["b.gcode", "lost.gcode"] rfl (by decide +kernel)
      (by decide +kernel)
  · obtain ⟨-, -, hrefused, -⟩ := result_files twoPrints (arguments false [.empty])
      (List.cons_ne_nil _ _)
    exact hrefused fun h => h.files List.mem_cons_self
  · obtain ⟨hrun, -, -, hbroken, -⟩ := result_files twoPrints ⟨["a.gcode"], none, false, "info"⟩
      (List.cons_ne_nil _ _)
    rw [(hrun _ rfl).2]
    obtain ⟨e, -, hstops⟩ := hbroken "/home/gcode-toolpath/profile.toml"
      (.inr ⟨rfl, by decide +kernel, by decide +kernel⟩) (by decide +kernel)
    exact ⟨e, hstops⟩

/-! ## Paths that are not treated alike -/

/-- A name that is no text. -/
def oddName : Path := ⟨[0xFF]⟩

/-- One print, whose name is no text. -/
def oddPrint : Surroundings :=
  { files := .ofList [(oddName, .file .empty)], configDirectory := none }

/-- **Not every path that leads to no file is named, and not every file is reported on.**  The
empty path leads to no file, but the call is refused.  A file whose name is no text is reported
on in text; in JSON it is the reason to stop. -/
theorem exitCode_oddPrint :
    (¬ oddPrint.files.isFile .empty ∧ (run oddPrint [.empty]).1.IsRefused ∧
      ¬ (run oddPrint [.empty]).1.StopsFor "G-code file not found: ") ∧
      oddPrint.files.isFile oddName ∧ (run oddPrint [oddName]).1.exitCode = 0 ∧
      (run oddPrint ["--json", oddName]).1.StopsFor "path contains invalid UTF-8 characters" := by
  let arguments (json : Bool) : Arguments := ⟨[oddName], none, json, "info"⟩
  have hopen (json : Bool) :
      openProfile oddPrint.files ((arguments json).configure oddPrint).profilePath =
        .ok (.given .builtIn, [.builtInProfileChosen]) := rfl
  have hfile : oddPrint.files.isFile oddName := by decide +kernel
  have hfiles (json : Bool) : ∀ path ∈ (arguments json).files, oddPrint.files.isFile path :=
    List.forall_mem_singleton.mpr hfile
  have hrefused : (run oddPrint [.empty]).1.exitCode = 2 := by decide +kernel
  refine ⟨⟨by decide +kernel, ⟨hrefused, by decide +kernel, by decide +kernel⟩, fun h => ?_⟩,
    hfile, ?_, ?_⟩
  · exact absurd (h.1.symm.trans hrefused) (by decide)
  · rw [run_of_read (show Arguments.read _ = .ok (arguments false) from rfl),
      result_text (hopen false) rfl (hfiles false)]
    rfl
  · rw [run_of_read (show Arguments.read _ = .ok (arguments true) from rfl),
      result_json_of_not_isText (hopen true) rfl (hfiles true) List.mem_cons_self
        (by decide +kernel)]
    exact ⟨rfl, rfl, rfl⟩

end CommandLine
end PrintPath
