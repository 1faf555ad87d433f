import PrintPath.FilamentUse
import PrintPath.Proofs.Observation
import PrintPath.Reading.Reader

/-!
# A profile that is edited while it is in use

A reader with a profile in a file reads one program after the other, and the file may be
edited in between: by the caller, from one reading to the next, and by the observer, in the
middle of a reading.  The state `σ` stands for the world that both of them change, and a
`Request` is what the caller asks for.

What one would like to see is said by `Request.expected`.  A program is read as by a reader
that was made for the purpose: its profile is in memory, namely what the file says when the
reading starts, nothing changes while it reads, and its observer does no more than repeat the
verdicts of the real one.  Weight and cost are those of the filament in the file at the moment
of the question.  `session_eq_expected` says that a reader answers so, however long it goes on.

There are three reasons.

* A reading looks at its source once, before the first line (`Reader.setup`).
* Of an observer only its verdicts matter to the outcome, and its own state goes on in a way
  that only depends on what it is told (`Pass.state_readRest`).  So the two readings of the
  comparison can be observed by different observers with different states.
* Blocks are fetched from a file while it is read, but they do not show if the file is not
  changed (`readFile_eq_readContent`).
-/

namespace PrintPath

/-- The profile that is kept in a file.  What is no profile counts as the empty one. -/
def Entry.profile : Entry → Profile
  | .file content =>
    ((String.fromUTF8? content).bind fun text => Profile.read? text.toList).getD .empty
  | .missing _ => .empty
  | .directory => .empty

namespace Input

/-- The pieces of an input and the number of bytes it is said to have, if there is such an
input. -/
def pieces? (files : Files) : Input → Option (Nat × List Piece)
  | .lines texts => some (Piece.totalSize (Piece.ofLines texts), Piece.ofLines texts)
  | .content bytes total => some (total, Piece.ofContent bytes)
  | .file path =>
    (files.content? path).map fun bytes => (bytes.size, Piece.ofContent bytes.data.toList)

/-- The fractions of an input at its layer markers. -/
def fractions (input : Input) (files : Files) : List Float :=
  match input.pieces? files with
  | none => []
  | some (total, pieces) => Piece.markFractions total 0 pieces

/-- Whether an observer leaves an input alone.  What is in memory it cannot change. -/
def KeptBy {σ : Type} (input : Input) (observer : Observer σ) (files : σ → Files) : Prop :=
  match input with
  | .lines _ => True
  | .content _ _ => True
  | .file path => ∀ state progress,
      (files (observer state progress).state).content? path = (files state).content? path

/-- In a world that never changes every input is left alone. -/
theorem keptBy_const {τ : Type} (input : Input) (observer : Observer τ) (world : Files) :
    input.KeptBy observer fun _ => world := by
  cases input with
  | file path => exact fun _ _ => rfl
  | _ => trivial

end Input

namespace Observer

variable {σ : Type}

/-- The observer that follows a list of verdicts, and lets everything pass behind its end. -/
def script : Observer (List Verdict) :=
  fun verdicts _ => ⟨verdicts.tail, verdicts.headD .proceed, []⟩

/-- The state that an observer comes to when it is told some fractions. -/
def after (observer : Observer σ) (state : σ) (fractions : List Float) : σ :=
  fractions.foldl (fun state progress => (observer state progress).state) state

theorem length_verdicts (observer : Observer σ) (state : σ) (fractions : List Float) :
    (observer.verdicts state fractions).length = fractions.length := by
  induction fractions generalizing state with
  | nil => rfl
  | cons progress rest ih => rw [verdicts, List.length_cons, List.length_cons, ih]

/-- The verdicts of a script are those that are written in it. -/
theorem verdicts_script {verdicts : List Verdict} {fractions : List Float}
    (h : verdicts.length = fractions.length) : script.verdicts verdicts fractions = verdicts := by
  induction fractions generalizing verdicts with
  | nil => exact (List.eq_nil_of_length_eq_zero h).symm
  | cons progress rest ih =>
    cases verdicts with
    | nil => exact absurd h (Nat.succ_ne_zero _).symm
    | cons verdict verdicts =>
      show verdict :: script.verdicts verdicts rest = _
      rw [ih (Nat.succ.inj h)]

/-- A script of what an observer decides stops where the observer does. -/
theorem stopsAt?_script (observer : Observer σ) (state : σ) (fractions : List Float) :
    script.stopsAt? (observer.verdicts state fractions) fractions =
      observer.stopsAt? state fractions := by
  unfold stopsAt?
  rw [verdicts_script (observer.length_verdicts state fractions)]

end Observer

/-! ## Sessions -/

/-- What a caller does with a reader and what comes of it. -/
inductive Request (σ : Type) where
  /-- Read a program. -/
  | read (input : Input)
  /-- Change the world, and with it the files. -/
  | change (edit : σ → σ)
  /-- Ask for the weight of a toolpath. -/
  | weigh (toolpath : Toolpath)
  /-- Ask for the cost of a toolpath. -/
  | price (toolpath : Toolpath)

/-- What a caller gets to see. -/
inductive Answer where
  | outcome (outcome : Outcome)
  | weight (weight : Float)
  | cost (cost : Option String)
  /-- There is nothing to see. -/
  | done

namespace Reader

variable {σ : Type} (reader : Reader σ) (files : σ → Files)

/-- The answer of a reader to a request, and the world behind it. -/
def serve (state : σ) : Request σ → Answer × σ
  | .read input =>
    let reading := reader.read files input state
    (.outcome reading.outcome, reading.state)
  | .change edit => (.done, edit state)
  | .weigh toolpath =>
    (.weight ((reader.source.profile (files state)).filament.weight toolpath.extrusion), state)
  | .price toolpath =>
    (.cost ((reader.source.profile (files state)).filament.costText? toolpath.extrusion), state)

/-- The answers of a reader to one request after the other. -/
def session : σ → List (Request σ) → List Answer
  | _, [] => []
  | state, request :: rest =>
    (reader.serve files state request).1 :: session (reader.serve files state request).2 rest

end Reader

section

variable {σ : Type} (files : σ → Files) (path : Path) (rule : ThicknessRule)
  (observer : Observer σ)

/-- The reader that is made for a single reading: it has a profile in memory, and its
observer changes nothing. -/
def frozenReader (state : σ) : Reader (List Verdict) :=
  ⟨.given (files state path).profile, rule, .script⟩

namespace Request

/-- The answer that a request should have. -/
def expected (state : σ) : Request σ → Answer
  | .read input =>
    .outcome ((frozenReader files path rule state).read (fun _ => files state) input
      (observer.verdicts state (input.fractions (files state)))).outcome
  | .change _ => .done
  | .weigh toolpath => .weight ((files state path).profile.filament.weight toolpath.extrusion)
  | .price toolpath => .cost ((files state path).profile.filament.costText? toolpath.extrusion)

/-- The world behind a request.  A reading changes it by what the observer does when it is
told the fractions at the markers. -/
def next (state : σ) : Request σ → σ
  | .read input =>
    observer.after state (observer.told state (input.fractions (files state)))
  | .change edit => edit state
  | .weigh _ => state
  | .price _ => state

end Request

/-- The answers that requests should have, one after the other. -/
def expectedSession : σ → List (Request σ) → List Answer
  | _, [] => []
  | state, request :: rest =>
    request.expected files path rule observer state ::
      expectedSession (request.next files observer state) rest

end

/-! ## One reading -/

theorem ProfileSource.profile_file (path : Path) (files : Files) :
    (ProfileSource.file path).profile files = (files path).profile := by
  simp only [profile, snapshot, Profile.load, Entry.profile]
  cases files path with
  | missing absence => rfl
  | directory => rfl
  | file content =>
    simp only
    cases String.fromUTF8? content with
    | none => rfl
    | some text =>
      simp only [Option.bind_some]
      cases Profile.read? text.toList with
      | none => rfl
      | some profile => rfl

namespace Pass

/-- The state that an observer is left with is the one it comes to by what it is told. -/
theorem state_readRest {σ : Type} (setup : Setup) (total : Nat) (observer : Observer σ)
    (pass : Pass) (consumed : Nat) (state : σ) (pieces : List Piece) :
    (pass.readRest setup total observer consumed state pieces).state =
      observer.after state
        (observer.told state (Piece.markFractions total consumed pieces)) := by
  induction pieces generalizing pass consumed state with
  | nil => rfl
  | cons piece rest ih =>
    rw [Piece.markFractions]
    by_cases h : piece.line.layerBoundary
    · rw [if_pos h]
      obtain ⟨reply, hreply⟩ :
          ∃ reply, observer state (fraction (consumed + piece.size) total) = reply := ⟨_, rfl⟩
      have hafter (fractions : List Float) :
          observer.after state (fraction (consumed + piece.size) total :: fractions) =
            observer.after reply.state fractions := by
        rw [← hreply]
        rfl
      cases hverdict : reply.verdict with
      | stop =>
        rw [readRest_of_stop hreply h hverdict, Observer.told_of_stop hreply hverdict, hafter]
        rfl
      | proceed =>
        rw [readRest_of_proceed hreply h hverdict, Observer.told_of_proceed hreply hverdict,
          hafter]
        exact ih _ _ reply.state
    · rw [if_neg h, readRest_of_plain h]
      exact ih (pass.feed setup piece.line) (consumed + piece.size) state

end Pass

namespace Reading

variable {σ : Type} (reading : Reading σ) (path : Path)

@[simp] theorem outcome_fromFile : (reading.fromFile path).outcome = reading.outcome := by
  unfold fromFile
  split <;> rfl

@[simp] theorem state_fromFile : (reading.fromFile path).state = reading.state := by
  unfold fromFile
  split <;> rfl

end Reading

namespace Reader

variable {σ : Type} (reader : Reader σ) (files : σ → Files) {input : Input} (state : σ)

/-- An input that does not exist gives an empty toolpath, and nobody is told anything. -/
theorem read_of_pieces?_eq_none (h : input.pieces? (files state) = none) :
    (reader.read files input state).outcome = .completed .empty ∧
      (reader.read files input state).state = state := by
  cases input with
  | lines lines => exact absurd h (Option.some_ne_none _)
  | content bytes total => exact absurd h (Option.some_ne_none _)
  | file path =>
    have hmissing : (files state).isFile path = false := by
      unfold Input.pieces? at h
      unfold Files.isFile
      rw [Option.map_eq_none_iff.mp h]
      rfl
    simp only [read, hmissing]
    exact ⟨rfl, rfl⟩

/-- **An input that is left alone is read piece by piece**, wherever it comes from. -/
theorem read_of_pieces?_eq_some (hkept : input.KeptBy reader.observer files) {total : Nat}
    {pieces : List Piece} (h : input.pieces? (files state) = some (total, pieces)) :
    let reading := readPieces (reader.setup (files state)) reader.observer state total pieces
    (reader.read files input state).outcome = reading.outcome ∧
      (reader.read files input state).state = reading.state := by
  cases input with
  | lines lines =>
    cases h
    exact ⟨rfl, rfl⟩
  | content bytes total =>
    cases h
    exact ⟨rfl, rfl⟩
  | file path =>
    unfold Input.pieces? at h
    obtain ⟨content, hcontent, hpieces⟩ := Option.map_eq_some_iff.mp h
    cases hpieces
    have hfile : (files state).isFile path = true := by
      unfold Files.isFile
      rw [hcontent]
      rfl
    have hread : PrintPath.readFile (reader.setup (files state)) reader.observer
        (fun world => ((files world).content? path).getD .empty) state =
          PrintPath.readContent (reader.setup (files state)) reader.observer state
            content.data.toList content.size := by
      -- whatever the observer did so far, the file still has its content
      refine readFile_eq_readContent (P := fun world => (files world).content? path = some content)
        ?_ ?_ hcontent
      · intro world hworld
        rw [hworld]
        rfl
      · intro world progress hworld
        exact (hkept world progress).trans hworld
    simp only [read, readFile, hfile, if_true]
    rw [Reading.outcome_fromFile, Reading.state_fromFile, hread]
    exact ⟨rfl, rfl⟩

end Reader

section

variable {σ : Type} (files : σ → Files) (path : Path) (rule : ThicknessRule)
  {observer : Observer σ}

/-- **A reading sees one version of the profile**, that of the moment at which it starts. -/
theorem outcome_read_eq_frozen {input : Input} (hkept : input.KeptBy observer files)
    (state : σ) :
    (Reader.read ⟨.file path, rule, observer⟩ files input state).outcome =
        ((frozenReader files path rule state).read (fun _ => files state) input
          (observer.verdicts state (input.fractions (files state)))).outcome ∧
      (Reader.read ⟨.file path, rule, observer⟩ files input state).state =
        observer.after state (observer.told state (input.fractions (files state))) := by
  have hsetup : (⟨.file path, rule, observer⟩ : Reader σ).setup (files state) =
      (frozenReader files path rule state).setup (files state) := by
    simp only [Reader.setup, ProfileSource.profile_file]
    rfl
  let verdicts := observer.verdicts state (input.fractions (files state))
  cases hpieces : input.pieces? (files state) with
  | none =>
    have hfractions : input.fractions (files state) = [] := by
      simp only [Input.fractions, hpieces]
    obtain ⟨houtcome, hstate⟩ :=
      Reader.read_of_pieces?_eq_none ⟨.file path, rule, observer⟩ files state hpieces
    obtain ⟨hfrozen, -⟩ := Reader.read_of_pieces?_eq_none (frozenReader files path rule state)
      (fun _ => files state) verdicts hpieces
    rw [houtcome, hstate, hfrozen, hfractions]
    exact ⟨rfl, rfl⟩
  | some cut =>
    obtain ⟨total, pieces⟩ := cut
    have hfractions : input.fractions (files state) = Piece.markFractions total 0 pieces := by
      simp only [Input.fractions, hpieces]
    obtain ⟨houtcome, hstate⟩ :=
      Reader.read_of_pieces?_eq_some ⟨.file path, rule, observer⟩ files state hkept hpieces
    obtain ⟨hfrozen, -⟩ := Reader.read_of_pieces?_eq_some (frozenReader files path rule state)
      (fun _ => files state) verdicts (input.keptBy_const _ _) hpieces
    rw [houtcome, hstate, hfrozen, hsetup]
    simp only [verdicts, hfractions]
    constructor
    · exact (shows_readPieces _ observer state total pieces).outcome_eq
        (shows_readPieces _ Observer.script _ total pieces)
        (observer.stopsAt?_script state _).symm
    · exact Pass.state_readRest _ total observer .start 0 state pieces

/-- A request is answered as it should be, and has the effects it should have. -/
theorem serve_eq_expected {request : Request σ}
    (hkept : ∀ input, request = .read input → input.KeptBy observer files) (state : σ) :
    Reader.serve ⟨.file path, rule, observer⟩ files state request =
      (request.expected files path rule observer state, request.next files observer state) := by
  cases request with
  | read input =>
    obtain ⟨houtcome, hstate⟩ := outcome_read_eq_frozen files path rule (hkept input rfl) state
    exact Prod.ext (congrArg Answer.outcome houtcome) hstate
  | change edit => rfl
  | weigh toolpath =>
    simp only [Reader.serve, ProfileSource.profile_file]
    rfl
  | price toolpath =>
    simp only [Reader.serve, ProfileSource.profile_file]
    rfl

/-- **Every reading of a session sees one version of the profile, and nothing of the readings
before it.**  Its outcome is that of a new reader with the profile that the file holds at the
start of the reading, whose observer gives the same verdicts and changes nothing.  Weight and
cost are those of the filament that the file holds when they are asked for.  The caller may
change anything between two readings, and the observer anything but the inputs. -/
theorem session_eq_expected {requests : List (Request σ)}
    (hkept : ∀ input, .read input ∈ requests → input.KeptBy observer files) (state : σ) :
    Reader.session ⟨.file path, rule, observer⟩ files state requests =
      expectedSession files path rule observer state requests := by
  induction requests generalizing state with
  | nil => rfl
  | cons request rest ih =>
    have hserve := serve_eq_expected files path rule
      (fun input hinput => hkept input (List.mem_cons.mpr (Or.inl hinput.symm))) state
    have hrest : ∀ input, .read input ∈ rest → input.KeptBy observer files := by
      intro input hinput
      exact hkept input (List.mem_cons_of_mem _ hinput)
    rw [Reader.session, expectedSession, hserve, ih hrest]

end

/-! ## A profile that an observer edits -/

/-- What the file of a profile holds after some edits: a nozzle at 18 mm and a filament, the
nozzle at 50 mm with a filament that is twice as thick and twice as dear, a text that is no
profile, and nothing. -/
def editedProfile : Nat → Entry
  | 0 => .file ("[[extruders]]\nindex = 1\noffset_x = 18.0\n" ++
      "[filament]\ndiameter = 2\ndensity = 1000\ncost_meter = 1\n").toUTF8
  | 1 => .file ("[[extruders]]\nindex = 1\noffset_x = 50.0\n" ++
      "[filament]\ndiameter = 4\ndensity = 1000\ncost_meter = 2\n").toUTF8
  | 2 => .file "[[extruders".toUTF8
  | _ => .missing .noSuchName

/-- A program that changes its tool behind a layer marker, and a profile. -/
def editedFiles (edits : Nat) : Files :=
  .ofList [("part.gcode", .file ";LAYER:0\nT1 G1 X10\n;LAYER:1\n".toUTF8),
    ("printer.toml", editedProfile edits)]

/-- An observer that edits the profile whenever it is told something, and stops a reading
when nothing is left of it. -/
def editingObserver : Observer Nat :=
  fun edits _ => ⟨edits + 1, if edits = 2 then .stop else .proceed, []⟩

/-- A toolpath that uses a metre of filament. -/
def metreUsed : Toolpath :=
  { Toolpath.empty with extrusion := 1000.0 }

/-- Four readings, in the course of which the observer edits the profile, and two edits by the
caller.  In between the caller asks for cost and weight. -/
def editingRequests : List (Request Nat) :=
  [.read (.file "part.gcode"), .read (.lines [";LAYER:0", "T1 G1 X10"]), .price metreUsed,
    .change fun _ => 1, .read (.file "part.gcode"), .weigh metreUsed,
    .change fun _ => 0, .price metreUsed, .read (.lines [";LAYER:0", "T1 G1 X10"]),
    .price metreUsed, .weigh metreUsed]

/-- The cost in an answer that is one. -/
def Answer.cost? : Answer → Option (Option String)
  | .cost text? => some text?
  | _ => none

/-- The weight in an answer that is one. -/
def Answer.weight? : Answer → Option Float
  | .weight kilograms => some kilograms
  | _ => none

/-- The observer of `editingRequests` edits the profile before the tool is changed, and each
reading keeps to the version it started with.  Cost and weight are those of the version that
is there when they are asked for.  So behind the last reading they are those of the second
version, although the reading started with the first. -/
theorem session_eq_expected_editing :
    (∀ input, .read input ∈ editingRequests → input.KeptBy editingObserver editedFiles) ∧
      (List.range 4).map (fun edits =>
        ((editedFiles edits "printer.toml").profile.nozzleOffset 1).x) =
          [18.0, 50.0, 0.0, 0.0] ∧
      Reader.session ⟨.file "printer.toml", .standard, editingObserver⟩ editedFiles 0
          editingRequests =
        expectedSession editedFiles "printer.toml" .standard editingObserver 0
          editingRequests ∧
      (Reader.session ⟨.file "printer.toml", .standard, editingObserver⟩ editedFiles 0
          editingRequests).filterMap Answer.cost? = [none, some "1.00", some "2.00"] ∧
      (Reader.session ⟨.file "printer.toml", .standard, editingObserver⟩ editedFiles 0
          editingRequests).filterMap Answer.weight? = [0.0, 0.012566370614359171] := by
  have hkept : ∀ input, .read input ∈ editingRequests →
      input.KeptBy editingObserver editedFiles := by
    intro input hinput
    simp only [editingRequests, List.mem_cons, Request.read.injEq, reduceCtorEq,
      List.not_mem_nil, or_false, false_or] at hinput
    rcases hinput with rfl | rfl | rfl | rfl
    · exact fun edits progress => rfl
    · trivial
    · exact fun edits progress => rfl
    · trivial
  have hsession := session_eq_expected editedFiles "printer.toml" .standard hkept 0
  refine ⟨hkept, by decide +kernel, hsession, ?_⟩
  rw [hsession]
  exact ⟨by decide +kernel, by decide +kernel⟩

/-- The first reading of a program in memory shifts its move by 18 mm, the second by 50 mm. -/
example :
    (List.range 2).map (fun edits =>
      (Reader.read ⟨.file "printer.toml", .standard, editingObserver⟩ editedFiles
        (.lines [";LAYER:0", "T1 G1 X10"]) edits).outcome.layers.toList.flatMap fun layer =>
          layer.points.map fun point => point.position.x) =
      [[0.0, 0.0, 28.0], [0.0, 0.0, 60.0]] := by
  decide +kernel

end PrintPath
