import PrintPath.CommandLine.Arguments

/-!
# Arguments and the calls that ask for them

Arguments are read from the words of a call.  Here is the way back: `Arguments.call` writes
arguments out as a call, the options first, with their values glued to them, and then the files
behind the mark that ends the options.  So a value may start with a dash and a file may look
like an option.

`Arguments.read_call` says that such a call asks for just these arguments.  Only arguments
without a file, or with an empty path, cannot be asked for, because these are refused when they
are settled (`Settled.settle`).  So arguments are what some call asks for exactly if they are
proper (`Arguments.exists_read_eq_ok_iff`), and whatever is said of proper arguments is said of
the calls that the program carries out.

The other direction is an invariant of the words that are taken: whatever has been settled
holds no empty path.  Taking a word can fail, so it is said of what a word leads to, if it leads
to anything (`Yields`).
-/

namespace PrintPath
namespace CommandLine

/-- Whether arguments name a file and no path is empty. -/
structure Arguments.Proper (arguments : Arguments) : Prop where
  files_ne_nil : arguments.files ≠ []
  files : .empty ∉ arguments.files
  profile : arguments.profile ≠ some .empty

/-- A long option with a value glued to it. -/
def glue (name value : RawText) : RawText :=
  "--" ++ name ++ "=" ++ value

/-- The words of a call that ask for JSON. -/
def jsonWords (json : Bool) : List RawText :=
  if json then ["--json"] else []

/-- A call that asks for given arguments. -/
def Arguments.call (arguments : Arguments) : List RawText :=
  jsonWords arguments.json ++ arguments.profile.toList.map (glue "profile") ++
    glue "log-level" arguments.logLevel :: .ofString "--" :: arguments.files

/-! ## Words with a value glued to them -/

theorem splitEquals_append {name : List UInt8} (h : equalsSign ∉ name) (value : List UInt8) :
    splitEquals (name ++ equalsSign :: value) = (⟨name⟩, some ⟨value⟩) := by
  have hname : ∀ byte ∈ name, (byte != equalsSign) = true := by
    intro byte hbyte
    rw [bne_iff_ne]
    rintro rfl
    exact h hbyte
  unfold splitEquals
  rw [List.takeWhile_append_of_pos hname, List.dropWhile_append_of_pos hname,
    List.takeWhile_cons_of_neg (by decide), List.dropWhile_cons_of_neg (by decide),
    List.append_nil]

/-- A long option is divided at its first equals sign. -/
theorem shape_glue {name : RawText} (hne : name ≠ .empty) (hname : equalsSign ∉ name.bytes)
    (value : RawText) : shape (glue name value) = .long name (some value) := by
  have hbytes : (glue name value).bytes =
      dash :: dash :: (name.bytes ++ equalsSign :: value.bytes) := by
    show [dash, dash] ++ name.bytes ++ [equalsSign] ++ value.bytes = _
    rw [List.append_assoc, List.append_assoc]
    rfl
  obtain ⟨bytes⟩ := name
  obtain ⟨first, rest, rfl⟩ : ∃ first rest, bytes = first :: rest :=
    List.exists_cons_of_ne_nil fun h => hne (congrArg RawText.mk h)
  have hsplit := splitEquals_append hname value.bytes
  unfold shape
  rw [hbytes]
  show Shape.long (splitEquals (first :: rest ++ equalsSign :: value.bytes)).1
    (splitEquals (first :: rest ++ equalsSign :: value.bytes)).2 = _
  rw [hsplit]

/-! ## Taking the words of a call -/

namespace Progress

/-- A word that is taken leaves the others. -/
theorem foldlM_cons_of_ok {p q : Progress} {word : RawText} (h : p.step word = .ok q)
    (words : List RawText) : (word :: words).foldlM step p = words.foldlM step q := by
  rw [List.foldlM_cons, h]
  rfl

/-- Behind a word that is refused no other is looked at. -/
theorem foldlM_cons_of_error {p : Progress} {word : RawText} {e : UsageError}
    (h : p.step word = .error e) (words : List RawText) :
    (word :: words).foldlM step p = .error e := by
  rw [List.foldlM_cons, h]
  rfl

theorem step_long {p : Progress} (hopen : p.onlyFiles = false) {word name : RawText}
    {value : Option RawText} (h : shape word = .long name value) :
    p.step word = p.takeLong name value := by
  unfold step
  rw [hopen, h]
  rfl

/-- What is waiting is settled, or refused, when something else is to wait. -/
theorem await_eq (p : Progress) (waiting : Waiting) :
    p.await waiting =
      (p.settled.settle p.waiting).map fun settled => { p with settled, waiting } := by
  unfold await
  cases p.settled.settle p.waiting <;> rfl

/-- An option with its value glued to it is settled at once. -/
theorem takeOption_glued (before : Settled) (name : ValueOption) (value : RawText) :
    takeOption ⟨before, .nothing, false⟩ name (some value) =
      (before.settle (.option name (some value))).map fun settled =>
        ⟨settled, .nothing, false⟩ := by
  unfold takeOption
  rw [await_eq]
  exact await_eq ⟨before, .option name (some value), false⟩ .nothing

theorem step_profile {settled : Settled} (hnew : settled.profile = none) (path : Path) :
    step ⟨settled, .nothing, false⟩ (glue "profile" path) =
      if path = .empty then .error .invalidValue
      else .ok ⟨{ settled with profile := some path }, .nothing, false⟩ := by
  rw [step_long rfl (shape_glue (by decide) (by decide) path)]
  show takeOption _ .profile (some path) = _
  rw [takeOption_glued, Settled.settle, hnew]
  show Except.map _ (if path = .empty then _ else _) = _
  split <;> rfl

theorem step_logLevel {settled : Settled} (hnew : settled.logLevel = none) (level : String) :
    step ⟨settled, .nothing, false⟩ (glue "log-level" level) =
      .ok ⟨{ settled with logLevel := some level }, .nothing, false⟩ := by
  rw [step_long rfl (shape_glue (by decide) (by decide) level)]
  show takeOption _ .logLevel (some (RawText.ofString level)) = _
  rw [takeOption_glued, Settled.settle, hnew]
  simp only [RawText.text?_ofString]
  rfl

/-- Behind the mark that ends the options every word joins the files. -/
theorem foldlM_files (settled : Settled) (front paths : List Path) :
    paths.foldlM step ⟨settled, .files front, true⟩ =
      .ok ⟨settled, .files (front ++ paths), true⟩ := by
  induction paths generalizing front with
  | nil =>
    rw [List.append_nil]
    rfl
  | cons path paths ih =>
    rw [foldlM_cons_of_ok (q := ⟨settled, .files (front ++ [path]), true⟩) rfl, ih,
      List.append_assoc]
    rfl

theorem foldlM_jsonWords (json : Bool) (words : List RawText) :
    (jsonWords json ++ words).foldlM step .start =
      words.foldlM step ⟨⟨[], none, json, none⟩, .nothing, false⟩ := by
  cases json with
  | false => rfl
  | true => exact foldlM_cons_of_ok rfl words

/-- The words of a call, up to the last file. -/
theorem foldlM_call {arguments : Arguments} (hprofile : arguments.profile ≠ some .empty)
    {path : Path} {rest : List Path} (hfiles : arguments.files = path :: rest) :
    arguments.call.foldlM step .start =
      .ok ⟨⟨[], arguments.profile, arguments.json, some arguments.logLevel⟩,
        .files arguments.files, true⟩ := by
  obtain ⟨files, profile, json, logLevel⟩ := arguments
  subst hfiles
  have hoptions (words : List RawText) :
      (profile.toList.map (glue "profile") ++ words).foldlM step
          ⟨⟨[], none, json, none⟩, .nothing, false⟩ =
        words.foldlM step ⟨⟨[], profile, json, none⟩, .nothing, false⟩ := by
    cases profile with
    | none => rfl
    | some path =>
      have hpath : path ≠ .empty := fun h => hprofile (congrArg some h)
      exact foldlM_cons_of_ok ((step_profile rfl path).trans (if_neg hpath)) words
  unfold Arguments.call
  rw [List.append_assoc, foldlM_jsonWords, hoptions]
  let settled : Settled := ⟨[], profile, json, some logLevel⟩
  have hmark : step ⟨settled, .nothing, false⟩ "--" = .ok ⟨settled, .nothing, true⟩ := rfl
  have hfirst : step ⟨settled, .nothing, true⟩ path = .ok ⟨settled, .files [path], true⟩ := rfl
  rw [foldlM_cons_of_ok (step_logLevel rfl logLevel), foldlM_cons_of_ok hmark,
    foldlM_cons_of_ok hfirst, foldlM_files]
  rfl

/-- An empty path to a profile is refused before any file is looked at. -/
theorem foldlM_call_of_emptyProfile {arguments : Arguments}
    (h : arguments.profile = some .empty) :
    arguments.call.foldlM step .start = .error .invalidValue := by
  obtain ⟨files, profile, json, logLevel⟩ := arguments
  subst h
  unfold Arguments.call
  rw [List.append_assoc, foldlM_jsonWords]
  exact foldlM_cons_of_error ((step_profile rfl .empty).trans (if_pos rfl)) _

end Progress

/-- The reading of a call, when all its words have been taken. -/
theorem Arguments.read_of_foldlM {call : List RawText} {p : Progress}
    (h : call.foldlM Progress.step .start = .ok p) :
    Arguments.read call = (p.settled.settle p.waiting).bind fun settled =>
      if settled.files = [] then .error .missingFiles
      else .ok ⟨settled.files, settled.profile, settled.json,
        settled.logLevel.getD defaultLogLevel⟩ := by
  unfold Arguments.read
  rw [h]
  show (p.await .nothing >>= fun p => _) = _
  rw [Progress.await_eq]
  cases p.settled.settle p.waiting <;> rfl

/-- **A call that was written for some arguments asks for them.** -/
theorem Arguments.read_call {arguments : Arguments} (h : arguments.Proper) :
    Arguments.read arguments.call = .ok arguments := by
  obtain ⟨path, rest, hcons⟩ := List.exists_cons_of_ne_nil h.files_ne_nil
  rw [read_of_foldlM (Progress.foldlM_call h.profile hcons), Settled.settle, if_neg h.files]
  exact if_neg h.files_ne_nil

/-- **An empty path is refused**, as a mistake in the call. -/
theorem Arguments.read_call_of_not_proper {arguments : Arguments} (hfiles : arguments.files ≠ [])
    (h : ¬ arguments.Proper) : Arguments.read arguments.call = .error .invalidValue := by
  by_cases hprofile : arguments.profile = some .empty
  · unfold Arguments.read
    rw [Progress.foldlM_call_of_emptyProfile hprofile]
    rfl
  · have hempty : .empty ∈ arguments.files :=
      Decidable.byContradiction fun hnone => h ⟨hfiles, hnone, hprofile⟩
    obtain ⟨path, rest, hcons⟩ := List.exists_cons_of_ne_nil hfiles
    rw [read_of_foldlM (Progress.foldlM_call hprofile hcons), Settled.settle, if_pos hempty]
    rfl

/-! ## What can be asked for -/

/-- Whether whatever a computation leads to has a property. -/
def Yields {ε α : Type} (property : α → Prop) (computation : Except ε α) : Prop :=
  ∀ result, computation = .ok result → property result

namespace Yields

variable {ε α β : Type} {property : α → Prop} {next : β → Prop}

theorem ok {result : α} (h : property result) :
    Yields property (.ok result : Except ε α) := by
  rintro _ ⟨⟩
  exact h

theorem error (e : ε) : Yields property (.error e) := by
  rintro _ ⟨⟩

theorem bind {computation : Except ε α} {continuation : α → Except ε β}
    (h : Yields property computation)
    (hnext : ∀ result, property result → Yields next (continuation result)) :
    Yields next (computation >>= continuation) := by
  cases computation with
  | error e => exact error e
  | ok result => exact hnext result (h result rfl)

theorem ite {condition : Prop} [Decidable condition] {yes no : Except ε α}
    (hyes : condition → Yields property yes) (hno : ¬ condition → Yields property no) :
    Yields property (if condition then yes else no) := by
  split
  · next h => exact hyes h
  · next h => exact hno h

end Yields

/-- Whether what has been settled holds no empty path. -/
structure Settled.Proper (settled : Settled) : Prop where
  files : .empty ∉ settled.files
  profile : settled.profile ≠ some .empty

/-- An empty path is never settled. -/
theorem Settled.Proper.settle {settled : Settled} (h : settled.Proper) (waiting : Waiting) :
    Yields Settled.Proper (settled.settle waiting) := by
  match waiting with
  | .nothing => exact .ok h
  | .files paths =>
    refine .ite (fun _ => .error _) fun hpaths => .ok ⟨fun hempty => ?_, h.profile⟩
    exact (List.mem_append.mp hempty).elim h.files hpaths
  | .option _ .none => exact .error _
  | .option .profile (some path) =>
    refine .ite (fun _ => .error _) fun _ => .ite (fun _ => .error _) fun hpath => ?_
    exact .ok ⟨h.files, fun hempty => hpath (Option.some.inj hempty)⟩
  | .option .logLevel (some level) =>
    refine .ite (fun _ => .error _) fun _ => ?_
    split
    · exact .error _
    · exact .ok ⟨h.files, h.profile⟩

namespace Progress

/-- Whether no empty path has been settled. -/
def Proper (p : Progress) : Prop :=
  p.settled.Proper

variable {p : Progress}

theorem Proper.await (h : p.Proper) (waiting : Waiting) : Yields Proper (p.await waiting) :=
  .bind (h.settle p.waiting) fun _ hsettled => .ok hsettled

theorem Proper.takeFile (h : p.Proper) (path : Path) : Yields Proper (p.takeFile path) := by
  unfold Progress.takeFile
  split
  · exact .ok h
  · exact h.await _

theorem Proper.takeOption (h : p.Proper) (name : ValueOption) (value : Option RawText) :
    Yields Proper (p.takeOption name value) := by
  cases value with
  | none => exact h.await _
  | some value => exact .bind (h.await _) fun _ hnext => hnext.await _

theorem Proper.takeJson (h : p.Proper) : Yields Proper p.takeJson := by
  refine .bind (h.await _) fun next hnext => ?_
  exact .ite (fun _ => .error _) fun _ => .ok ⟨hnext.files, hnext.profile⟩

theorem Proper.takeQuestion (h : p.Proper) (answer : UsageError) :
    Yields Proper (p.takeQuestion answer) :=
  .bind (h.await _) fun _ _ => .error answer

theorem Proper.takeFlag {take : Except UsageError Progress} (h : Yields Proper take)
    (value : Option RawText) : Yields Proper (Progress.takeFlag value take) := by
  cases value with
  | none => exact h
  | some value => exact .error _

theorem Proper.takeLong (h : p.Proper) (name : RawText) (value : Option RawText) :
    Yields Proper (p.takeLong name value) := by
  refine .ite (fun _ => h.takeOption _ _) fun _ => .ite (fun _ => h.takeOption _ _) fun _ => ?_
  refine .ite (fun _ => takeFlag h.takeJson _) fun _ => ?_
  refine .ite (fun _ => takeFlag (h.takeQuestion _) _) fun _ => ?_
  exact .ite (fun _ => takeFlag (h.takeQuestion _) _) fun _ => .error _

theorem Proper.takeShort (h : p.Proper) (first : UInt8) : Yields Proper (p.takeShort first) :=
  .ite (fun _ => h.takeQuestion _) fun _ => .ite (fun _ => h.takeQuestion _) fun _ => .error _

theorem Proper.takePlain (h : p.Proper) (argument : RawText) :
    Yields Proper (p.takePlain argument) := by
  unfold Progress.takePlain
  split
  · exact .ok h
  · exact h.takeFile _

/-- No word settles an empty path. -/
theorem Proper.step (h : p.Proper) (argument : RawText) : Yields Proper (p.step argument) := by
  refine .ite (fun _ => h.takeFile _) fun _ => ?_
  split
  · exact .ok h
  · exact h.takeLong _ _
  · exact h.takeShort _
  · exact h.takePlain _

theorem Proper.foldlM (h : p.Proper) (words : List RawText) :
    Yields Proper (words.foldlM Progress.step p) := by
  induction words generalizing p with
  | nil => exact .ok h
  | cons word words ih =>
    rw [List.foldlM_cons]
    exact .bind (h.step word) fun _ hnext => ih hnext

end Progress

/-- What a call asks for is proper. -/
theorem Arguments.proper_of_read {call : List RawText} {arguments : Arguments}
    (h : Arguments.read call = .ok arguments) : arguments.Proper := by
  have hstart : Progress.start.Proper := ⟨List.not_mem_nil, nofun⟩
  refine Yields.bind (hstart.foldlM call) (fun p hp => ?_) arguments h
  refine Yields.bind (hp.await .nothing) fun q hq => ?_
  exact .ite (fun _ => .error _) fun hfiles => .ok ⟨hfiles, hq.files, hq.profile⟩

/-- **Arguments can be asked for exactly if they are proper.** -/
theorem Arguments.exists_read_eq_ok_iff (arguments : Arguments) :
    (∃ call, Arguments.read call = .ok arguments) ↔ arguments.Proper :=
  ⟨fun ⟨_, h⟩ => proper_of_read h, fun h => ⟨arguments.call, read_call h⟩⟩

end CommandLine
end PrintPath
