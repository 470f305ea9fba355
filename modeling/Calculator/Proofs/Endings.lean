import Calculator.Proofs.Machines
import Calculator.Proofs.Printing

/-!
# How runs end

A run of the program ends with a status, unless it meets what nobody provided for. What that
can be is listed (`Unprovided`): a precision that is none, or that is too large for the
values there are to print; and a file that is there but is no text, or whose path has the
character that ends paths. Nothing else ends a run early, and each of these does
(`ending_program`).

A file that cannot be accessed is provided for: the program says so, prints nothing, and
exits with the status `2`.
-/

namespace Calculator.CommandLine

variable (m : Elementary) (s : Surroundings)

namespace Request

/-- What is in the way of a request: a file that is there but is no text, or a path that
    cannot be that of a file. -/
def obstacle (r : Request) : Except Escape Unit :=
  match r.file.map (readText s.files) with
  | some (.error .embeddedNull) => .error .embeddedNull
  | some (.error .undecodable) => .error .undecodable
  | _ => .ok ()

/-- The values that a request prints, if they can be written. -/
def values (r : Request) : List Binary64 :=
  match r.file with
  | some path =>
    match readText s.files path with
    | .error _ => []
    | .ok contents =>
      let v := evaluatorFor m path
      let texts := Batch.expressions (Text.fileLines contents)
      if v.status texts = 0 then v.values texts ++ (evaluatorFor m "<argv>").values r.expressions
      else []
  | none =>
    if r.expressions.isEmpty then (evaluatorFor m "<stdin>").values s.input.texts
    else (evaluatorFor m "<argv>").values r.expressions

end Request

/-- The statuses with which the program exits. -/
def exitStatuses : List Nat := [0, 1, 2, interrupted]

theorem mem_exitStatuses_of_le_one {status : Nat} (h : status ≤ 1) : status ∈ exitStatuses := by
  rcases Nat.le_one_iff_eq_zero_or_eq_one.1 h with rfl | rfl <;> decide

variable {r : Request}

/-- A request that names no file is served from its expressions, or from the input. -/
theorem result_run_of_no_file (h : r.file = none) :
    ∃ status ∈ exitStatuses, (r.run m s).result = do
      printing r.precision (r.values m s)
      return status := by
  rw [Request.run, Request.values, h]
  dsimp only
  cases r.expressions.isEmpty with
  | false =>
    exact ⟨_, mem_exitStatuses_of_le_one (Evaluator.status_le_one _ _), result_evaluateAll _ _⟩
  | true =>
    rw [if_neg (by decide), if_pos rfl, Input.texts]
    by_cases hterminal : s.input.isTerminal = true
    · rw [if_pos hterminal, if_pos hterminal]
      obtain ⟨status, hstatus, hresult⟩ := result_converseFrom (evaluatorFor m "<stdin>")
        s.input.attempts
      refine ⟨status, ?_, hresult⟩
      rcases hstatus with rfl | rfl <;> decide
    · rw [if_neg hterminal, if_neg hterminal]
      obtain ⟨status, hstatus, hresult⟩ := result_evaluatePiped (evaluatorFor m "<stdin>")
        s.input.attempts
      refine ⟨status, ?_, hresult⟩
      rcases hstatus with hstatus | rfl
      · exact mem_exitStatuses_of_le_one hstatus
      · decide

variable {path : String}

/-- A request with a file that can be read is served from the file, and then, if all of the
    file has values, from its expressions. -/
theorem result_run_of_text {contents : String} (h : r.file = some path)
    (hread : readText s.files path = .ok contents) :
    ∃ status ∈ exitStatuses, (r.run m s).result = do
      printing r.precision (r.values m s)
      return status := by
  rw [Request.run, Request.values, h]
  dsimp only
  rw [hread, Run.result_bind, result_evaluateFile _ hread, bind_assoc, fileValues]
  dsimp only
  generalize Batch.expressions (Text.fileLines contents) = texts
  generalize evaluatorFor m path = v
  by_cases hstatus : v.status texts = 0
  · rw [if_pos hstatus, if_pos hstatus, hstatus]
    -- Expressions have the last word on the status, if there are any.
    cases r.expressions with
    | nil =>
      refine ⟨0, by decide, ?_⟩
      rw [show (evaluatorFor m "<argv>").values [] = [] from rfl, List.append_nil]
      rfl
    | cons text rest =>
      refine ⟨(evaluatorFor m "<argv>").status (text :: rest),
        mem_exitStatuses_of_le_one (Evaluator.status_le_one _ _), ?_⟩
      rw [printing_append, bind_assoc, ← result_evaluateAll]
      rfl
  · rw [if_neg hstatus, if_neg hstatus]
    refine ⟨_, mem_exitStatuses_of_le_one (v.status_le_one texts), bind_congr fun _ => ?_⟩
    rw [pure_bind, decide_eq_true hstatus, Bool.true_or, if_pos rfl]
    rfl

/-- Without an obstacle, a request ends with a status once its values are printed. -/
theorem result_run (r : Request) :
    ∃ status ∈ exitStatuses, (r.run m s).result = do
      r.obstacle s
      printing r.precision (r.values m s)
      return status := by
  cases hfile : r.file with
  | none =>
    obtain ⟨status, hstatus, hresult⟩ := result_run_of_no_file m s hfile
    refine ⟨status, hstatus, ?_⟩
    rw [hresult, Request.obstacle, hfile]
    rfl
  | some path =>
    cases hread : readText s.files path with
    | ok contents =>
      obtain ⟨status, hstatus, hresult⟩ := result_run_of_text m s hfile hread
      refine ⟨status, hstatus, ?_⟩
      rw [hresult, Request.obstacle, hfile, Option.map_some, hread]
      rfl
    | error e =>
      refine ⟨2, by decide, ?_⟩
      rw [Request.run, Request.obstacle, Request.values, hfile, Option.map_some]
      dsimp only
      rw [hread, evaluateFile, attemptFile, hread]
      cases e <;> rfl

/-- Where something is in the way, it is the file. -/
theorem obstacle_eq_error_iff {e : Escape} :
    r.obstacle s = .error e ↔ ∃ path, r.file = some path ∧
      (readText s.files path = .error .embeddedNull ∧ e = .embeddedNull ∨
        readText s.files path = .error .undecodable ∧ e = .undecodable) := by
  rw [Request.obstacle]
  cases hfile : r.file with
  | none => exact ⟨nofun, nofun⟩
  | some path =>
    rw [Option.map_some]
    cases hread : readText s.files path with
    | ok contents => simp [hread]
    | error reason => cases reason <;> simp [hread, eq_comm]

/-- Nothing is printed if something is in the way. -/
theorem values_of_obstacle {e : Escape} (h : r.obstacle s = .error e) : r.values m s = [] := by
  obtain ⟨path, hfile, hread⟩ := (obstacle_eq_error_iff s).1 h
  rw [Request.values, hfile]
  rcases hread with ⟨hread, _⟩ | ⟨hread, _⟩ <;> simp only [hread]

theorem result_run_eq_error_iff {e : Escape} :
    (r.run m s).result = .error e ↔
      r.obstacle s = .error e ∨ printing r.precision (r.values m s) = .error e := by
  obtain ⟨status, _, hresult⟩ := result_run m s r
  rw [hresult]
  cases hobstacle : r.obstacle s with
  | error e' =>
    rw [values_of_obstacle m s hobstacle]
    show (Except.error e' : Except Escape Nat) = .error e ↔ _
    simp only [Except.error.injEq]
    exact ⟨.inl, fun h => h.elim id nofun⟩
  | ok u =>
    cases printing r.precision (r.values m s) with
    | error e' =>
      show (Except.error e' : Except Escape Nat) = .error e ↔ _
      simp only [Except.error.injEq]
      exact ⟨.inr, fun h => h.elim nofun id⟩
    | ok u' => exact ⟨nofun, fun h => h.elim nofun nofun⟩

/-- What nobody provided for in a run with a command line. -/
inductive Unprovided (argv : List String) : Escape → Prop
  /-- The precision is a bare `--`. -/
  | noPrecision : Request.read argv = .error .noPrecision → Unprovided argv .noPrecision
  /-- The path of the file has the character that ends paths. -/
  | embeddedNull {r : Request} {path : String} : Request.read argv = .ok r → r.file = some path →
      readText s.files path = .error .embeddedNull → Unprovided argv .embeddedNull
  /-- The file is there, but it is no text. -/
  | undecodable {r : Request} {path : String} : Request.read argv = .ok r → r.file = some path →
      readText s.files path = .error .undecodable → Unprovided argv .undecodable
  /-- There is a value to print, and no way to write it. -/
  | precision {r : Request} {e : PrecisionError} : Request.read argv = .ok r →
      significantDigits r.precision = .error e → r.values m s ≠ [] →
      Unprovided argv (.precision e)

theorem ending_of_request {argv : List String} (h : Request.read argv = .ok r) :
    (program m s argv).ending = (r.run m s).result := by
  rw [program, h]
  rfl

/-- What nobody provided for ends a run early, and nothing else does. -/
theorem ending_eq_error_iff (argv : List String) (e : Escape) :
    (program m s argv).ending = .error e ↔ Unprovided m s argv e := by
  constructor
  · intro h
    cases hargv : Request.read argv with
    | error stop =>
      -- Whatever else stops the reading of a command line is answered with a status.
      rw [program, hargv] at h
      cases stop with
      | noPrecision =>
        obtain rfl : Escape.noPrecision = e := Except.error.inj h
        exact .noPrecision hargv
      | help | version | usage => exact absurd h nofun
    | ok r =>
      rw [ending_of_request m s hargv, result_run_eq_error_iff] at h
      rcases h with hobstacle | hprinting
      · obtain ⟨path, hfile, ⟨hread, rfl⟩ | ⟨hread, rfl⟩⟩ := (obstacle_eq_error_iff s).1 hobstacle
        · exact .embeddedNull hargv hfile hread
        · exact .undecodable hargv hfile hread
      · obtain ⟨refusal, hrefusal, rfl, hvalues⟩ := printing_eq_error_iff.1 hprinting
        exact .precision hargv hrefusal hvalues
  · rintro (hargv | ⟨hargv, hfile, hread⟩ | ⟨hargv, hfile, hread⟩ | ⟨hargv, hrefusal, hvalues⟩)
    · rw [program, hargv]
      rfl
    · rw [ending_of_request m s hargv, result_run_eq_error_iff]
      exact .inl ((obstacle_eq_error_iff s).2 ⟨_, hfile, .inl ⟨hread, rfl⟩⟩)
    · rw [ending_of_request m s hargv, result_run_eq_error_iff]
      exact .inl ((obstacle_eq_error_iff s).2 ⟨_, hfile, .inr ⟨hread, rfl⟩⟩)
    · rw [ending_of_request m s hargv, result_run_eq_error_iff]
      exact .inr (printing_eq_error_iff.2 ⟨_, hrefusal, rfl, hvalues⟩)

/-- A run that does not end early ends with one of the statuses. -/
theorem mem_exitStatuses_of_ending {argv : List String} {status : Nat}
    (h : (program m s argv).ending = .ok status) : status ∈ exitStatuses := by
  cases hargv : Request.read argv with
  | error stop =>
    rw [program, hargv] at h
    cases stop with
    | noPrecision => exact absurd h nofun
    | help | version | usage =>
      obtain rfl := Except.ok.inj h
      decide
  | ok r =>
    obtain ⟨status', hstatus', hresult⟩ := result_run m s r
    rw [ending_of_request m s hargv, hresult] at h
    cases hobstacle : r.obstacle s with
    | error e =>
      rw [hobstacle] at h
      exact absurd h nofun
    | ok u =>
      rw [hobstacle] at h
      cases hprinting : printing r.precision (r.values m s) with
      | error e =>
        rw [hprinting] at h
        exact absurd h nofun
      | ok u' =>
        rw [hprinting] at h
        obtain rfl : status' = status := Except.ok.inj h
        exact hstatus'

/-- A run ends early exactly if it meets something that nobody provided for. Otherwise it
    ends with one of the statuses; with `2`, and without having printed anything, if its file
    cannot be accessed. -/
theorem ending_program (argv : List String) :
    (∀ e, (program m s argv).ending = .error e ↔ Unprovided m s argv e) ∧
      (∀ status, (program m s argv).ending = .ok status → status ∈ exitStatuses) ∧
      ∀ (r : Request) (path : String) (reason : ReadError),
        Request.read argv = .ok r → r.file = some path →
          readText s.files path = .error (.inaccessible reason) →
            (program m s argv).ending = .ok 2 ∧ (program m s argv).stdout = "" := by
  refine ⟨ending_eq_error_iff m s argv, fun _ => mem_exitStatuses_of_ending m s,
    fun r path reason hargv hfile hread => ?_⟩
  rw [program, hargv]
  dsimp only
  rw [Request.run, hfile]
  dsimp only
  rw [evaluateFile, attemptFile, hread]
  exact ⟨rfl, rfl⟩

/-- Without any files, a run on one ends with the status `2`. -/
theorem ending_program_noFiles :
    let t := program .plain ⟨Directory.read ⟨[]⟩, .ofText false "1"⟩ ["--file", "f.txt"]
    t.ending = .ok 2 ∧ t.stdout = "" :=
  (ending_program .plain _ _).2.2 _ "f.txt" .notFound read_oneFile rfl rfl

/-- One byte that begins no character ends a run early. -/
theorem ending_not_mem_exitStatuses :
    ¬ ∃ status ∈ exitStatuses,
      (program .plain ⟨oneFile ⟨#[0xFF]⟩, .ofText false ""⟩
        ["--file", "f.txt"]).ending = .ok status := by
  have hbytes : String.fromUTF8? ⟨#[0xFF]⟩ = none := by decide +kernel
  have hread := readText_oneFile ⟨#[0xFF]⟩
  rw [hbytes, Option.elim_none] at hread
  rintro ⟨status, _, hstatus⟩
  rw [(ending_eq_error_iff _ _ _ .undecodable).2 (.undecodable read_oneFile rfl hread)] at hstatus
  exact absurd hstatus nofun

end Calculator.CommandLine
