import BraceBalance.Batch
import BraceBalance.Command.Help
import BraceBalance.Command.LogText
import BraceBalance.Output
import BraceBalance.Settings.Load

/-!
# Command/Run — what a command does

A command prints, changes files and ends with a status.  Only `watch` goes on; it has a module of
its own, and what comes here of it is how it starts.
-/

namespace BraceBalance

namespace Command

/-- What a command leaves. -/
structure Outcome where
  status : Nat
  printed : Bytes := []
  /-- What is printed for errors, log lines among it. -/
  told : Bytes := []
  tree : FileTree

/-- What surrounds a command. -/
structure World where
  environment : Environment := {}
  tree : FileTree
  now : Int := 0
  /-- Whether the output is coloured. -/
  colour : Bool := false

/-- A command whose flags are understood. -/
structure Task where
  request : Request
  world : World
  level : Level

namespace Task

/-- The outcome with this status and log. -/
def outcome (k : Task) (status : Nat) (printed : Bytes) (log : List LogEntry) (t : FileTree) :
    Outcome :=
  { status, printed, told := LogText.write k.level log, tree := t }

/-- The outcome of a command that cannot begin. -/
def fatal (k : Task) (e : LogEntry) (t : FileTree) : Outcome := k.outcome 1 [] [e] t

/-- The file the settings are read from. -/
def config (k : Task) : Bytes := k.request.config k.world.environment

/-- The settings, and the checker they and the flags ask for. -/
def prepare (k : Task) : Except Outcome (Settings × Checker) :=
  let made := do
    let s ← Settings.load k.world.tree k.config
    return (s, ← s.checker)
  match made with
  | .ok (s, c) =>
    let g := k.request.given
    .ok (s, c.ignoring (splitList g.ignore) (splitList g.ignorePaths))
  | .error f =>
    .error (k.fatal (.failed .fatal "Failed to initialize engine" f) k.world.tree)

/-- The checker with the cache that the flags ask for. -/
def withCache (k : Task) (c : Checker) (t : FileTree) : Except Outcome (Checker × FileTree) :=
  let dir := k.request.given.cacheDir
  if dir.isEmpty then .ok (c, t)
  else match Cache.openAt t dir with
    | (.ok cache, t) => .ok ({ c with cache := some cache }, t)
    | (.error f, t) => .error (k.fatal (.failedAt "Failed to open cache" "dir" dir f) t)

/-- The tree with the output file that the flags ask for, still empty. -/
def withOutput (k : Task) (t : FileTree) : Except Outcome FileTree :=
  let path := k.request.given.output
  if path.isEmpty then .ok t
  else match t.create path [] with
    | .ok t => .ok t
    | .error e =>
      .error (k.fatal (.failedAt "Failed to create output file" "path" path (.path .unnamed e)) t)

/-- A time, in nanoseconds, that is over before a check has begun. -/
def tooShort : Int := 50000

/-- Why no directory is checked: the time for it is over. -/
def interruption (k : Task) : Option Failure :=
  if k.request.timeout k.world.environment < tooShort then some .deadlineExceeded else none

/-- Prints the output, or writes it into the file that the flags ask for. -/
def deliver (k : Task) (text : Bytes) (t : FileTree) : Bytes × FileTree :=
  let path := k.request.given.output
  if path.isEmpty then (text, t)
  else match t.create path text with
    | .ok t => ([], t)
    | .error _ => ([], t)

/-- Checks paths. -/
def checkPaths (k : Task) : Except Outcome Outcome := do
  let (s, c) ← k.prepare
  let (c, t) ← k.withCache c k.world.tree
  let t ← k.withOutput t
  let process (c : Checker) (t : FileTree) (file : Bytes) := c.run t k.world.now file
  let (answer, p) :=
    Batch.paths process k.interruption s.extensions { checker := c, tree := t } k.request.operands
  let failure (f : Failure) :=
    k.outcome 1 [] (p.log ++ [.failed .error "Error checking files" f]) p.tree
  match answer with
  | .error f => return failure f
  | .ok results =>
    match Output.write k.request.given.format k.world.colour s.report results with
    | .error f => return failure f
    | .ok text =>
      let (printed, t) := k.deliver text p.tree
      let status := if k.request.given.fail && 0 < Output.problems results then 1 else 0
      return k.outcome status printed p.log t

/-- Checks the paths that are given, of which there must be some. -/
def check (k : Task) : Outcome :=
  if k.request.operands.isEmpty then
    k.outcome 1 "error: Please provide file or directory paths\n" [] k.world.tree
  else match k.checkPaths with
    | .ok outcome => outcome
    | .error outcome => outcome

/-- Writes the standard settings. -/
def writeSettings (k : Task) : Outcome :=
  match Settings.writeStandard k.world.tree k.config with
  | .ok t =>
    k.outcome 0 ("Configuration file created/updated: " ++ k.config ++ "\n") [] t
  | .error f =>
    k.outcome 0 [] [.failed .error "Error initializing config file" f] k.world.tree

end Task

/-! ## From arguments to a task -/

/-- The outcome of printing the page of help. -/
def helped (w : World) : Outcome := { status := 0, printed := helpPage, tree := w.tree }

/-- The outcome of a command line that is not understood. -/
def refused (w : World) (message : Bytes) : Outcome :=
  { status := 1, told := "Error: " ++ message ++ "\n", tree := w.tree }

/-- The outcome of a command line that misuses flags. -/
def misused (w : World) (m : Misuse) : Outcome :=
  let o := refused w m.error.message
  if m.beforeVerb then { o with told := o.told ++ "Run 'bracecheck --help' for usage.\n" } else o

/-- The task that arguments ask for, unless they ask for help or are not understood. -/
def Task.ofArgs (w : World) (args : List Bytes) : Except Outcome Task :=
  match Request.ofArgs args with
  | .error m => .error (misused w m)
  | .ok r =>
    if r.given.help || r.verb = .help then .error (helped w)
    else match Level.ofName (r.logLevel w.environment) with
      | .ok level => .ok { request := r, world := w, level }
      | .error f => .error (refused w f.message)

end Command

end BraceBalance
