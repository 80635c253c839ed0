import BuildLauncher.Shell.Builtin
import BuildLauncher.Shell.Program
import BuildLauncher.Shell.Reader

/-!
# Running scripts

Expands words and carries out commands.  The first argument of every function counts down and bounds
how long scripts run.
-/

namespace BuildLauncher.Shell

/-! ## Values -/

/-- The pieces of the value of a parameter or command.  Without quotes it is split into fields. -/
def valuePieces (quoted : Bool) (value : Raw) : List Piece :=
  (if quoted then [.keep] else []) ++ value.map fun c => .char c quoted (!quoted)

/-- Pieces that are split where they are not quoted. -/
def splitting (pieces : List Piece) : List Piece :=
  pieces.map fun
    | .char c false _ => .char c false true
    | p => p

/-- The positional parameters as fields of their own. -/
def parameterPieces (quoted : Bool) (parameters : List Raw) : List Piece :=
  [Piece.cut].intercalate (parameters.map (valuePieces quoted))

/-- A text without the line ends behind it. -/
def withoutLineEnds (text : Raw) : Raw := (text.reverse.dropWhile (· = '\n')).reverse

/-- A word with the home directory in place of a tilde at its start. -/
def homeWord (s : State) (word : Word) : Word :=
  match word, s.value? "HOME".toList with
  | .text false ['~'] :: rest, some home =>
    match rest with
    | [] => [.text true home]
    | .text false ['/'] :: _ => .text true home :: rest
    | _ => word
  | _, _ => word

/-- The status after a program, as a shell counts it. -/
def statusOf : Exit → Nat
  | .code n => n
  | .signal n => 128 + n

/-- How a shell ends that has nothing more to do. -/
def exitOf (s : State) : Exit :=
  match s.flow with
  | some (.exit n) => .code n
  | some (.killed n) => .signal n
  | _ => .code s.status

/-! ## Evaluation -/

mutual

/-- Expands the parts of a word. -/
def expandParts : Nat → List Part → State → List Piece × State
  | 0, _, s | _, [], s => ([], s)
  | fuel + 1, part :: rest, s =>
    let (pieces, s) := expandPart fuel part s
    let (more, s) := expandParts fuel rest s
    (pieces ++ more, s)

/-- Expands one part. -/
def expandPart : Nat → Part → State → List Piece × State
  | 0, _, s => ([], s)
  | fuel + 1, part, s =>
    match part with
    | .text quoted cs =>
      (if cs.isEmpty then [.keep] else cs.map fun c => .char c quoted false, s)
    | .output quoted script =>
      let inner := { s with
        world := { s.world with collected := [] }
        setting := { s.setting with out := .collected } }
      let after := runAll fuel script inner
      let text := withoutLineEnds after.world.collected
      let flow := match after.flow with
        | some (.killed n) => some (Flow.killed n)
        | _ => s.flow
      (valuePieces quoted text,
        { s with
          world := { after.world with collected := s.world.collected }
          status := statusOf (exitOf after)
          flow })
    | .parameter quoted name op argument =>
      let current := s.parameter? name
      let isMissing (orEmpty : Bool) : Bool :=
        match current with
        | none => true
        | some v => orEmpty && v.isEmpty
      let pieces : List Piece :=
        if name = ['@'] ∨ (name = ['*'] ∧ quoted = false) then parameterPieces quoted s.parameters
        else valuePieces quoted (current.getD [])
      let expanded (s : State) : List Piece × State :=
        let (more, s) := expandParts fuel argument s
        (if quoted then .keep :: more else splitting more, s)
      match op with
      | .plain => (pieces, s)
      | .default orEmpty => if isMissing orEmpty then expanded s else (pieces, s)
      | .alternative orEmpty =>
        if isMissing orEmpty then (if quoted then [.keep] else [], s) else expanded s

/-- Expands words to the words that a command gets. -/
def expandWords : Nat → List Word → State → List Raw × State
  | 0, _, s | _, [], s => ([], s)
  | fuel + 1, word :: rest, s =>
    let (pieces, s) := expandParts fuel (homeWord s word) s
    let words := (fieldsFrom none pieces).flatMap (wordsOf s.world.tree s.setting.here)
    let (more, s) := expandWords fuel rest s
    (words ++ more, s)

/-- Expands a word to one text. -/
def expandText : Nat → Word → State → Raw × State
  | 0, _, s => ([], s)
  | fuel + 1, word, s =>
    let (pieces, s) := expandParts fuel (homeWord s word) s
    ((joined pieces).map (·.1), s)

/-- Gives variables their values, one after the other. -/
def assignAll : Nat → List (Raw × Word) → State → State
  | 0, _, s | _, [], s => s
  | fuel + 1, (name, word) :: rest, s =>
    let (value, s) := expandText fuel word s
    assignAll fuel rest (s.set name value)

/-- Redirects the streams of the shell; whether that went well. -/
def redirectAll : Nat → List Redirection → State → Bool × State
  | 0, _, s | _, [], s => (true, s)
  | fuel + 1, .mk number kind target :: rest, s =>
    let (path, s) := expandText fuel target s
    let put (sink : Sink) (s : State) : State :=
      if number = 2 then { s with setting := { s.setting with err := sink } }
      else if number = 1 then { s with setting := { s.setting with out := sink } }
      else s
    let failed (what : String) (e : FileError) (s : State) : Bool × State :=
      let text := match what, e with
        | "create", .system .notFound => "Directory nonexistent"
        | _, .system .notFound => "No such file"
        | _, .system e => e.text
        | _, e => e.message
      let reason := "cannot ".toList ++ what.toList ++ ' ' :: path ++ ": ".toList ++ text.toList
      (false, (s.complain reason).ended 2)
    if path = "/dev/null".toList then
      match kind with
      | .input => redirectAll fuel rest { s with world := { s.world with input := [] } }
      | _ => redirectAll fuel rest (put .nowhere s)
    else
      match kind with
      | .duplicate =>
        match path with
        | ['1'] => redirectAll fuel rest (put s.setting.out s)
        | ['2'] => redirectAll fuel rest (put s.setting.err s)
        | ['-'] => redirectAll fuel rest (put .nowhere s)
        | _ => redirectAll fuel rest s
      | .input =>
        match s.world.tree.read s.setting.here (bytesOfRaw path) with
        | .ok content =>
          redirectAll fuel rest { s with world := { s.world with input := rawOfBytes content } }
        | .error e => failed "open" e s
      | kind =>
        let changed : Except FileError (Place × FileTree) := do
          let place ← s.world.tree.writePlace s.setting.here (bytesOfRaw path)
          match kind, s.world.tree.get? place with
          | .append, some (.file _ _) => .ok (place, s.world.tree)
          | _, _ => .ok (place, ← s.world.tree.write s.setting.here (bytesOfRaw path) [])
        match changed with
        | .ok (place, tree) =>
          redirectAll fuel rest (put (.file place) { s with world := { s.world with tree } })
        | .error e => failed "create" e s

/-- Starts a program and waits for it. -/
def runProgram : Nat → Program → List Raw → Setting → World → Exit × World
  | 0, _, _, _, w => (.code 2, w)
  | fuel + 1, program, environment, setting, w =>
    let setting := { setting with environment }
    let tool := String.ofList program.tool
    if tool = "sh" ∨ tool = "dash" then runShell fuel program.argv setting w
    else if tool = "env" then
      let words := program.argv.drop 1
      let (environment, words) :=
        match words with
        | ['-', 'i'] :: words => ([], words)
        | words => (environment, words)
      let added := words.takeWhile (·.contains '=')
      let name (entry : Raw) : Raw := entry.takeWhile (· ≠ '=')
      let environment :=
        environment.filter (fun e => !added.any fun a => name a = name e) ++ added
      match words.drop added.length with
      | [] => (.code 0, w.write setting.out (environment.flatMap (· ++ ['\n'])))
      | command =>
        match Program.find w.tree setting.here (valueIn? environment "PATH") .all command with
        | .ok program => runProgram fuel program environment setting w
        | .error e =>
          (.code (if e = .permissionDenied then 126 else 127),
            w.complain setting tool.toList (World.quoting "" (command.headD [])) (.system e))
    else (runTool w setting program.tool (program.argv.drop 1)).getD (.code 127, w)

/-- Runs a shell on its words. -/
def runShell : Nat → List Raw → Setting → World → Exit × World
  | 0, _, _, w => (.code 2, w)
  | fuel + 1, argv, setting, w =>
    let name := argv.headD "sh".toList
    let run (text name : Raw) (parameters : List Raw) (w : World) : Exit × World :=
      let s := State.start w setting name parameters
      match Script.ofRaw? text with
      | some script =>
        let s := runAll fuel script s
        (exitOf s, s.world)
      | none => (.code 2, (s.complain "Syntax error".toList).world)
    match argv.drop 1 with
    | ['-', 'c'] :: text :: rest => run text (rest.headD name) (rest.drop 1) w
    | path :: parameters =>
      match w.tree.read setting.here (bytesOfRaw path) with
      | .ok content => run (rawOfBytes content) path parameters w
      | .error _ =>
        (.code 2, w.write setting.err
          (name ++ ": 0: cannot open ".toList ++ path ++ lineOf ": No such file"))
    | [] =>
      let (text, w) := w.readAll
      run text name [] w

/-- Carries out a command by its words: a command of the shell, or a program. -/
def invoke : Nat → List Raw → State → State
  | 0, _, s => s
  | _, [], s => s
  | fuel + 1, name :: words, s =>
    if name = "exec".toList then
      if words.isEmpty then s.ended 0
      else
        let after := invokeProgram fuel "exec: ".toList words s
        if after.flow.isSome then after else { after with flow := some (.exit after.status) }
    else
      match s.builtin? name words with
      | some s => s
      | none => invokeProgram fuel [] (name :: words) s

/-- Starts a program by its words; `asker` stands before the errors. -/
def invokeProgram : Nat → Raw → List Raw → State → State
  | 0, _, _, s => s
  | fuel + 1, asker, argv, s =>
    let name := argv.headD []
    let path := (s.value? "PATH".toList).getD []
    match Program.find s.world.tree s.setting.here (some path) .all argv with
    | .ok program =>
      let (exit, world) := runProgram fuel program s.exportedEnvironment s.setting s.world
      { s with world, status := statusOf exit }
    | .error .notFound | .error .notADirectory =>
      (s.complain (asker ++ name ++ ": not found".toList)).ended 127
    | .error e => (s.complain (asker ++ name ++ ": ".toList ++ e.text.toList)).ended 126

/-- Carries out commands one after the other. -/
def runAll : Nat → List Command → State → State
  | 0, _, s | _, [], s => s
  | fuel + 1, command :: rest, s =>
    let s := run fuel command s
    if s.flow.isSome then s else runAll fuel rest s

/-- Carries out one command. -/
def run : Nat → Command → State → State
  | 0, _, s => { s with flow := some (.exit 2) }
  | fuel + 1, command, s =>
    match command with
    | .simple assignments words redirections =>
      let (argv, s) := expandWords fuel words s
      if s.flow.isSome then s
      else
        let (well, redirected) := redirectAll fuel redirections s
        let after :=
          if !well then redirected
          else
            match argv with
            | [] =>
              let cleared := { redirected with status := if words.isEmpty then 0 else s.status }
              assignAll fuel assignments cleared
            | argv =>
              if assignments.isEmpty then invoke fuel argv redirected
              else
                let assigned := assignAll fuel assignments redirected
                let exported := assignments.foldl (fun s e => s.exportVariable e.1) assigned
                { invoke fuel argv exported with bindings := s.bindings }
        restored s redirections after
    | .pipeline negated commands =>
      let after := runStages fuel commands s
      if negated then { after with status := if after.status = 0 then 1 else 0 } else after
    | .and left right =>
      let after := run fuel left s
      if after.status = 0 ∧ after.flow.isNone then run fuel right after else after
    | .or left right =>
      let after := run fuel left s
      if after.status ≠ 0 ∧ after.flow.isNone then run fuel right after else after
    | .branch clauses otherwise => runBranch fuel clauses otherwise s
    | .each name words body =>
      let (values, s) :=
        match words with
        | some words => expandWords fuel words s
        | none => (s.parameters, s)
      runEach fuel name values body (s.ended 0)
    | .choose word clauses =>
      let (text, s) := expandText fuel word s
      runChoice fuel text clauses (s.ended 0)
    | .group body => runAll fuel body s
    | .nested body =>
      let after := runAll fuel body s
      let flow := match after.flow with
        | some (.killed n) => some (Flow.killed n)
        | _ => none
      { s with world := after.world, status := statusOf (exitOf after), flow }
    | .redirect command redirections =>
      let (well, redirected) := redirectAll fuel redirections s
      restored s redirections (if well then run fuel command redirected else redirected)
where
  /-- Whether a redirection replaces the input. -/
  isInput : Redirection → Bool
    | .mk _ .input _ => true
    | _ => false
  /-- The state after redirected commands, with the streams as they were before. -/
  restored (s : State) (redirections : List Redirection) (after : State) : State :=
    { after with
      setting := { after.setting with out := s.setting.out, err := s.setting.err }
      world := if redirections.any isInput then { after.world with input := s.world.input }
        else after.world }

/-- Carries out the commands of a pipeline, each on the output of the one before it. -/
def runStages : Nat → List Command → State → State
  | 0, _, s | _, [], s => s
  | fuel + 1, [command], s => run fuel command s
  | fuel + 1, command :: rest, s =>
    let inner := { s with
      world := { s.world with collected := [] }
      setting := { s.setting with out := .collected } }
    let after := run fuel (.nested [command]) inner
    match after.flow with
    | some (.killed n) => { s with world := after.world, flow := some (.killed n) }
    | _ =>
      let fed := { s with
        world := { after.world with
          input := after.world.collected
          collected := s.world.collected } }
      let last := runStages fuel rest fed
      { s with
        world := { last.world with input := after.world.input }
        status := last.status
        flow := match last.flow with
          | some (.killed n) => some (.killed n)
          | _ => none }

/-- Carries out the first clause whose condition holds. -/
def runBranch : Nat → List (List Command × List Command) → List Command → State → State
  | 0, _, _, s => s
  | fuel + 1, [], otherwise, s => runAll fuel otherwise (s.ended 0)
  | fuel + 1, (condition, body) :: rest, otherwise, s =>
    let after := runAll fuel condition s
    if after.flow.isSome then after
    else if after.status = 0 then runAll fuel body after
    else runBranch fuel rest otherwise after

/-- Carries out a loop's body for every value. -/
def runEach : Nat → Raw → List Raw → List Command → State → State
  | 0, _, _, _, s | _, _, [], _, s => s
  | fuel + 1, name, value :: rest, body, s =>
    let s := runAll fuel body (s.set name value)
    if s.flow.isSome then s else runEach fuel name rest body s

/-- Carries out the first clause with a pattern that matches. -/
def runChoice : Nat → Raw → List (List Word × List Command) → State → State
  | 0, _, _, s | _, _, [], s => s
  | fuel + 1, text, (patterns, body) :: rest, s =>
    let (found, s) := matchesAny fuel text patterns s
    if found then runAll fuel body s else runChoice fuel text rest s

/-- Whether one of several patterns matches a text. -/
def matchesAny : Nat → Raw → List Word → State → Bool × State
  | 0, _, _, s | _, _, [], s => (false, s)
  | fuel + 1, text, pattern :: rest, s =>
    let (pieces, s) := expandParts fuel pattern s
    if matchesPattern (joined pieces) text then (true, s) else matchesAny fuel text rest s

end

end BuildLauncher.Shell
