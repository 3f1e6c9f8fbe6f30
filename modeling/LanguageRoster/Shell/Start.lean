import LanguageRoster.Shell.Run.Command
import LanguageRoster.Shell.Utility.Edit
import LanguageRoster.Shell.Utility.Lines
import LanguageRoster.Shell.Utility.Value

/-!
# Starting programs

* `interpreter?` : the program that a script names on its first line
* `shell` : the shell as a program
* `start` : starts what stands at a path, be it a program of the system or a script
-/

namespace LanguageRoster.Shell

set_option autoImplicit false

/-! ## Scripts -/

def headerSize : Nat := 256

def isBlankByte (b : UInt8) : Bool := b == 32 || b == 9

/-- The program and its argument that a script names on its first line. The line ends within the header of the file, or
at least the name of the program does. -/
def interpreter? (content : Bytes) : Option (Text × Option Text) :=
  match content.take headerSize ++ List.replicate (headerSize - content.length) 0 with
  | 35 :: 33 :: header =>
    let line := header.takeWhile (· ≠ 10)
    let body := line.dropWhile isBlankByte
    let name := body.takeWhile fun b => !isBlankByte b && b != 0
    let isCut := line.length = header.length ∧ (body.drop name.length).isEmpty
    if name = [] ∨ isCut then none
    else
      let argument := ((body.drop name.length).dropWhile isBlankByte).takeWhile (· ≠ 0)
      let argument := (argument.reverse.dropWhile isBlankByte).reverse
      let hasOne := (body.drop name.length).head?.any isBlankByte ∧ argument ≠ []
      some (Text.decodeLossy name, if hasOne then some (Text.decodeLossy argument) else none)
  | _ => none

/-! ## The shell -/

def firstVariables : Environment :=
  [("IFS".toList, State.plainSeparators), ("OPTIND".toList, ['1']), ("PS1".toList, ['$', ' ']),
    ("PS2".toList, ['>', ' ']), ("PS4".toList, ['+', ' '])]

def directoryIn (t : Tree) (e : Environment) : Text :=
  match e.lookup State.directoryName with
  | some path => if Path.isAbsolute path ∧ (t.resolve path).toOption = some t.here then path else t.here.path
  | none => t.here.path

def newShell (t : Tree) (c : Call) (options : List Char) : State :=
  let e := c.environment.filter fun v => isName v.1
  let directory := directoryIn t e
  let assigned := Record.set State.directoryName directory (e.foldl (fun a (k, v) => Record.set k v a) firstVariables)
  { tree := t, name := c.name, options, assigned, directory, mask := c.mask
    exported := e.map Prod.fst ++ if e.any (·.1 = State.directoryName) then [] else [State.directoryName]
    sources := [(0, c.input)] }

def finished (s : State) : Finished := ⟨s.tree, s.written, s.ending, s.input 0⟩

def runText (start : Start) (final : Bool) (s : State) (t : Text) : Finished :=
  let g := Ground.ofDepth start Ground.mostDepth
  finished (g.atEnd (g.script { final } s t))

def programOptions : List Char := ['c', 'p', 'l']

/-- The shell as a program: it runs a command line, a file, or what comes in. -/
def shell (start : Start) (t : Tree) (c : Call) : Finished :=
  let refuse (words : Text) : Finished := finished ({ newShell t c [] with line := 0 }.abort words 2)
  match Own.readSettings programOptions [] c.args with
  | .error words => refuse words
  | .ok (options, rest) =>
    let args := rest.getD []
    let s := newShell t c (options.filter (· ≠ 'c'))
    if options.contains 'c' then
      match args with
      | [] => refuse "-c requires an argument".toList
      | [text] => runText start true s text
      | text :: name :: args => runText start true { s with name, args } text
    else if options.contains 's' ∨ args = [] then
      runText start false { s with args, sources := [(0, [])] } (Text.decodeLossy c.input)
    else
      let file := args.headD []
      let s := { s with name := file, args := args.drop 1 }
      let content : Except Tree.Fault Bytes := match device? file with
        | some (some 0) => .ok c.input
        | some _ => .ok []
        | none => t.readBytes file
      match content with
      | .ok b => runText start false s (Text.decodeLossy b)
      | .error .isDirectory => finished s
      | .error f => refuse ("cannot open ".toList ++ file ++ ": ".toList ++ Ground.openWords "No such file" f)

/-! ## Programs -/

def environmentOf : Environment → List Text → Except Text (Environment × List Text)
  | _, ['-', 'i'] :: args | _, ['-'] :: args => environmentOf [] args
  | e, ['-', 'u'] :: name :: args => environmentOf (e.filter fun v => v.1 ≠ name) args
  | e, ['-', '-'] :: args => .ok (settings e args)
  | _, ('-' :: c :: _) :: _ => .error ("invalid option -- ".toList ++ Utility.quoted [c])
  | e, args => .ok (settings e args)
where
  settings (e : Environment) (args : List Text) : Environment × List Text :=
    let sets := args.takeWhile (·.contains '=')
    (sets.foldl (fun e a => Record.set (a.takeWhile (· ≠ '=')) ((a.dropWhile (· ≠ '=')).drop 1) e) e,
      args.drop sets.length)

/-- Starts the program that the arguments name, in the environment that they ask for. -/
def inEnvironment (start : Start) (t : Tree) (c : Call) : Finished :=
  match environmentOf c.environment c.args with
  | .error words => Finished.complaint t (Utility.withHint c.name words) 125
  | .ok (e, []) =>
    (Finished.output t (e.flatMap fun (k, v) => Text.bytes (k ++ '=' :: v ++ ['\n']))).leaving c
  | .ok (e, name :: args) =>
    let fail (words : Text) (code : Nat) : Finished :=
      Finished.complaint t (c.name ++ ": ".toList ++ Utility.quoted name ++ ": ".toList ++ words) code
    match e.locate? t name with
    | none =>
      if e.isBarred t name then fail (faultWords .denied) 126 else fail (faultWords .notFound) 127
    | some path =>
      let call := { c with path, name, args, environment := e }
      let result := match start t call with
        | .error .noFormat =>
          let shell := "/bin/sh".toList
          start t { call with path := shell, name := shell, args := path :: args }
        | r => r
      match result with
      | .ok f => f
      | .error .notPermitted => fail (faultWords .denied) 126
      | .error (.fault .notFound) => fail (faultWords .notFound) 127
      | .error (.fault f) => fail (faultWords f) 126
      | .error _ => fail (faultWords .notFound) 127

def utilities : List (String × Utility) := [("[", Utility.bracket), ("basename", Utility.basename),
  ("cat", Utility.cat), ("chmod", Utility.chmod), ("cmp", Utility.cmp), ("cp", Utility.cp), ("cut", Utility.cut),
  ("dirname", Utility.dirname), ("echo", Utility.echo), ("expr", Utility.expr), ("false", Utility.fail),
  ("grep", Utility.grep), ("head", Utility.head), ("ln", Utility.ln), ("ls", Utility.ls), ("mkdir", Utility.mkdir),
  ("mv", Utility.mv), ("nl", Utility.nl), ("paste", Utility.paste), ("printenv", Utility.printenv),
  ("printf", Utility.printf), ("pwd", Utility.pwd), ("readlink", Utility.readlink), ("realpath", Utility.realpath),
  ("rev", Utility.rev), ("rm", Utility.rm), ("rmdir", Utility.rmdir), ("sed", Utility.sed), ("seq", Utility.seq),
  ("sleep", Utility.sleep), ("sort", Utility.sort), ("sync", Utility.succeed), ("tac", Utility.tac),
  ("tail", Utility.tail), ("tee", Utility.tee), ("test", Utility.test), ("touch", Utility.touch), ("tr", Utility.tr),
  ("true", Utility.succeed), ("uname", Utility.uname), ("uniq", Utility.uniq), ("wc", Utility.wc)]

def runSystem (start : Start) (t : Tree) (program : Text) (c : Call) : Finished :=
  if shellNames.contains program then shell start t c
  else if program = starterName then inEnvironment start t c
  else ((utilities.lookup (String.ofList program)).getD Utility.fail) t c

/-- Starts what stands at a path, where programs are started by `deeper`. So many scripts and programs can be called
by one another's first lines. -/
def startChain (deeper : Start) : (links : Nat) → Start
  | 0 => fun _ _ => .error (.fault .tooManyLinks)
  | links + 1 => fun t c =>
    match system? c.path with
    | some program => .ok (runSystem deeper t program c)
    | none =>
      match t.resolve c.path with
      | .error .denied => .error .notPermitted
      | .error f => .error (.fault f)
      | .ok p =>
        match t.get? p with
        | some (.file mode content) =>
          if !mayEnter mode then .error .notPermitted
          else match interpreter? content with
            | none => .error .noFormat
            | some (program, argument) =>
              startChain deeper links t
                { c with path := program, name := program, args := argument.toList ++ c.path :: c.args }
        | _ => .error .notPermitted

/-- The most scripts that call one another by their first lines, with the program at the end. -/
def mostChained : Nat := 6

def start : (depth : Nat) → Start
  | 0 => fun _ _ => .error (.fault .tooManyLinks)
  | depth + 1 => startChain (start depth) mostChained

def mostLevels : Nat := 64

end LanguageRoster.Shell
