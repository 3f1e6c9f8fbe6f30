import LanguageRoster.Shell.Utility.Output

/-!
# Utilities that change the tree

Those that list, make, copy, move and remove what stands in the tree, and that change its modes.
-/

namespace LanguageRoster.Shell.Utility

set_option autoImplicit false

def quiet (t : Tree) (c : Call) : Finished := { tree := t, rest := c.input }

/-! ## Listing -/

def listed (t : Tree) (g : Given) (p : Place) : List Text :=
  let names := if g.has 'a' then [Path.dot, Path.dotDot] ++ t.namesIn p
    else if g.has 'A' then t.namesIn p
    else (t.namesIn p).filter fun n => n.head? ≠ some '.'
  let sorted := names.mergeSort fun a b => !Condition.isBefore b a
  if g.has 'r' then sorted.reverse else sorted

def markOf (g : Given) : Option Entry → Text
  | some (.directory _) => if g.has 'F' ∨ g.has 'p' then ['/'] else []
  | some (.link _) => if g.has 'F' then ['@'] else []
  | some (.file mode _) => if g.has 'F' ∧ mayEnter mode then ['*'] else []
  | none => []

/-- Shows the names in directories, and those of other files. -/
def ls : Utility := withOptions "1aAdrFpUtlhnCx" "" 2 fun t c g =>
  let order (paths : List Text) : List Text :=
    let sorted := paths.mergeSort fun a b => !Condition.isBefore b a
    if g.has 'r' then sorted.reverse else sorted
  let operands := if g.operands = [] then [Path.dot] else g.operands
  let isDirectory (path : Text) : Bool := !g.has 'd' && Condition.isLike t path Entry.isDirectory
  let missing := operands.filterMap fun path =>
    match ownPlace t path with
    | .ok _ => none
    | .error f => if (look t path).isOk then none else some (cannot c.name "cannot access".toList path f)
  let there := order (operands.filter fun path => (ownPlace t path).isOk || (look t path).isOk)
  let line (name : Text) (e : Option Entry) : Bytes := Text.bytes (name ++ markOf g e ++ ['\n'])
  let files := there.filter (!isDirectory ·)
  let directories := there.filter isDirectory
  let r := missing.foldl (fun r words => Finished.complain r words 2) (quiet t c)
  let r := r.say (files.flatMap fun path => line path ((ownPlace t path).toOption.bind t.get?))
  let titled := 1 < operands.length
  (directories.foldl (fun (r, isFirst) path =>
    match t.resolve path with
    | .error f => (Finished.complain r (cannot c.name "cannot access".toList path f) 2, isFirst)
    | .ok p =>
      if !((t.get? p).any fun
        | .directory mode => mayRead mode
        | _ => false) then
        (Finished.complain r (cannot c.name "cannot open directory".toList path .denied) 2, isFirst)
      else
        let gap : Text := if isFirst then [] else ['\n']
        let title : Text := if titled then gap ++ path ++ [':', '\n'] else []
        ((r.say (Text.bytes title)).say ((listed t g p).flatMap fun n => line n (t.get? (p ++ [n]))), false))
    (r, files.isEmpty)).1

/-! ## Making -/

def newMode (c : Call) : Nat := masked 0o666 c.mask

def touch : Utility := withOptions "acmfh" "drt" 1 fun t c g =>
  if g.operands = [] then Finished.complaint t (withHint c.name "missing file operand".toList) 1
  else g.operands.foldl (fun r path =>
    let wrong (f : Tree.Fault) : Finished := r.complain (cannot c.name "cannot touch".toList path f) 1
    match look r.tree path with
    | .ok _ => r
    | .error .notFound =>
      if g.has 'c' ∨ (device? path).isSome then r
      else if path = [] then wrong .notFound
      else match opened r.tree (newMode c) path with
        | .ok (tree, _) => { r with tree }
        | .error f => wrong f
    | .error f => wrong f) (quiet t c)

def makeDirectory (t : Tree) (mode : Nat) (path : Text) : Except Tree.Fault (Option Tree) :=
  match ownPlace t path with
  | .ok _ => .ok none
  | .error .notFound =>
    match freshPlace t (withoutSlashes path) with
    | .ok p => .ok (some (t.put p (.directory mode)))
    | .error f => .error f
  | .error f => .error f

def waysTo (path : Text) : List Text :=
  let isEnd (n : Nat) : Bool := n = path.length || 0 < n && path[n]? = some '/' && path[n - 1]? ≠ some '/'
  ((List.range (path.length + 1)).filter isEnd).map path.take

def octalMode? (t : Text) : Option Nat :=
  if t = [] ∨ !t.all isOctal ∨ 0o7777 < ofDigits 8 t then none else some (ofDigits 8 t)

/-- Makes directories, and with the option `-p` those on the way. -/
def mkdir : Utility := withOptions "pv" "m" 1 fun t c g =>
  let mode := ((g.value? 'm').bind octalMode?).getD (masked 0o777 c.mask)
  let wrong (r : Finished) (path : Text) (f : Text) : Finished :=
    r.complain (c.name ++ ": cannot create directory ".toList ++ quoted path ++ ": ".toList ++ f) 1
  let told (r : Finished) (path : Text) : Finished :=
    if g.has 'v' then r.say (Text.bytes (c.name ++ ": created directory ".toList ++ quoted path ++ ['\n'])) else r
  let make (r : Finished) (path : Text) : Finished :=
    match makeDirectory r.tree mode path with
    | .ok (some tree) => told { r with tree } path
    | .ok none => wrong r path "File exists".toList
    | .error f => wrong r path (faultWords f)
  let makeAll (r : Finished) (path : Text) : Finished :=
    let short := withoutSlashes path
    ((waysTo short).foldl (fun (r, goesOn) way =>
      if !goesOn then (r, false)
      else match r.tree.resolve way with
        | .ok p =>
          if (r.tree.get? p).any Entry.isDirectory then (r, true)
          else (wrong r way (if way = short then "File exists".toList else faultWords .notDirectory), false)
        | .error .notFound =>
          match makeDirectory r.tree (if way = short then mode else masked 0o777 c.mask) way with
          | .ok (some tree) => (told { r with tree } way, true)
          | .ok none => (wrong r way "File exists".toList, false)
          | .error f => (wrong r way (faultWords f), false)
        | .error f => (wrong r way (faultWords f), false)) (r, true)).1
  if g.operands = [] then missingOperand t c
  else g.operands.foldl (if g.has 'p' then makeAll else make) (quiet t c)

/-! ## Removing -/

def eraseBelow (t : Tree) (p : Place) : Tree := { t with entries := t.entries.filter fun x => !p.isPrefixOf x.1 }

def isLoose (t : Tree) (p : Place) : Bool :=
  match t.get? p.dropLast with
  | some (.directory mode) => mayWrite mode && mayEnter mode
  | _ => false

/-- Removes files, and with the option `-r` directories; with `-f`, one that is not there does not matter. -/
def rm : Utility := withOptions "rRfdvi" "" 1 fun t c g =>
  let deep := g.has 'r' || g.has 'R'
  let take (r : Finished) (path : Text) : Finished :=
    let wrong (f : Tree.Fault) : Finished := r.complain (cannot c.name "cannot remove".toList path f) 1
    let last := lastName path
    if deep ∧ (last = Path.dot ∨ last = Path.dotDot) then
      r.complain (c.name ++ ": refusing to remove '.' or '..' directory: skipping ".toList ++ quoted path) 1
    else match ownPlace r.tree (if deep then withoutSlashes path else path) with
      | .error .notFound => if g.has 'f' then r else wrong .notFound
      | .error f => wrong f
      | .ok p =>
        let isDirectory := (r.tree.get? p).any Entry.isDirectory
        if isDirectory ∧ !deep ∧ !(g.has 'd' ∧ r.tree.namesIn p = []) then wrong .isDirectory
        else if !isLoose r.tree p then wrong .denied
        else { r with tree := eraseBelow r.tree p }
  if g.operands = [] then if g.has 'f' then quiet t c else missingOperand t c
  else g.operands.foldl take (quiet t c)

def rmdir : Utility := withOptions "pv" "" 1 fun t c g =>
  let take (r : Finished) (path : Text) : Finished :=
    let wrong (words : Text) : Finished :=
      r.complain (c.name ++ ": failed to remove ".toList ++ quoted path ++ ": ".toList ++ words) 1
    match ownPlace r.tree (withoutSlashes path) with
    | .error f => wrong (faultWords f)
    | .ok p =>
      match r.tree.get? p with
      | some (.directory _) =>
        if r.tree.namesIn p ≠ [] then wrong "Directory not empty".toList
        else if !isLoose r.tree p then wrong (faultWords .denied)
        else { r with tree := r.tree.erase p }
      | _ => wrong (faultWords .notDirectory)
  let ways (path : Text) : List Text := if g.has 'p' then (waysTo (withoutSlashes path)).reverse else [path]
  if g.operands = [] then missingOperand t c else (g.operands.flatMap ways).foldl take (quiet t c)

/-! ## Copying and moving -/

def goal (t : Tree) (source target : Text) : Text :=
  if Condition.isLike t target Entry.isDirectory then
    (if target.getLast? = some '/' then target else target ++ ['/']) ++ lastName source
  else target

def copyBelow (t : Tree) (source target : Place) : Tree :=
  (t.entries.filter fun x => source.isPrefixOf x.1).foldl (fun t (p, e) => t.put (target ++ p.drop source.length) e) t

/-- Does something for each source with the target, once it is clear that several go into a directory. -/
def intoTarget (t : Tree) (c : Call) (operands : List Text) (each : Finished → Text → Text → Finished) : Finished :=
  match operands with
  | [] => Finished.complaint t (withHint c.name "missing file operand".toList) 1
  | [a] => Finished.complaint t (withHint c.name ("missing destination file operand after ".toList ++ quoted a)) 1
  | [a, b] => each (quiet t c) a (goal t a b)
  | many =>
    let target := many.getLast?.getD []
    match look t target with
    | .error f => Finished.complaint t (cannot c.name "target".toList target f) 1
    | .ok e =>
      if e.isDirectory then many.dropLast.foldl (fun r a => each r a (goal r.tree a target)) (quiet t c)
      else Finished.complaint t (cannot c.name "target".toList target .notDirectory) 1

def noDirectory (program source target : Text) : Text :=
  program ++ ": cannot overwrite non-directory ".toList ++ quoted target ++ " with directory ".toList ++ quoted source

/-- Copies files, and with the option `-r` directories. -/
def cp : Utility := withOptions "rRapfvnu" "" 1 fun t c g =>
  let deep := g.has 'r' || g.has 'R' || g.has 'a'
  intoTarget t c g.operands fun r source target =>
    let t := r.tree
    let failed (f : Tree.Fault) : Finished := r.complain (cannot c.name "cannot create regular file".toList target f) 1
    match look t source with
    | .error f =>
      if (device? source).isSome then match writeFile t (newMode c) target [] with
        | .ok tree => { r with tree }
        | .error f => failed f
      else r.complain (cannot c.name "cannot stat".toList source f) 1
    | .ok e =>
      let same := (t.resolve source).isOk && (t.resolve source).toOption == (t.resolve target).toOption
      if e.isDirectory then
        if !deep then r.complain (c.name ++ ": -r not specified; omitting directory ".toList ++ quoted source) 1
        else match t.resolve source, t.resolve target, freshPlace t target with
          | .ok p, .ok q, _ =>
            if !(t.get? q).any Entry.isDirectory then
              r.complain (noDirectory c.name source target) 1
            else { r with tree := copyBelow t p q }
          | .ok p, .error _, .ok q =>
            if p.isPrefixOf q then
              r.complain (c.name ++ ": cannot copy a directory, ".toList ++ quoted source ++ ", into itself, ".toList
                ++ quoted target) 1
            else { r with tree := copyBelow t p q }
          | _, _, .error f => r.complain (cannot c.name "cannot create directory".toList target f) 1
          | _, _, _ => r
      else if same then
        r.complain (c.name ++ ": ".toList ++ quoted source ++ " and ".toList ++ quoted target
          ++ " are the same file".toList) 1
      else if g.has 'n' ∧ (look t target).isOk then r
      else match t.readBytes source with
        | .error f => r.complain (cannot c.name "cannot open".toList source f ++ " for reading".toList) 1
        | .ok b =>
          let mode := match e with
            | .file mode _ => masked mode (if g.has 'p' ∨ g.has 'a' then 0 else c.mask)
            | _ => newMode c
          match writeFile t mode target b with
          | .ok tree => { r with tree }
          | .error f => failed (if f = .isDirectory ∧ target.getLast? = some '/' then .notDirectory else f)

def mv : Utility := withOptions "fnvuiT" "" 1 fun t c g =>
  intoTarget t c g.operands fun r source target =>
    let t := r.tree
    match ownPlace t source with
    | .error f => r.complain (cannot c.name "cannot stat".toList source f) 1
    | .ok p =>
      let isDirectory := (t.get? p).any Entry.isDirectory
      let moving (words : Text) : Finished :=
        r.complain (c.name ++ ": cannot move ".toList ++ quoted source ++ " to ".toList ++ words) 1
      match freshPlace t (if isDirectory then withoutSlashes target else target) with
      | .error f => moving (quoted target ++ ": ".toList ++ faultWords f)
      | .ok q =>
        let there := t.get? q
        if g.has 'n' ∧ there.isSome then r
        else if p = q ∧ !isDirectory then
          r.complain (c.name ++ ": ".toList ++ quoted source ++ " and ".toList ++ quoted target
            ++ " are the same file".toList) 1
        else if isDirectory ∧ p.isPrefixOf q then
          moving ("a subdirectory of itself, ".toList ++ quoted target)
        else if isDirectory ∧ there.any (!·.isDirectory) then
          r.complain (noDirectory c.name source target) 1
        else if !isDirectory ∧ there.any (·.isDirectory) then
          let words := ": cannot overwrite directory ".toList ++ quoted target ++ " with non-directory".toList
          r.complain (c.name ++ words) 1
        else if !isDirectory ∧ target.getLast? = some '/' then
          moving (quoted target ++ ": ".toList ++ faultWords .notDirectory)
        else if isDirectory ∧ t.namesIn q ≠ [] then
          moving (quoted target ++ ": Directory not empty".toList)
        else if !isLoose t p then moving (quoted target ++ ": ".toList ++ faultWords .denied)
        else { r with tree := eraseBelow (copyBelow (eraseBelow t q) p q) p }

/-- Makes links: symbolic ones, or the same content under another name. -/
def ln : Utility := withOptions "sfnrvT" "" 1 fun t c g =>
  let kind : Text := (if g.has 's' then "symbolic" else "hard").toList
  let make (r : Finished) (source path : Text) : Finished :=
    let t := r.tree
    let wrong (words : Text) : Finished :=
      r.complain (c.name ++ ": failed to create ".toList ++ kind ++ " link ".toList ++ quoted path ++ ": ".toList
        ++ words) 1
    match if g.has 's' then .ok none else (ownPlace t source).map fun p => t.get? p with
    | .error f => r.complain (cannot c.name "failed to access".toList source f) 1
    | .ok (some (.directory _)) =>
      r.complain (c.name ++ ": ".toList ++ source ++ ": hard link not allowed for directory".toList) 1
    | .ok old =>
      match freshPlace t path with
      | .error f => wrong (faultWords f)
      | .ok p =>
        if (t.get? p).isSome ∧ (!g.has 'f' ∨ (t.get? p).any Entry.isDirectory) then wrong "File exists".toList
        else { r with tree := (t.erase p).put p (old.getD (.link source)) }
  let into (target source : Text) : Text :=
    if g.has 'n' ∧ Condition.isLink t target then target else goal t source target
  match g.operands with
  | [] => Finished.complaint t (withHint c.name "missing file operand".toList) 1
  | [a] => make (quiet t c) a ("./".toList ++ lastName a)
  | [a, b] => make (quiet t c) a (into b a)
  | many =>
    let target := many.getLast?.getD []
    if Condition.isLike t target Entry.isDirectory then
      many.dropLast.foldl (fun r a => make r a (goal t a target)) (quiet t c)
    else Finished.complaint t (cannot c.name "target".toList target .notDirectory) 1

/-! ## Modes -/

def classBits (classes : Text) : Nat :=
  (if classes.contains 'u' ∨ classes.contains 'a' then 0o4700 else 0) |||
    (if classes.contains 'g' ∨ classes.contains 'a' then 0o2070 else 0) |||
    (if classes.contains 'o' ∨ classes.contains 'a' then 0o1007 else 0)

def spread (n : Nat) : Nat := n * 0o111

/-- The bits that a letter of a permission stands for. -/
def permissionBits (mode : Nat) (isDirectory : Bool) (c : Char) : Nat :=
  match c with
  | 'r' => spread 4
  | 'w' => spread 2
  | 'x' => spread 1
  | 'X' => if isDirectory ∨ (mode &&& 0o111) ≠ 0 then spread 1 else 0
  | 's' => 0o6000
  | 't' => 0o1000
  | 'u' => spread (mode >>> 6 &&& 7)
  | 'g' => spread (mode >>> 3 &&& 7)
  | 'o' => spread (mode &&& 7)
  | _ => 0

def isPermission (c : Char) : Bool := "rwxXstugo".contains c

/-- The mode behind the changes in a clause, each an operator with permissions. -/
def changed? (classes : Text) (mask : Nat) (isDirectory : Bool) : (fuel : Nat) → Text → (mode : Nat) → Option Nat
  | 0, _, _ => none
  | fuel + 1, clause, mode =>
    match clause with
    | [] => some mode
    | o :: rest =>
      let letters := rest.takeWhile isPermission
      let owned := if classes = [] then classBits ['a'] else classBits classes
      let sticky := letters.contains 't' && (classes = [] || classes.contains 'a' || classes.contains 'o')
      let asked := letters.foldl (fun n c => n ||| permissionBits mode isDirectory c) 0
      let bits := masked (asked &&& owned ||| if sticky then 0o1000 else 0) (if classes = [] then mask else 0)
      let next := rest.drop letters.length
      match o with
      | '+' => changed? classes mask isDirectory fuel next (mode ||| bits)
      | '-' => changed? classes mask isDirectory fuel next (masked mode bits)
      | '=' =>
        let kept := if isDirectory then 0o6000 else 0
        changed? classes mask isDirectory fuel next (masked mode (masked owned kept) ||| bits)
      | _ => none

def modeOf? (arg : Text) (mask mode : Nat) (isDirectory : Bool) : Option Nat :=
  match octalMode? arg with
  | some n => some (if isDirectory ∧ arg.length < 5 then n ||| (mode &&& 0o6000) else n)
  | none =>
    (Text.splitOn ',' arg).foldlM (fun mode clause =>
      let classes := clause.takeWhile fun c => "ugoa".contains c
      match clause.drop classes.length with
      | [] => none
      | changes => changed? classes mask isDirectory (changes.length + 1) changes mode) mode

def looksLikeMode (a : Text) : Bool :=
  match a with
  | '-' :: c :: _ => isPermission c
  | _ => false

def chmod : Utility := fun t c =>
  let deep := c.args.any fun a => a = ['-', 'R']
  let args := c.args.filter fun a => !(["-R", "-f", "-v", "-c", "--"].contains (String.ofList a))
  let change (arg : Text) (r : Finished) (path : Text) : Finished :=
    match r.tree.resolve path with
    | .error f => r.complain (cannot c.name "cannot access".toList path f) 1
    | .ok p =>
      let places := p :: if deep then (r.tree.entries.filter fun x => p.isPrefixOf x.1 ∧ x.1 ≠ p).map Prod.fst else []
      let tree := places.foldl (fun t p =>
        match t.get? p with
        | some (.file mode b) => t.put p (.file ((modeOf? arg c.mask mode false).getD mode) b)
        | some (.directory mode) => t.put p (.directory ((modeOf? arg c.mask mode true).getD mode))
        | _ => t) r.tree
      { r with tree }
  match args.find? fun a => a.head? == some '-' && 1 < a.length && !looksLikeMode a with
  | some a => Finished.complaint t (withHint c.name ("invalid option -- ".toList ++ quoted (a.drop 1 |>.take 1))) 1
  | none =>
    match args with
    | [] => missingOperand t c
    | [mode] => Finished.complaint t (withHint c.name ("missing operand after ".toList ++ quoted mode)) 1
    | mode :: paths =>
      if (modeOf? mode c.mask 0 false).isNone then
        Finished.complaint t (withHint c.name ("invalid mode: ".toList ++ quoted mode)) 1
      else paths.foldl (change mode) (quiet t c)

end LanguageRoster.Shell.Utility
