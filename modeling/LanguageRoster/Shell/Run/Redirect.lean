import LanguageRoster.Shell.Run.Ground
import LanguageRoster.Shell.Utility.Basic

/-!
# Redirecting

* `Ground.openFile` : the channel to a file
* `Ground.redirectAll` : the shell with its descriptors as redirections say; `Ground.reconnected` undoes that
-/

namespace LanguageRoster.Shell.Ground

set_option autoImplicit false

def openWords (missing : String) : Tree.Fault → Text
  | .notFound | .notDirectory => missing.toList
  | f => faultWords f

def openFile (s : State) (opening : Opening) (path : Text) : Except Text (State × Channel) :=
  let cannotOpen (words : Text) : Except Text (State × Channel) :=
    .error ("cannot open ".toList ++ path ++ ": ".toList ++ words)
  let cannotCreate (words : Text) : Except Text (State × Channel) :=
    .error ("cannot create ".toList ++ path ++ ": ".toList ++ words)
  match device? path, opening with
  | some none, _ => .ok (s, .nowhere)
  | some (some n), o =>
    match s.channel? n with
    | some c => .ok (s, c)
    | none => if o = .read then cannotOpen "No such file".toList else cannotCreate "Directory nonexistent".toList
  | none, .read =>
    match s.tree.readBytes path with
    | .ok b => .ok (s.withSource b)
    | .error .isDirectory => .ok (s, .nowhere)
    | .error f => cannotOpen (openWords "No such file" f)
  | none, o =>
    let isThere := (s.tree.resolve path).isOk
    if o = .write ∧ s.has 'C' ∧ isThere then cannotCreate "File exists".toList
    else match Utility.opened s.tree (Utility.masked 0o666 s.mask) path with
      | .error f => cannotCreate (openWords "Directory nonexistent" f)
      | .ok (tree, p) =>
        let keeps := o = .append ∨ o = .both
        .ok ({ s with tree := if keeps then tree else Utility.fillAt tree p [] }, .file p)

def descriptorOf : Redirect → Nat
  | .file d _ _ | .copy d _ | .text d _ => d

/-- The shell with a descriptor as the redirection says, or why that cannot be. -/
def redirect (k : Deeper) (s : State) (r : Redirect) : State × Option Text :=
  match r with
  | .file d opening w =>
    let (s, path) := s.text k w
    if s.ended.isSome then (s, none)
    else match openFile s opening path with
      | .ok (s, c) => (s.connect d (some c), none)
      | .error words => (s, some words)
  | .copy d w =>
    let (s, t) := s.text k w
    if s.ended.isSome then (s, none)
    else match t with
      | ['-'] => (s.connect d none, none)
      | [c] =>
        if !c.isDigit then (s.abort "Syntax error: Bad fd number".toList 2, none)
        else match s.channel? (c.toNat - '0'.toNat) with
          | some channel => (s.connect d (some channel), none)
          | none => (s, some (t ++ ": Bad file descriptor".toList))
      | _ => (s.abort "Syntax error: Bad fd number".toList 2, none)
  | .text d w =>
    let (s, gs) := s.textWith k w
    if s.ended.isSome then (s, none)
    else
      let (s, c) := s.withSource (Text.bytes (plainText gs))
      (s.connect d (some c), none)

def redirectAll (k : Deeper) (s : State) : List Redirect → State × Option Text
  | [] => (s, none)
  | r :: more =>
    let (s, words) := redirect k s r
    if words.isSome ∨ s.ended.isSome then (s, words) else redirectAll k s more

def reconnected (s t : State) (redirects : List Redirect) : State :=
  redirects.foldl (fun t r => t.connect (descriptorOf r) (s.channel? (descriptorOf r))) t

end LanguageRoster.Shell.Ground
