import LanguageRoster.Failure

/-!
# Programs

A run is a program of single steps: it reads a file, replaces one, tells a line to the narration, or calls a tool. What
the steps do is up to the world in which the program runs.

* `Program` : the steps, each with what comes after it
* `World` : the tree, the tools, the narration, and the log of what was done to the outside
* `Program.run` : what a program comes to in a world
-/

namespace LanguageRoster

set_option autoImplicit false

/-! ## Programs -/

/-- A program that ends with an `α` or a failure. -/
inductive Program (α : Type) : Type where
  | done (a : α)
  | stop (f : Failure)
  | read (path : Text) (next : Text → Program α)
  | replace (path content : Text) (next : Program α)
  | narrate (text : Text) (next : Program α)
  | call (i : Tool.Invocation) (next : Except Tool.Refusal Tool.Output → Program α)

namespace Program

variable {α β : Type}

/-- The first program, and then the one that goes on with its result. -/
def andThen : Program α → (α → Program β) → Program β
  | .done a, k => k a
  | .stop f, _ => .stop f
  | .read path next, k => .read path fun t => (next t).andThen k
  | .replace path content next, k => .replace path content (next.andThen k)
  | .narrate text next, k => .narrate text (next.andThen k)
  | .call i next, k => .call i fun r => (next r).andThen k

instance : Monad Program where
  pure := .done
  bind := andThen

def readText (path : Text) : Program Text := .read path .done

def replaceText (path content : Text) : Program Unit := .replace path content (.done ())

def tell (line : Text) : Program Unit := .narrate (line ++ ['\n']) (.done ())

def callTool (i : Tool.Invocation) : Program (Except Tool.Refusal Tool.Output) := .call i .done

def callChecked (i : Tool.Invocation) : Program Tool.Output := do
  match ← callTool i with
  | .ok o => if o.success then return o else .stop (.failed i o)
  | .error r => .stop (.refused i r)

end Program

/-! ## Worlds -/

/-- What a program has done to the outside. -/
inductive Effect where
  | replaced (path : Text)
  | called (directory : Text) (i : Tool.Invocation)
  deriving DecidableEq, Repr

/-- What a program runs in. -/
structure World (σ : Type) where
  tree : Tree
  tools : σ
  narration : Bytes := []
  /-- How many bytes more the narration takes before it fails; without a bound, it never does. -/
  room : Option Nat := none
  log : List Effect := []

namespace World

variable {σ : Type}

/-- The world behind some text more; what no longer fits is cut off, and the world does not take the rest. -/
def tell (w : World σ) (t : Text) : World σ × Bool :=
  match w.room with
  | none => ({ w with narration := w.narration ++ t.bytes }, true)
  | some room =>
    ({ w with narration := w.narration ++ t.bytes.take room, room := some (room - t.size) }, t.size ≤ room)

end World

/-- What the program comes to in the world, with the tools of the box called in the directory `root`. -/
def Program.run {σ α : Type} (box : Toolbox σ) (root : Text) : Program α → World σ → Except Failure α × World σ
  | .done a, w => (.ok a, w)
  | .stop f, w => (.error f, w)
  | .read path next, w =>
    match w.tree.readText path with
    | .ok t => (next t).run box root w
    | .error f => (.error (.notRead path f), w)
  | .replace path content next, w =>
    match w.tree.replace path content.bytes with
    | .ok tree => next.run box root { w with tree, log := w.log ++ [.replaced path] }
    | .error r => (.error (.notReplaced path r), w)
  | .narrate text next, w =>
    match w.tell text with
    | (w, true) => next.run box root w
    | (w, false) => (.error .narration, w)
  | .call i next, w =>
    let (r, tools, tree) := box root i (w.tools, w.tree)
    (next r).run box root { w with tree, tools, log := w.log ++ [.called root i] }

end LanguageRoster
