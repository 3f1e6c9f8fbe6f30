import LanguageRoster.Proofs.Tree.SeenFrom
import LanguageRoster.Tool.Installed
import Mathlib.Data.List.Find

/-!
# Tools below the root

A tool that is called by a path is looked for from the directory at hand, and followed again from the one in which it
is to run.

* `locate?_of_relative` : a path below the root is where the tool is, if a program stands there
* `boxWith_of_relative` : what is started, and in which tree
* `boxWith_seenFrom` : with an absolute root, the directory at hand plays no part
* `Shell.Start.Follows` : nothing is started by a relative path that leads nowhere; `Shell.start_follows`
* `boxWith_lost` : with another root, no tool is then started if its path leads nowhere from inside the root
* `Below` : all this of one tool
-/

namespace LanguageRoster

set_option autoImplicit false

/-! ## Paths and slashes -/

namespace Text

theorem splitOn_append_cons (sep : Char) (a b : Text) :
    splitOn sep (a ++ sep :: b) = splitOn sep a ++ splitOn sep b := by
  induction a with
  | nil => exact splitOn_append List.not_mem_nil b
  | cons c a ih =>
    obtain ⟨p, more, hs, -, -⟩ := exists_splitOn sep a
    rw [hs] at ih
    rw [List.cons_append, splitOn, ih, splitOn, hs]
    by_cases hc : c = sep <;> simp [hc]

end Text

namespace Path

theorem names_append_cons (a b : Text) : names (a ++ '/' :: b) = names a ++ names b := by
  rw [names, Text.splitOn_append_cons, List.filter_append]
  rfl

theorem names_ne_nil {path : Text} (hne : path ≠ []) (hrel : isAbsolute path = false) : names path ≠ [] := by
  cases path with
  | nil => exact absurd rfl hne
  | cons c t =>
    have hc : c ≠ '/' := by simpa [isAbsolute] using hrel
    obtain ⟨p, more, hs, -, -⟩ := Text.exists_splitOn '/' t
    have hpieces : Text.splitOn '/' (c :: t) = (c :: p) :: more := by
      rw [Text.splitOn, hs]
      exact if_neg hc
    rw [names, hpieces, List.filter_cons_of_pos (by simp)]
    exact List.cons_ne_nil _ _

/-- A path below a root starts at the root of the tree if one of both does. -/
theorem isAbsolute_below (root path : Text) : isAbsolute (join root path) = (isAbsolute path || isAbsolute root) := by
  unfold join
  by_cases hpath : isAbsolute path = true
  · rw [if_pos hpath, hpath, Bool.true_or]
  · rw [Bool.not_eq_true] at hpath
    rw [if_neg (by simp [hpath]), hpath, Bool.false_or]
    cases root with
    | nil => exact hpath
    | cons c root => split <;> rfl

theorem isAbsolute_below_of_root {root : Text} (h : isAbsolute root = true) (path : Text) :
    isAbsolute (join root path) = true := by
  rw [isAbsolute_below, h, Bool.or_true]

theorem length_parts {path first : Text} {rest : List Text} (hrel : isAbsolute path = false)
    (hn : names path = first :: rest) : (parts path).length = 1 + (rest.filter (· ≠ dot)).length := by
  unfold parts
  rw [hn]
  by_cases hdot : first = dot <;> simp [hrel, hdot, Nat.add_comm]

/-- A relative path with a slash has a single part only if nothing but dots comes behind its first name. -/
theorem dots_of_parts {a b : Text} (hrel : isAbsolute (a ++ '/' :: b) = false)
    (hparts : (parts (a ++ '/' :: b)).length ≤ 1) : ∀ n ∈ names b, n = dot := by
  have ha : names a ≠ [] := by
    refine names_ne_nil ?_ ?_
    · rintro rfl
      exact absurd hrel (by simp [isAbsolute])
    · cases a with
      | nil => rfl
      | cons c a => exact hrel
  obtain ⟨first, more, hfirst⟩ := List.exists_cons_of_ne_nil ha
  rw [length_parts hrel (by rw [names_append_cons, hfirst, List.cons_append])] at hparts
  intro n hn
  by_contra hne
  have hmem : n ∈ (more ++ names b).filter (· ≠ dot) := by simp [hn, hne]
  have hpos := List.length_pos_of_mem hmem
  omega

end Path

namespace Tree

variable {t : Tree} {path : Text}

/-- A path that dots or slashes end asks for a directory. -/
theorem steps_dots {a b : Text} (hb : ∀ n ∈ Path.names b, n = Path.dot) :
    ∃ init, steps (a ++ '/' :: b) = init ++ [Path.dot] := by
  unfold steps
  rw [Path.names_append_cons]
  by_cases hslash : (a ++ '/' :: b).getLast? = some '/'
  · exact ⟨_, by rw [if_pos hslash]⟩
  rw [if_neg hslash, List.append_nil]
  rcases List.eq_nil_or_concat (Path.names b) with hnil | ⟨init, n, hn⟩
  · refine absurd ?_ hslash
    cases b with
    | nil => simp
    | cons c b =>
      rw [List.getLast?_append_of_ne_nil _ (List.cons_ne_nil _ _), List.getLast?_cons_cons]
      exact Path.getLast?_of_names_eq_nil hnil (List.cons_ne_nil _ _)
  · rw [List.concat_eq_append] at hn
    refine ⟨Path.names a ++ init, ?_⟩
    rw [hn, hb n (by simp [hn]), List.append_assoc]

end Tree

namespace Shell

variable {t : Tree} {path : Text}

/-- The system's own programs have names, which dots are not. -/
theorem system?_of_dot {init : List Text} (h : Tree.steps path = init ++ [Path.dot]) : system? path = none := by
  cases hs : system? path with
  | none => rfl
  | some name =>
    simp only [system?, Option.bind_eq_bind, Option.bind_eq_some_iff] at hs
    obtain ⟨names, hnames, last, hlast, hs⟩ := hs
    split at hs
    · next hcond =>
      obtain ⟨hslash, hname, -, -⟩ := hcond
      unfold Tree.steps at h
      rw [if_neg hslash, List.append_nil] at h
      obtain rfl : last = Path.dot := by simpa [h] using hname.symm
      -- the dots have been taken out of the names of an absolute path
      have hmem := List.mem_of_getLast? hlast
      rw [absoluteNames?] at hnames
      split at hnames
      · rw [← Option.some.inj hnames] at hmem
        exact absurd hmem (by simp)
      · exact absurd hnames (by simp)
    · exact absurd hs (by simp)

/-- No program stands where a directory is asked for. -/
theorem isProgram_of_dot {init : List Text} (h : Tree.steps path = init ++ [Path.dot]) : isProgram t path = false := by
  rw [isProgram, system?_of_dot h]
  cases hr : t.resolve path with
  | error f => rfl
  | ok p =>
    obtain ⟨-, -, left, hl⟩ := Tree.trace_eq_ok_iff.1 (Tree.trace_of_resolve hr)
    rw [h, Tree.leads_append_dot_iff] at hl
    obtain ⟨-, mode, hp, -⟩ := hl
    simp [hp]

theorem isProgram_of_dots {a b : Text} (hb : ∀ n ∈ Path.names b, n = Path.dot) :
    isProgram t (a ++ '/' :: b) = false := by
  obtain ⟨init, h⟩ := Tree.steps_dots (a := a) hb
  exact isProgram_of_dot h

end Shell

theorem Shell.isProgram_seenFrom {path : Text} (habs : Path.isAbsolute path = true) (t : Tree) (h : Place) :
    isProgram (t.seenFrom h) path = isProgram t path := by
  simp only [isProgram, Tree.resolve_seenFrom habs, Tree.get?_seenFrom]

/-! ## Starting by a path -/

/-- Nothing is started by a relative path that leads nowhere. -/
def Shell.Start.Follows (start : Shell.Start) : Prop :=
  ∀ t c, Path.isAbsolute c.path = false → (∀ q, t.resolve c.path ≠ .ok q) → ∃ r, start t c = .error r

theorem Shell.start_follows (depth : Nat) : (Shell.start depth).Follows := by
  intro t c hrel hlost
  cases depth with
  | zero => exact ⟨_, rfl⟩
  | succ depth =>
    have hsystem : system? c.path = none := by simp [system?, absoluteNames?, hrel]
    show ∃ r, startChain _ (5 + 1) t c = .error r
    simp only [startChain, hsystem]
    cases hr : t.resolve c.path with
    | ok q => exact absurd hr (hlost q)
    | error f => cases f <;> exact ⟨_, rfl⟩

namespace Tool.Installed

variable {search : List Text} {start : Shell.Start} {t : Tree} {root : Text} {i : Invocation}

/-! ## Where the tool is -/

/-- A relative path of a single part that has a slash asks for a directory, in whatever directory it is looked for. -/
theorem isProgram_of_single {program : Text} (hrel : Path.isAbsolute program = false) (hslash : '/' ∈ program)
    (hparts : (Path.parts program).length ≤ 1) (directory : Text) :
    Shell.isProgram t (Path.join directory program) = false := by
  obtain ⟨a, b, rfl⟩ := List.append_of_mem hslash
  have hb := Path.dots_of_parts hrel hparts
  rw [Path.join, if_neg (by simp [hrel])]
  split
  · rw [← List.append_assoc]
    exact Shell.isProgram_of_dots hb
  · rw [← List.cons_append, ← List.append_assoc]
    exact Shell.isProgram_of_dots hb

/-- A path below the root is where the tool is, if a program stands there. -/
theorem locate?_of_relative (hrel : Path.isAbsolute i.program = false) (hslash : '/' ∈ i.program) :
    locate? search t root i.program =
      if Shell.isProgram t (Path.join root i.program) then some (Path.join root i.program) else none := by
  unfold locate?
  by_cases hparts : 1 < (Path.parts i.program).length
  · rw [if_pos (.inr hparts)]
  · -- a path of a single part is looked for on the search path, and not found there
    have hnot := isProgram_of_single (t := t) hrel hslash (by omega)
    rw [if_neg (by simp [hrel, hparts]), hnot]
    simp [Shell.find?, hnot]

def callAt (search : List Text) (path : Text) (i : Invocation) : Shell.Call :=
  { path, name := path, args := i.args, environment := Shell.environment search }

/-- What is left of a process, back in the directory at hand. -/
def leave (t : Tree) : Except Refusal Shell.Finished → Except Refusal Output × Unit × Tree
  | .error r => (.error r, (), t)
  | .ok f => (.ok (output f), (), f.tree.seenFrom t.here)

theorem boxWith_eq (search : List Text) (start : Shell.Start) (t : Tree) (root : Text) (i : Invocation) :
    boxWith search start root i ((), t) =
      match locate? search t root i.program with
      | none => (.error .noProgram, (), t)
      | some path =>
        if hasZero root path i.args then (.error .zeroByte, (), t)
        else match enter t root with
          | .error r => (.error r, (), t)
          | .ok p => leave t (start (t.seenFrom p) (callAt search path i)) := by
  simp only [boxWith]
  cases locate? search t root i.program with
  | none => rfl
  | some path =>
    simp only
    split
    · rfl
    cases enter t root with
    | error r => rfl
    | ok p =>
      simp only [callAt, Tree.seenFrom]
      generalize start _ _ = r
      cases r <;> rfl

/-- A tool that is called by a path below the root is looked for from the directory at hand. The root is entered, and
what the path leads to from there is started. -/
theorem boxWith_of_relative (hrel : Path.isAbsolute i.program = false) (hslash : '/' ∈ i.program) :
    boxWith search start root i ((), t) =
      if Shell.isProgram t (Path.join root i.program) = false then (.error .noProgram, (), t)
      else if hasZero root (Path.join root i.program) i.args then (.error .zeroByte, (), t)
      else match enter t root with
        | .error r => (.error r, (), t)
        | .ok p => leave t (start (t.seenFrom p) (callAt search (Path.join root i.program) i)) := by
  rw [boxWith_eq, locate?_of_relative hrel hslash]
  cases Shell.isProgram t (Path.join root i.program) <;> rfl

/-! ## Absolute roots -/

theorem locate?_seenFrom (hsearch : ∀ d ∈ search, Path.isAbsolute d = true) (habs : Path.isAbsolute root = true)
    (t : Tree) (h : Place) (program : Text) :
    locate? search (t.seenFrom h) root program = locate? search t root program := by
  have hfind : Shell.find? (t.seenFrom h) search program = Shell.find? t search program := by
    unfold Shell.find?
    refine List.find?_congr fun path hpath => ?_
    obtain ⟨d, hd, rfl⟩ := List.mem_map.1 hpath
    exact Shell.isProgram_seenFrom (Path.isAbsolute_below_of_root (hsearch d hd) program) t h
  simp only [locate?, Shell.isProgram_seenFrom (Path.isAbsolute_below_of_root habs program), hfind]

theorem enter_seenFrom (habs : Path.isAbsolute root = true) (t : Tree) (h : Place) :
    enter (t.seenFrom h) root = enter t root := by
  simp only [enter, Tree.resolve_seenFrom habs, Tree.get?_seenFrom]

/-- What a tool does below an absolute root does not depend on the directory at hand, if it is found wherever that
is. -/
theorem boxWith_seenFrom_of_locate? (habs : Path.isAbsolute root = true) (i : Invocation) (t : Tree) (h : Place)
    (hlocate : locate? search (t.seenFrom h) root i.program = locate? search t root i.program) :
    boxWith search start root i ((), t.seenFrom h) =
      ((boxWith search start root i ((), t)).1, (), (boxWith search start root i ((), t)).2.2.seenFrom h) := by
  simp only [boxWith_eq, hlocate, enter_seenFrom habs, Tree.seenFrom_seenFrom]
  cases locate? search t root i.program with
  | none => rfl
  | some path =>
    simp only
    split
    · rfl
    cases enter t root with
    | error r => rfl
    | ok p =>
      simp only
      cases start (t.seenFrom p) (callAt search path i) <;> rfl

theorem boxWith_seenFrom (hsearch : ∀ d ∈ search, Path.isAbsolute d = true) (habs : Path.isAbsolute root = true)
    (i : Invocation) (t : Tree) (h : Place) :
    boxWith search start root i ((), t.seenFrom h) =
      ((boxWith search start root i ((), t)).1, (), (boxWith search start root i ((), t)).2.2.seenFrom h) :=
  boxWith_seenFrom_of_locate? habs i t h (locate?_seenFrom hsearch habs t h i.program)

/-! ## Relative roots -/

/-- Below a relative root, no tool is started whose path leads nowhere from inside the root, whatever it leads to from
the directory at hand. -/
theorem boxWith_lost (hstart : start.Follows) (hroot : Path.isAbsolute root = false)
    (hrel : Path.isAbsolute i.program = false) (hslash : '/' ∈ i.program)
    (hlost : ∀ p, enter t root = .ok p → ∀ q, (t.seenFrom p).resolve (Path.join root i.program) ≠ .ok q) :
    ∃ r, boxWith search start root i ((), t) = (.error r, (), t) := by
  rw [boxWith_of_relative hrel hslash]
  split
  · exact ⟨_, rfl⟩
  split
  · exact ⟨_, rfl⟩
  cases he : enter t root with
  | error r => exact ⟨r, rfl⟩
  | ok p =>
    have hjoin : Path.isAbsolute (Path.join root i.program) = false := by rw [Path.isAbsolute_below, hrel, hroot]; rfl
    obtain ⟨r, hr⟩ := hstart (t.seenFrom p) (callAt search (Path.join root i.program) i) hjoin (hlost p he)
    exact ⟨r, by simp only [hr, leave]⟩

/-! ## Any root -/

/-- What becomes of a tool that is called by a path below the root. -/
structure Below (search : List Text) (start : Shell.Start) (root : Text) (i : Invocation) (t : Tree) : Prop where
  /-- The path is looked for from the directory at hand, and started from inside the root. -/
  started : boxWith search start root i ((), t) =
    if Shell.isProgram t (Path.join root i.program) = false then (.error .noProgram, (), t)
    else if hasZero root (Path.join root i.program) i.args then (.error .zeroByte, (), t)
    else match enter t root with
      | .error r => (.error r, (), t)
      | .ok p => leave t (start (t.seenFrom p) (callAt search (Path.join root i.program) i))
  /-- From inside, it leads where it led if the root is absolute, or is the directory at hand. -/
  same : ∀ p, enter t root = .ok p → Path.isAbsolute root = true ∨ p = t.here →
    (t.seenFrom p).resolve (Path.join root i.program) = t.resolve (Path.join root i.program)
  /-- With an absolute root, the directory at hand plays no part. -/
  steady : Path.isAbsolute root = true → ∀ h, boxWith search start root i ((), t.seenFrom h) =
    ((boxWith search start root i ((), t)).1, (), (boxWith search start root i ((), t)).2.2.seenFrom h)
  /-- With another root, the tool is lost if the path leads nowhere from inside. -/
  lost : Path.isAbsolute root = false →
    (∀ p, enter t root = .ok p → ∀ q, (t.seenFrom p).resolve (Path.join root i.program) ≠ .ok q) →
    ∃ r, boxWith search start root i ((), t) = (.error r, (), t)

theorem below (search : List Text) (hstart : start.Follows) (root : Text) (t : Tree)
    (hrel : Path.isAbsolute i.program = false) (hslash : '/' ∈ i.program) : Below search start root i t where
  started := boxWith_of_relative hrel hslash
  same p _ hp := by
    rcases hp with habs | rfl
    · exact Tree.resolve_seenFrom (Path.isAbsolute_below_of_root habs i.program) t p
    · rfl
  steady habs h := by
    refine boxWith_seenFrom_of_locate? habs i t h ?_
    rw [locate?_of_relative hrel hslash, locate?_of_relative hrel hslash,
      Shell.isProgram_seenFrom (Path.isAbsolute_below_of_root habs i.program)]
  lost hroot hlost := boxWith_lost hstart hroot hrel hslash hlost

end Tool.Installed

end LanguageRoster
